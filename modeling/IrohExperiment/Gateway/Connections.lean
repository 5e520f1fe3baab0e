/-
# The shared connection of the client (`tcp-tunnel/src/bin/client.rs`)

Any number of `tunnel_one` tasks on one cached gateway connection: each section under the
lock of the cache is one step, and between the steps the other tasks go on and connections
close at any time.

The first part is about losing a connection that is healthy (`keeps_iff`): an open cached
connection is removed only by a task that has failed on it, exactly if on no stream
`drive_client` fails with an error that is misread, in the sense of `Misread`.  A refusal
whose text reads like a lost connection (`not_keeps`) and a reset of the local TCP socket
are.  The second part is about keeping one that is not (`run_evicts_iff`): a task that
returns a lost connection or a timeout of the handshake has removed its connection from
the cache, exactly if it did not fail in `open_bi`.
-/
import IrohExperiment.Gateway.Failures
import IrohExperiment.History.Run

namespace IrohExperiment.Gateway

open Rust

/-! ## Tasks -/

/-- Where a run of `tunnel_one` stands.  Connections are named in the order in which they have
been dialed, so that a name is what `stable_id` tells apart. -/
inductive Stage where
  /-- before `get_or_dial` looks at the cache -/
  | started
  /-- before `endpoint.connect` is through -/
  | dialing
  /-- with a new connection, before the cache is looked at again -/
  | dialed (conn : ℕ)
  /-- with what `get_or_dial` has returned, before `open_bi` is through -/
  | opening (gateway : ℕ)
  /-- before `drive_client` is through -/
  | driving (gateway : ℕ)
  /-- with an error that asks for the cache to be cleared, before it is looked at -/
  | evicting (gateway : ℕ) (error : Anyhow)
  /-- with an error, when the cache has been looked at -/
  | failing (gateway : ℕ) (error : Anyhow)
  /-- with what `tunnel_one` has returned, and the connection that it has used -/
  | returned (gateway : Option ℕ) (result : Except Anyhow ByteCounts)

/-- The connection that a task has. -/
def Stage.conn : Stage → Option ℕ
  | started => none
  | dialing => none
  | dialed conn => some conn
  | opening gateway => some gateway
  | driving gateway => some gateway
  | evicting gateway _ => some gateway
  | failing gateway _ => some gateway
  | returned gateway _ => gateway

/-- The tasks, the cached connection, how many connections have been dialed, and which of them
have closed. -/
structure Clients where
  tasks : ℕ → Stage
  cache : Option ℕ
  dials : ℕ
  closed : List ℕ

namespace Clients

/-- Nothing has happened yet. -/
def start : Clients := ⟨fun _ => .started, none, 0, []⟩

/-- The connection has no `close_reason`. -/
def IsOpen (s : Clients) (conn : ℕ) : Prop := conn ∉ s.closed

instance (s : Clients) (conn : ℕ) : Decidable (s.IsOpen conn) := inferInstanceAs (Decidable (¬ _))

/-- The cached connection, if it is open. -/
def live (s : Clients) : Option ℕ := s.cache.filter fun conn => s.IsOpen conn

/-- Task `i` goes on. -/
def put (s : Clients) (i : ℕ) (stage : Stage) : Clients :=
  { s with tasks := Function.update s.tasks i stage }

end Clients

/-- The error of a stream that could not be opened in time. -/
def openTimeout : Anyhow := .other "tunnel handshake timed out waiting for stream capacity".toList

/-! ## Steps -/

/-- What can happen: a step of task `i`, or a connection closes. -/
inductive Action where
  | looks (i : ℕ)
  | dialFails (i : ℕ) (cause : Anyhow)
  | dials (i : ℕ)
  | lands (i : ℕ)
  | opens (i : ℕ)
  | openFails (i : ℕ) (cause : Anyhow)
  | openTimesOut (i : ℕ)
  /-- `drive_client` on a new stream of the connection -/
  | drives (i : ℕ) (localSide : Source) (wire : Wire)
  | evicts (i : ℕ)
  | returns (i : ℕ)
  | closes (conn : ℕ)

section

variable (debug : Text → Text) (copy : Source → Source → Copied) (serviceId : Text)

/-- One step, if it can be made. -/
def step (action : Action) (s : Clients) : Option Clients :=
  match action with
  | .looks i =>
    match s.tasks i with
    | .started =>
      match s.live with
      | some conn => some (s.put i (.opening conn))
      | none => some (s.put i .dialing)
    | _ => none
  | .dialFails i cause =>
    match s.tasks i with
    | .dialing => some (s.put i (.returned none (.error (.context "connect failed".toList cause))))
    | _ => none
  | .dials i =>
    match s.tasks i with
    | .dialing => some { s.put i (.dialed s.dials) with dials := s.dials + 1 }
    | _ => none
  | .lands i =>
    match s.tasks i with
    | .dialed conn =>
      match s.live with
      | some existing => some (s.put i (.opening existing))
      | none => some { s.put i (.opening conn) with cache := some conn }
    | _ => none
  | .opens i =>
    match s.tasks i with
    | .opening gateway => some (s.put i (.driving gateway))
    | _ => none
  | .openFails i cause =>
    match s.tasks i with
    | .opening gateway =>
      some (s.put i (.returned (some gateway) (.error (.context "open_bi failed".toList cause))))
    | _ => none
  | .openTimesOut i =>
    match s.tasks i with
    | .opening gateway => some (s.put i (.returned (some gateway) (.error openTimeout)))
    | _ => none
  | .drives i localSide wire =>
    match s.tasks i with
    | .driving gateway =>
      match (driveClient debug copy localSide serviceId).run wire with
      | .returned (.ok counts) _ => some (s.put i (.returned (some gateway) (.ok counts)))
      | .returned (.error e) _ =>
        if stalled e = true then some (s.put i (.evicting gateway e))
        else some (s.put i (.failing gateway e))
      | .hangs _ => none
    | _ => none
  | .evicts i =>
    match s.tasks i with
    | .evicting gateway e =>
      -- what is cached is unusable if it has closed or is the connection of the task
      if ∃ conn ∈ s.cache, ¬ s.IsOpen conn ∨ conn = gateway then
        some { s.put i (.failing gateway e) with cache := none }
      else some (s.put i (.failing gateway e))
    | _ => none
  | .returns i =>
    match s.tasks i with
    | .failing gateway e => some (s.put i (.returned (some gateway) (.error e)))
    | _ => none
  | .closes conn => if conn < s.dials then some { s with closed := conn :: s.closed } else none

/-- What a step does. -/
inductive Moves (s : Clients) : Action → Clients → Prop where
  | hit {i conn : ℕ} (hstage : s.tasks i = .started) (hlive : s.live = some conn) :
      Moves s (.looks i) (s.put i (.opening conn))
  | miss {i : ℕ} (hstage : s.tasks i = .started) (hlive : s.live = none) :
      Moves s (.looks i) (s.put i .dialing)
  | dialFails {i : ℕ} {cause : Anyhow} (hstage : s.tasks i = .dialing) :
      Moves s (.dialFails i cause)
        (s.put i (.returned none (.error (.context "connect failed".toList cause))))
  | dials {i : ℕ} (hstage : s.tasks i = .dialing) :
      Moves s (.dials i) { s.put i (.dialed s.dials) with dials := s.dials + 1 }
  | joins {i conn existing : ℕ} (hstage : s.tasks i = .dialed conn)
      (hlive : s.live = some existing) :
      Moves s (.lands i) (s.put i (.opening existing))
  | lands {i conn : ℕ} (hstage : s.tasks i = .dialed conn) (hlive : s.live = none) :
      Moves s (.lands i) { s.put i (.opening conn) with cache := some conn }
  | opens {i gateway : ℕ} (hstage : s.tasks i = .opening gateway) :
      Moves s (.opens i) (s.put i (.driving gateway))
  | openFails {i gateway : ℕ} {cause : Anyhow} (hstage : s.tasks i = .opening gateway) :
      Moves s (.openFails i cause)
        (s.put i (.returned (some gateway) (.error (.context "open_bi failed".toList cause))))
  | openTimesOut {i gateway : ℕ} (hstage : s.tasks i = .opening gateway) :
      Moves s (.openTimesOut i) (s.put i (.returned (some gateway) (.error openTimeout)))
  | drives {i gateway : ℕ} {localSide : Source} {wire wire' : Wire} {counts : ByteCounts}
      (hstage : s.tasks i = .driving gateway)
      (hrun : (driveClient debug copy localSide serviceId).run wire =
        .returned (.ok counts) wire') :
      Moves s (.drives i localSide wire) (s.put i (.returned (some gateway) (.ok counts)))
  | stalls {i gateway : ℕ} {localSide : Source} {wire wire' : Wire} {e : Anyhow}
      (hstage : s.tasks i = .driving gateway)
      (hrun : (driveClient debug copy localSide serviceId).run wire = .returned (.error e) wire')
      (hstalled : stalled e = true) :
      Moves s (.drives i localSide wire) (s.put i (.evicting gateway e))
  | fails {i gateway : ℕ} {localSide : Source} {wire wire' : Wire} {e : Anyhow}
      (hstage : s.tasks i = .driving gateway)
      (hrun : (driveClient debug copy localSide serviceId).run wire = .returned (.error e) wire')
      (hstalled : stalled e = false) :
      Moves s (.drives i localSide wire) (s.put i (.failing gateway e))
  | clears {i gateway conn : ℕ} {e : Anyhow} (hstage : s.tasks i = .evicting gateway e)
      (hcache : s.cache = some conn) (hunusable : ¬ s.IsOpen conn ∨ conn = gateway) :
      Moves s (.evicts i) { s.put i (.failing gateway e) with cache := none }
  | spares {i gateway : ℕ} {e : Anyhow} (hstage : s.tasks i = .evicting gateway e)
      (husable : ∀ conn, s.cache = some conn → s.IsOpen conn ∧ conn ≠ gateway) :
      Moves s (.evicts i) (s.put i (.failing gateway e))
  | returns {i gateway : ℕ} {e : Anyhow} (hstage : s.tasks i = .failing gateway e) :
      Moves s (.returns i) (s.put i (.returned (some gateway) (.error e)))
  | closes {conn : ℕ} (hdialed : conn < s.dials) :
      Moves s (.closes conn) { s with closed := conn :: s.closed }

variable {debug copy serviceId}

theorem step_moves {action : Action} {s t : Clients}
    (h : step debug copy serviceId action s = some t) :
    Moves debug copy serviceId s action t := by
  unfold step at h
  cases action with
  | looks i =>
    cases hstage : s.tasks i <;> simp only [hstage, reduceCtorEq] at h
    cases hlive : s.live <;> simp only [hlive] at h <;> obtain rfl := Option.some.inj h
    · exact .miss hstage hlive
    · exact .hit hstage hlive
  | dialFails i cause =>
    cases hstage : s.tasks i <;> simp only [hstage, reduceCtorEq] at h
    obtain rfl := Option.some.inj h
    exact .dialFails hstage
  | dials i =>
    cases hstage : s.tasks i <;> simp only [hstage, reduceCtorEq] at h
    obtain rfl := Option.some.inj h
    exact .dials hstage
  | lands i =>
    cases hstage : s.tasks i <;> simp only [hstage, reduceCtorEq] at h
    cases hlive : s.live <;> simp only [hlive] at h <;> obtain rfl := Option.some.inj h
    · exact .lands hstage hlive
    · exact .joins hstage hlive
  | opens i =>
    cases hstage : s.tasks i <;> simp only [hstage, reduceCtorEq] at h
    obtain rfl := Option.some.inj h
    exact .opens hstage
  | openFails i cause =>
    cases hstage : s.tasks i <;> simp only [hstage, reduceCtorEq] at h
    obtain rfl := Option.some.inj h
    exact .openFails hstage
  | openTimesOut i =>
    cases hstage : s.tasks i <;> simp only [hstage, reduceCtorEq] at h
    obtain rfl := Option.some.inj h
    exact .openTimesOut hstage
  | drives i localSide wire =>
    cases hstage : s.tasks i <;> simp only [hstage, reduceCtorEq] at h
    rcases hrun : (driveClient debug copy localSide serviceId).run wire with
      ⟨e | counts, wire'⟩ | wire' <;>
      simp only [hrun, reduceCtorEq] at h
    -- only an error that reads like a lost connection leads to the cache
    · cases hstalled : stalled e <;> simp only [hstalled, reduceIte, Bool.false_eq_true] at h <;>
        obtain rfl := Option.some.inj h
      · exact .fails hstage hrun hstalled
      · exact .stalls hstage hrun hstalled
    · obtain rfl := Option.some.inj h
      exact .drives hstage hrun
  | evicts i =>
    cases hstage : s.tasks i <;> simp only [hstage, reduceCtorEq] at h
    -- the cache is cleared of a closed connection and of the one of the task
    split_ifs at h with hunusable <;> obtain rfl := Option.some.inj h
    · obtain ⟨conn, hcache, hunusable⟩ := hunusable
      exact .clears hstage hcache hunusable
    · refine .spares hstage fun conn hcache => ?_
      by_contra husable
      rw [not_and_or, not_not] at husable
      exact hunusable ⟨conn, hcache, husable⟩
  | returns i =>
    cases hstage : s.tasks i <;> simp only [hstage, reduceCtorEq] at h
    obtain rfl := Option.some.inj h
    exact .returns hstage
  | closes conn =>
    obtain ⟨hdialed, rfl⟩ := History.of_guarded h
    exact .closes hdialed

/-! ## A healthy connection stays -/

variable (debug copy serviceId) in
/-- In the run, task `i` has failed on the connection: `drive_client` has failed on a stream of it,
by a timeout of the handshake or by an error of the gateway's stream that is a lost connection. -/
def FailedOn (actions : List Action) (i gateway : ℕ) : Prop :=
  ∃ before localSide wire after m,
    actions = before ++ .drives i localSide wire :: after ∧
    History.run (step debug copy serviceId) .start before = some m ∧ m.tasks i = .driving gateway ∧
    GatewayFails copy localSide serviceId wire

variable (debug copy serviceId) in
/-- What a step may do to the cache, after a run: an open cached connection stays unless a task
that has failed on it clears the cache, and `get_or_dial` leaves it there; what `get_or_dial`
returns is the open cached connection or the one that it has dialed. -/
structure Keeps (actions : List Action) (s : Clients) (action : Action) (t : Clients) : Prop where
  cached : ∀ conn, s.cache = some conn → s.IsOpen conn → t.cache ≠ some conn →
    ∃ i, action = .evicts i ∧ FailedOn debug copy serviceId actions i conn
  found : ∀ i, action = .looks i ∨ action = .lands i →
    ∀ conn, s.cache = some conn → s.IsOpen conn → t.cache = some conn
  obtained : ∀ i, action = .looks i ∨ action = .lands i → ∀ conn, t.tasks i = .opening conn →
    (s.cache = some conn ∧ s.IsOpen conn) ∨ s.tasks i = .dialed conn

theorem Clients.live_eq_some {s : Clients} {conn : ℕ} :
    s.live = some conn ↔ s.cache = some conn ∧ s.IsOpen conn := by
  unfold Clients.live
  rw [Option.filter_eq_some_iff]
  simp

theorem Clients.live_eq_none {s : Clients} (h : s.live = none) {conn : ℕ}
    (hcache : s.cache = some conn) :
    ¬ s.IsOpen conn := by
  intro hopen
  rw [Clients.live_eq_some.mpr ⟨hcache, hopen⟩] at h
  cases h

@[simp] theorem Clients.put_tasks (s : Clients) (i j : ℕ) (stage : Stage) :
    (s.put i stage).tasks j = if j = i then stage else s.tasks j :=
  Function.update_apply ..

@[simp] theorem Clients.put_cache (s : Clients) (i : ℕ) (stage : Stage) :
    (s.put i stage).cache = s.cache := rfl

@[simp] theorem Clients.put_dials (s : Clients) (i : ℕ) (stage : Stage) :
    (s.put i stage).dials = s.dials := rfl

@[simp] theorem Clients.put_closed (s : Clients) (i : ℕ) (stage : Stage) :
    (s.put i stage).closed = s.closed := rfl

/-- What the cache may become. -/
theorem Moves.cache {action : Action} {s t : Clients} (h : Moves debug copy serviceId s action t) :
    t.cache = s.cache ∨
      (∃ i conn, action = .lands i ∧ s.tasks i = .dialed conn ∧ s.live = none ∧
        t.cache = some conn ∧
        t.tasks i = .opening conn) ∨
      ∃ i gateway e conn, action = .evicts i ∧ s.tasks i = .evicting gateway e ∧
        s.cache = some conn ∧
        (¬ s.IsOpen conn ∨ conn = gateway) ∧ t.cache = none := by
  cases h with
  | lands hstage hlive => exact .inr (.inl ⟨_, _, rfl, hstage, hlive, rfl, if_pos rfl⟩)
  | clears hstage hcache hunusable =>
      exact .inr (.inr ⟨_, _, _, _, rfl, hstage, hcache, hunusable, rfl⟩)
  | _ => exact .inl rfl

/-- How a task comes to be about to clear the cache. -/
theorem Moves.evicting {action : Action} {s t : Clients} (h : Moves debug copy serviceId s action t)
    {j gateway : ℕ} {e : Anyhow} (ht : t.tasks j = .evicting gateway e) :
    s.tasks j = .evicting gateway e ∨
      ∃ localSide wire wire', action = .drives j localSide wire ∧ s.tasks j = .driving gateway ∧
        (driveClient debug copy localSide serviceId).run wire = .returned (.error e) wire' ∧
        stalled e = true := by
  cases h with
  | closes hdialed => exact .inl ht
  | stalls hstage hrun hstalled =>
    rw [Clients.put_tasks] at ht
    split_ifs at ht with hj
    · obtain ⟨rfl, rfl⟩ := Stage.evicting.inj ht
      exact .inr ⟨_, _, _, hj ▸ rfl, hj ▸ hstage, hrun, hstalled⟩
    · exact .inl ht
  | _ =>
    simp only [Clients.put_tasks] at ht
    split_ifs at ht
    exact .inl ht

/-- The streams that `drive_client` works on in the run are such as `allowed` lets them be. -/
def StreamsIn (allowed : Source → Wire → Prop) (actions : List Action) : Prop :=
  ∀ i localSide wire, .drives i localSide wire ∈ actions → allowed localSide wire

/-- A task that is about to clear the cache has failed. -/
theorem failedOn_of_evicting {allowed : Source → Wire → Prop} {actions : List Action} {s : Clients}
    (hrun : History.run (step debug copy serviceId) .start actions = some s)
    (hstreams : StreamsIn allowed actions)
    (hread : ∀ localSide wire, allowed localSide wire →
      ¬ Misread debug copy localSide serviceId wire) :
    ∀ i gateway e, s.tasks i = .evicting gateway e →
      FailedOn debug copy serviceId actions i gateway := by
  refine History.run_induct (P := fun actions s => StreamsIn allowed actions → ∀ i gateway e,
    s.tasks i = .evicting gateway e → FailedOn debug copy serviceId actions i gateway) nofun ?_
      hrun hstreams
  intro actions m action t hbefore ih hstep hstreams i gateway e ht
  have hearlier : StreamsIn allowed actions := fun j localSide wire hmem =>
    hstreams j localSide wire (List.mem_append_left _ hmem)
  rcases (step_moves hstep).evicting ht with
    hm | ⟨localSide, wire, wire', rfl, hdriving, hdrive, hstalled⟩
  · obtain ⟨before, localSide, wire, after, m', rfl, h⟩ := ih hearlier i gateway e hm
    refine ⟨before, localSide, wire, after ++ [action], m', ?_, h⟩
    rw [List.append_assoc, List.cons_append]
  · have hnot := hread localSide wire (hstreams i localSide wire (by simp))
    exact ⟨actions, localSide, wire, [], m, rfl, hbefore, hdriving,
      (driveClient_stalled hdrive hstalled).resolve_right hnot⟩

/-- How a task comes by a connection from `get_or_dial`. -/
theorem Moves.obtained {action : Action} {s t : Clients} (h : Moves debug copy serviceId s action t)
    {i conn : ℕ} (haction : action = .looks i ∨ action = .lands i)
    (ht : t.tasks i = .opening conn) :
    (s.cache = some conn ∧ s.IsOpen conn) ∨ s.tasks i = .dialed conn := by
  cases h with
  | hit hstage hlive =>
    obtain rfl : _ = i := by simpa using haction
    rw [Clients.put_tasks, if_pos rfl] at ht
    obtain rfl := Stage.opening.inj ht
    exact .inl (Clients.live_eq_some.mp hlive)
  | joins hstage hlive =>
    obtain rfl : _ = i := by simpa using haction
    rw [Clients.put_tasks, if_pos rfl] at ht
    obtain rfl := Stage.opening.inj ht
    exact .inl (Clients.live_eq_some.mp hlive)
  | miss hstage hlive =>
    obtain rfl : _ = i := by simpa using haction
    rw [Clients.put_tasks, if_pos rfl] at ht
    cases ht
  | lands hstage hlive =>
    obtain rfl : _ = i := by simpa using haction
    simp only [Clients.put_tasks, if_pos] at ht
    obtain rfl := Stage.opening.inj ht
    exact .inr hstage
  | _ => simp at haction

variable (debug copy serviceId) in
/-- A task that has dialed the connection that is cached and has a stream on it. -/
theorem run_driving : ∃ s, History.run (step debug copy serviceId) .start
    [.looks 0, .dials 0, .lands 0, .opens 0] =
    some s ∧ s.tasks 0 = .driving 0 ∧ s.cache = some 0 ∧ s.IsOpen 0 :=
  ⟨_, rfl, rfl, rfl, nofun⟩

variable (debug copy serviceId) in
/-- One task, on a stream of a connection that it has dialed. -/
def oneStream (localSide : Source) (wire : Wire) : List Action :=
  [.looks 0, .dials 0, .lands 0, .opens 0, .drives 0 localSide wire]

/-- An error that is misread clears the cache, though nothing has failed on the connection. -/
theorem Misread.loses {localSide : Source} {wire : Wire}
    (h : Misread debug copy localSide serviceId wire) :
    ∃ s t, History.run (step debug copy serviceId) .start (oneStream localSide wire) = some s ∧
      step debug copy serviceId (.evicts 0) s = some t ∧ s.cache = some 0 ∧ s.IsOpen 0 ∧
        t.cache = none ∧
      ∀ i gateway, ¬ FailedOn debug copy serviceId (oneStream localSide wire) i gateway := by
  obtain ⟨s, hrun, hdriving, hcache, hopen⟩ := run_driving debug copy serviceId
  obtain ⟨e, wire', hdrive, hstalled⟩ := h.stalls
  have hstep : step debug copy serviceId (.drives 0 localSide wire) s =
      some (s.put 0 (.evicting 0 e)) := by
    unfold step
    simp only [hdriving, hdrive, hstalled, if_pos]
  have hclears : step debug copy serviceId (.evicts 0) (s.put 0 (.evicting 0 e)) =
      some { (s.put 0 (.evicting 0 e)).put 0 (.failing 0 e) with cache := none } := by
    unfold step
    simp only [Clients.put_tasks, if_pos, Clients.put_cache, hcache]
    exact if_pos ⟨0, rfl, .inr rfl⟩
  refine ⟨_, _, History.run_concat.mpr ⟨s, hrun, hstep⟩, hclears, hcache, hopen, rfl, ?_⟩
  -- the one stream of the run is the one whose error is misread
  rintro i gateway ⟨before, localSide', wire₁, after, m, hactions, -, -, hfails⟩
  have hmem : Action.drives i localSide' wire₁ ∈ oneStream localSide wire := by
    rw [hactions]
    exact List.mem_append_right _ List.mem_cons_self
  simp only [oneStream, List.mem_cons, reduceCtorEq, List.not_mem_nil, or_false, false_or,
    Action.drives.injEq] at hmem
  obtain ⟨rfl, rfl, rfl⟩ := hmem
  exact h.not_gatewayFails hfails

variable (debug copy serviceId) in
/-- A healthy cached connection is never lost, on any run and by any step of any task, exactly if
the error of no stream is misread: no refusal of the service reads like a lost connection or a
timeout, and no local socket fails with an error that a lost connection has.  `allowed` are the
streams and local sockets that may occur. -/
theorem keeps_iff (allowed : Source → Wire → Prop) :
    (∀ actions s action t, History.run (step debug copy serviceId) .start actions = some s →
      step debug copy serviceId action s = some t → StreamsIn allowed actions →
      Keeps debug copy serviceId actions s action t) ↔
      ∀ localSide wire, allowed localSide wire → ¬ Misread debug copy localSide serviceId wire := by
  constructor
  · intro hkeeps localSide wire hallowed hmisread
    -- one task that drives the stream loses an open connection
    obtain ⟨s, t, hrun, hstep, hcache, hopen, hnone, hreal⟩ := hmisread.loses
    have hstreams : StreamsIn allowed (oneStream localSide wire) := by
      intro i localSide' wire' hmem
      simp only [oneStream, List.mem_cons, reduceCtorEq, List.not_mem_nil, or_false, false_or,
        Action.drives.injEq] at hmem
      obtain ⟨-, rfl, rfl⟩ := hmem
      exact hallowed
    obtain ⟨i, -, hfailed⟩ :=
      (hkeeps _ s _ t hrun hstep hstreams).cached 0 hcache hopen (by rw [hnone]; nofun)
    exact hreal i 0 hfailed
  · intro hread actions s action t hrun hstep hstreams
    have hmoves := step_moves hstep
    -- an open connection leaves the cache by an eviction alone
    have hcached : ∀ conn, s.cache = some conn → s.IsOpen conn → t.cache ≠ some conn →
        ∃ i, action = .evicts i ∧ FailedOn debug copy serviceId actions i conn := by
      intro conn hcache hopen hlost
      rcases hmoves.cache with hsame | ⟨i, conn', -, -, hlive, -, -⟩ |
        ⟨i, gateway, e, conn', haction, hstage, hconn, hunusable, -⟩
      · rw [hsame] at hlost
        exact absurd hcache hlost
      · exact absurd hopen (Clients.live_eq_none hlive hcache)
      · obtain rfl : conn = conn' := Option.some.inj (hcache.symm.trans hconn)
        obtain rfl := hunusable.resolve_left (not_not.mpr hopen)
        exact ⟨i, haction, failedOn_of_evicting hrun hstreams hread i _ e hstage⟩
    refine ⟨hcached, fun i haction conn hcache hopen => ?_,
      fun i haction conn => hmoves.obtained haction⟩
    by_contra hlost
    obtain ⟨j, hevicts, -⟩ := hcached conn hcache hopen hlost
    rcases haction with rfl | rfl <;> cases hevicts

end

/-- How `{:?}` shows a text in which nothing is escaped. -/
def quoted (text : Text) : Text := '"' :: text ++ ['"']

/-- What a gateway sends that answers with one status. -/
def answering (status : TunnelStatus) : Wire :=
  ⟨⟨[⟨[status.toU8], List.cons_ne_nil _ _⟩], .silent⟩, ⟨[], .silent⟩, [], []⟩

/-- Copying that ends when the other side is reset. -/
def copyUntilReset (_stream _other : Source) : Copied :=
  ⟨[], some (.error (.other, .connectionReset))⟩

theorem misread_connectionLost (localSide : Source) :
    Misread quoted copyAll localSide "connection lost".toList (answering .unknownService) :=
  .refused rfl nofun (by decide)

theorem misread_localReset (localSide : Source) :
    Misread quoted copyUntilReset localSide "web".toList (answering .ok) :=
  .localLost rfl rfl (.inl rfl)

/-- An open connection is lost when the gateway does not know a service called "connection lost",
and when the local client of any service resets its socket. -/
theorem not_keeps :
    (¬ ∀ actions s action t, History.run (step quoted copyAll "connection lost".toList) .start
      actions = some s →
      step quoted copyAll "connection lost".toList action s = some t →
      Keeps quoted copyAll "connection lost".toList actions s action t) ∧
    ¬ ∀ actions s action t, History.run (step quoted copyUntilReset "web".toList) .start
      actions = some s →
      step quoted copyUntilReset "web".toList action s = some t →
      Keeps quoted copyUntilReset "web".toList actions s action t := by
  constructor
  · intro hkeeps
    obtain ⟨s, t, hrun, hstep, hcache, hopen, hnone, hreal⟩ :=
      (misread_connectionLost ⟨[], .silent⟩).loses
    obtain ⟨i, -, hfailed⟩ :=
      (hkeeps _ s _ t hrun hstep).cached 0 hcache hopen (by rw [hnone]; nofun)
    exact hreal i 0 hfailed
  · intro hkeeps
    obtain ⟨s, t, hrun, hstep, hcache, hopen, hnone, hreal⟩ :=
      (misread_localReset ⟨[], .silent⟩).loses
    obtain ⟨i, -, hfailed⟩ :=
      (hkeeps _ s _ t hrun hstep).cached 0 hcache hopen (by rw [hnone]; nofun)
    exact hreal i 0 hfailed

/-- No refusal of this service is misread, and nothing is if no local socket fails. -/
theorem keeps_web : ∀ actions s action t,
    History.run (step quoted copyAll "web".toList) .start actions = some s →
    step quoted copyAll "web".toList action s = some t →
    Keeps quoted copyAll "web".toList actions s action t := by
  intro actions s action t hrun hstep
  refine (keeps_iff quoted copyAll "web".toList fun _ _ => True).mpr ?_ actions s action
    t hrun hstep
    fun _ _ _ _ => trivial
  rintro localSide wire - hmisread
  cases hmisread with
  | @refused status wire' hrun hstatus hreads =>
    revert hreads
    cases status <;> decide
  | @localLost kind wire' hrun hcopy hlost =>
    simp only [copyAll] at hcopy
    split_ifs at hcopy
    cases hcopy

/-! ## A stalled connection goes -/

section

variable {debug : Text → Text} {copy : Source → Source → Copied} {serviceId : Text}

variable (debug copy serviceId) in
/-- A step by which a task returns an error that is a lost connection or a timeout of the
handshake: from then on the cache does not hold the connection of the task.  `lost` are the
errors of `open_bi` that are a lost connection. -/
def Evicts (lost : Anyhow → Prop) (s : Clients) (action : Action) (t : Clients) : Prop :=
  ∀ i gateway e, s.tasks i ≠ t.tasks i → t.tasks i = .returned (some gateway) (.error e) →
    (stalled e = true ∨ ∃ cause, action = .openFails i cause ∧ lost cause) →
    ∀ later u, History.run (step debug copy serviceId) t later = some u → u.cache ≠ some gateway

/-- If the step is a timeout of `open_bi`, or a failure of it that is a lost connection, then the
cache no longer holds the connection of the task. -/
def Unstuck (lost : Anyhow → Prop) (s : Clients) (action : Action) : Prop :=
  ∀ i gateway, s.tasks i = .opening gateway →
    (action = .openTimesOut i ∨ ∃ cause, action = .openFails i cause ∧
      (lost cause ∨ stalled (.context "open_bi failed".toList cause) = true)) →
    s.cache ≠ some gateway

/-- The connection has been dialed, and no task is still to put it into the cache. -/
structure Landed (s : Clients) (conn : ℕ) : Prop where
  old : conn < s.dials
  notPending : ∀ i, s.tasks i ≠ .dialed conn

/-- The connection that a task has from `get_or_dial`. -/
def Stage.gateway : Stage → Option ℕ
  | opening gateway => some gateway
  | driving gateway => some gateway
  | evicting gateway _ => some gateway
  | failing gateway _ => some gateway
  | returned gateway _ => gateway
  | _ => none

/-- What holds between the steps. -/
structure Sound (s : Clients) : Prop where
  cached : ∀ conn, s.cache = some conn → Landed s conn
  used : ∀ i gateway, (s.tasks i).gateway = some gateway → Landed s gateway
  pending : ∀ i conn, s.tasks i = .dialed conn → conn < s.dials ∧
    ∀ j, s.tasks j = .dialed conn → j = i
  gone : ∀ i gateway e, s.tasks i = .failing gateway e → stalled e = true → s.cache ≠ some gateway

theorem sound_start : Sound .start where
  cached := nofun
  used := nofun
  pending := nofun
  gone := nofun

/-- How a task comes to have a new connection. -/
theorem Moves.dialed {action : Action} {s t : Clients} (h : Moves debug copy serviceId s action t)
    {j conn : ℕ} (ht : t.tasks j = .dialed conn) :
    s.tasks j = .dialed conn ∨ action = .dials j ∧ conn = s.dials ∧ t.dials = s.dials + 1 := by
  cases h with
  | closes hdialed => exact .inl ht
  | dials hstage =>
    simp only [Clients.put_tasks] at ht
    split_ifs at ht with hj
    · obtain rfl := Stage.dialed.inj ht
      exact .inr ⟨hj ▸ rfl, rfl, rfl⟩
    · exact .inl ht
  | _ =>
    simp only [Clients.put_tasks] at ht
    split_ifs at ht
    exact .inl ht

theorem Moves.dials_le {action : Action} {s t : Clients}
    (h : Moves debug copy serviceId s action t) :
    s.dials ≤ t.dials := by
  cases h with
  | dials hstage => exact Nat.le_succ _
  | _ => exact le_refl _

theorem Landed.moves {action : Action} {s t : Clients} {conn : ℕ} (hlanded : Landed s conn)
    (h : Moves debug copy serviceId s action t) : Landed t conn := by
  refine ⟨lt_of_lt_of_le hlanded.old h.dials_le, fun i ht => ?_⟩
  rcases h.dialed ht with hs | ⟨-, rfl, -⟩
  · exact hlanded.notPending i hs
  · exact absurd hlanded.old (lt_irrefl _)

/-- How a task comes to use a connection. -/
theorem Moves.gateway {action : Action} {s t : Clients} (h : Moves debug copy serviceId s action t)
    {j gateway : ℕ} (ht : (t.tasks j).gateway = some gateway) :
    (s.tasks j).gateway = some gateway ∨ s.cache = some gateway ∨
      s.tasks j = .dialed gateway ∧ t.tasks j = .opening gateway := by
  cases h with
  | closes hdialed => exact .inl ht
  | hit hstage hlive =>
    simp only [Clients.put_tasks] at ht
    split_ifs at ht with hj
    · obtain rfl := Option.some.inj ht
      exact .inr (.inl (Clients.live_eq_some.mp hlive).1)
    · exact .inl ht
  | joins hstage hlive =>
    simp only [Clients.put_tasks] at ht
    split_ifs at ht with hj
    · obtain rfl := Option.some.inj ht
      exact .inr (.inl (Clients.live_eq_some.mp hlive).1)
    · exact .inl ht
  | lands hstage hlive =>
    simp only [Clients.put_tasks] at ht ⊢
    split_ifs at ht with hj
    · obtain rfl := Option.some.inj ht
      rw [if_pos hj, hj]
      exact .inr (.inr ⟨hstage, rfl⟩)
    · exact .inl ht
  | _ =>
    -- the task goes on with the connection that it has
    simp only [Clients.put_tasks] at ht
    split_ifs at ht with hj
    · subst hj
      simp_all [Stage.gateway]
    · exact .inl ht

/-- How a task comes to be through with the cache, and what the cache is then. -/
theorem Moves.failing {action : Action} {s t : Clients} (h : Moves debug copy serviceId s action t)
    {j gateway : ℕ} {e : Anyhow} (ht : t.tasks j = .failing gateway e)
    (hstalled : stalled e = true) :
    s.tasks j = .failing gateway e ∨ t.cache ≠ some gateway := by
  cases h with
  | closes hdialed => exact .inl ht
  | fails hstage hrun hnot =>
    simp only [Clients.put_tasks] at ht
    split_ifs at ht with hj
    · obtain ⟨rfl, rfl⟩ := Stage.failing.inj ht
      rw [hstalled] at hnot
      cases hnot
    · exact .inl ht
  | clears hstage hcache hunusable => exact .inr nofun
  | spares hstage husable =>
    simp only [Clients.put_tasks] at ht
    split_ifs at ht with hj
    · obtain ⟨rfl, rfl⟩ := Stage.failing.inj ht
      exact .inr fun hcache => (husable _ hcache).2 rfl
    · exact .inl ht
  | _ =>
    simp only [Clients.put_tasks] at ht
    split_ifs at ht
    exact .inl ht

theorem Sound.moves {action : Action} {s t : Clients} (hs : Sound s)
    (h : Moves debug copy serviceId s action t) : Sound t := by
  -- what a task has dialed and puts to use has landed
  have hlands : ∀ i conn, s.tasks i = .dialed conn → t.tasks i = .opening conn → Landed t conn := by
    intro i conn hi ht
    obtain ⟨hold, huniq⟩ := hs.pending i conn hi
    refine ⟨lt_of_lt_of_le hold h.dials_le, fun j hj => ?_⟩
    rcases h.dialed hj with hsj | ⟨-, rfl, -⟩
    · obtain rfl := huniq j hsj
      rw [ht] at hj
      cases hj
    · exact absurd hold (lt_irrefl _)
  refine ⟨fun conn hcache => ?_, fun i gateway ht => ?_, fun i conn ht => ?_,
    fun i gateway e ht hstalled => ?_⟩
  · rcases h.cache with hsame | ⟨i, conn', -, hdialed, -, hcached, hopening⟩ | ⟨_, _, _, _, -, -,
      -, -, hnone⟩
    · rw [hsame] at hcache
      exact (hs.cached conn hcache).moves h
    · obtain rfl := Option.some.inj (hcached.symm.trans hcache)
      exact hlands i _ hdialed hopening
    · rw [hnone] at hcache
      cases hcache
  · rcases h.gateway ht with hs' | hcache | ⟨hdialed, hopening⟩
    · exact (hs.used i gateway hs').moves h
    · exact (hs.cached gateway hcache).moves h
    · exact hlands i gateway hdialed hopening
  · rcases h.dialed ht with hs' | ⟨haction, rfl, hdials⟩
    · obtain ⟨hold, huniq⟩ := hs.pending i conn hs'
      refine ⟨lt_of_lt_of_le hold h.dials_le, fun j hj => ?_⟩
      rcases h.dialed hj with hsj | ⟨-, rfl, -⟩
      · exact huniq j hsj
      · exact absurd hold (lt_irrefl _)
    · refine ⟨by omega, fun j hj => ?_⟩
      rcases h.dialed hj with hsj | ⟨haction', -, -⟩
      · exact absurd (hs.pending j _ hsj).1 (lt_irrefl _)
      · rw [haction] at haction'
        exact (Action.dials.inj haction').symm
  · rcases h.failing ht hstalled with hs' | hgone
    · rcases h.cache with hsame | ⟨j, conn, -, hdialed, -, hcached, -⟩ | ⟨_, _, _, _, -, -,
        -, -, hnone⟩
      · rw [hsame]
        exact hs.gone i gateway e hs' hstalled
      · rw [hcached]
        rintro ⟨⟩
        exact (hs.used i gateway (by rw [hs']; rfl)).notPending j hdialed
      · rw [hnone]
        nofun
    · exact hgone

theorem sound_of_run {actions : List Action} {s : Clients}
    (hrun : History.run (step debug copy serviceId) .start actions = some s) : Sound s :=
  History.run_induct (P := fun _ s => Sound s) sound_start
    (fun _ _ _ _ _ ih hstep => ih.moves (step_moves hstep)) hrun

/-- A connection that has landed and is not in the cache never gets there again. -/
theorem Landed.never_cached {s t : Clients} {conn : ℕ} (hlanded : Landed s conn)
    (hcache : s.cache ≠ some conn) {actions : List Action}
    (hrun : History.run (step debug copy serviceId) s actions = some t) :
    t.cache ≠ some conn := by
  refine (History.run_induct (P := fun _ t => Landed t conn ∧ t.cache ≠ some conn)
    ⟨hlanded, hcache⟩ ?_ hrun).2
  rintro actions m action t - ⟨hm, hcache⟩ hstep
  have h := step_moves hstep
  refine ⟨hm.moves h, ?_⟩
  rcases h.cache with hsame | ⟨j, conn', -, hdialed, -, hcached, -⟩ | ⟨_, _, _, _, -, -,
    -, -, hnone⟩
  · rw [hsame]
    exact hcache
  · rw [hcached]
    rintro ⟨⟩
    exact hm.notPending j hdialed
  · rw [hnone]
    nofun

/-- How a task comes to have returned an error. -/
theorem Moves.returned {action : Action} {s t : Clients} (h : Moves debug copy serviceId s action t)
    {j gateway : ℕ} {e : Anyhow} (hmoved : s.tasks j ≠ t.tasks j)
    (ht : t.tasks j = .returned (some gateway) (.error e)) :
    (s.tasks j = .failing gateway e ∧ action = .returns j ∧ t.cache = s.cache) ∨
      s.tasks j = .opening gateway ∧ t.cache = s.cache ∧
        (action = .openTimesOut j ∧ e = openTimeout ∨
          ∃ cause, action = .openFails j cause ∧ e = .context "open_bi failed".toList cause) := by
  cases h with
  | returns hstage =>
    simp only [Clients.put_tasks] at ht hmoved
    split_ifs at ht with hj
    · obtain ⟨hgateway, hresult⟩ := Stage.returned.inj ht
      obtain rfl := Option.some.inj hgateway
      obtain rfl := Except.error.inj hresult
      exact .inl ⟨hj ▸ hstage, hj ▸ rfl, rfl⟩
    · exact absurd (if_neg hj).symm hmoved
  | openFails hstage =>
    simp only [Clients.put_tasks] at ht hmoved
    split_ifs at ht with hj
    · obtain ⟨hgateway, hresult⟩ := Stage.returned.inj ht
      obtain rfl := Option.some.inj hgateway
      obtain rfl := Except.error.inj hresult
      exact .inr ⟨hj ▸ hstage, rfl, .inr ⟨_, hj ▸ rfl, rfl⟩⟩
    · exact absurd (if_neg hj).symm hmoved
  | openTimesOut hstage =>
    simp only [Clients.put_tasks] at ht hmoved
    split_ifs at ht with hj
    · obtain ⟨hgateway, hresult⟩ := Stage.returned.inj ht
      obtain rfl := Option.some.inj hgateway
      obtain rfl := Except.error.inj hresult
      exact .inr ⟨hj ▸ hstage, rfl, .inl ⟨hj ▸ rfl, rfl⟩⟩
    · exact absurd (if_neg hj).symm hmoved
  | closes hdialed => exact absurd rfl hmoved
  | dialFails hstage =>
    simp only [Clients.put_tasks] at ht hmoved
    split_ifs at ht with hj
    · simp at ht
    · exact absurd (if_neg hj).symm hmoved
  | drives hstage hdrive =>
    simp only [Clients.put_tasks] at ht hmoved
    split_ifs at ht with hj
    · simp at ht
    · exact absurd (if_neg hj).symm hmoved
  | _ =>
    simp only [Clients.put_tasks] at ht hmoved
    split_ifs at ht with hj
    exact absurd (if_neg hj).symm hmoved

theorem stalled_openTimeout : stalled openTimeout = true := by decide

/-- A step evicts exactly if it is not a stream that could not be opened while the cache held the
connection. -/
theorem evicts_iff (lost : Anyhow → Prop) {actions : List Action} {s t : Clients} {action : Action}
    (hrun : History.run (step debug copy serviceId) .start actions = some s)
    (hstep : step debug copy serviceId action s = some t) :
    Evicts debug copy serviceId lost s action t ↔ Unstuck lost s action := by
  have hmoves := step_moves hstep
  have hsound := sound_of_run hrun
  constructor
  · rintro hevicts i gateway hopening (rfl | ⟨cause, rfl, hlost⟩)
    · cases hmoves with
      | openTimesOut hstage =>
        obtain rfl := Stage.opening.inj (hopening.symm.trans hstage)
        rw [← Clients.put_cache s i (.returned (some gateway) (.error openTimeout))]
        refine hevicts i gateway openTimeout ?_ ?_ (.inl stalled_openTimeout) [] _ rfl
        · simp [hopening]
        · simp
    · cases hmoves with
      | openFails hstage =>
        obtain rfl := Stage.opening.inj (hopening.symm.trans hstage)
        rw [← Clients.put_cache s i
          (.returned (some gateway) (.error (.context "open_bi failed".toList cause)))]
        refine hevicts i gateway (.context "open_bi failed".toList cause) ?_ ?_ ?_ [] _ rfl
        · simp [hopening]
        · simp
        · rcases hlost with hlost | hstalled
          · exact .inr ⟨cause, rfl, hlost⟩
          · exact .inl hstalled
  · intro hunstuck i gateway e hmoved ht herror later u hlater
    rcases hmoves.returned hmoved ht with ⟨hfailing, rfl, hcache⟩ | ⟨hopening, hcache, hopen⟩
    · have hstalled := herror.resolve_right (by rintro ⟨cause, haction, -⟩; cases haction)
      have hlanded := (hsound.used i gateway (by rw [hfailing]; rfl)).moves hmoves
      refine hlanded.never_cached ?_ hlater
      rw [hcache]
      exact hsound.gone i gateway e hfailing hstalled
    · have hlanded := (hsound.used i gateway (by rw [hopening]; rfl)).moves hmoves
      refine hlanded.never_cached ?_ hlater
      rw [hcache]
      apply hunstuck i gateway hopening
      rcases hopen with ⟨haction, -⟩ | ⟨cause, rfl, rfl⟩
      · exact .inl haction
      · refine .inr ⟨cause, rfl, ?_⟩
        rcases herror with hstalled | ⟨cause', haction, hlost⟩
        · exact .inr hstalled
        · obtain ⟨-, rfl⟩ := Action.openFails.inj haction
          exact .inl hlost

/-- On a run, every task that has returned a lost connection or a timeout of the handshake has
evicted its connection, and for good, exactly if no stream has failed to be opened while the
cache held the connection. -/
theorem run_evicts_iff (lost : Anyhow → Prop) {actions : List Action} {s : Clients}
    (hrun : History.run (step debug copy serviceId) .start actions = some s) :
    (∀ before action after m t, actions = before ++ action :: after →
      History.run (step debug copy serviceId) .start before = some m →
      step debug copy serviceId action m = some t → Evicts debug copy serviceId lost m action t) ↔
      History.Meets (step debug copy serviceId)
        (fun action m => Unstuck lost m action) .start actions := by
  rw [History.meets_iff]
  constructor
  · intro hevicts before action after m hactions hbefore
    rw [hactions] at hrun
    obtain ⟨m', hm', hafter⟩ := History.run_append_eq_some.mp hrun
    obtain rfl := Option.some.inj (hbefore.symm.trans hm')
    obtain ⟨t, hstep, -⟩ := History.run_cons.mp hafter
    exact (evicts_iff lost hbefore hstep).mp
      (hevicts before action after m t hactions hbefore hstep)
  · intro hmeets before action after m t hactions hbefore hstep
    exact (evicts_iff lost hbefore hstep).mpr (hmeets before action after m hactions hbefore)

end

/-- The gateway has no capacity for another stream, and stays in the cache. -/
theorem not_evicts_openTimeout : ∃ s t,
    History.run (step quoted copyAll "web".toList) .start [.looks 0, .dials 0, .lands 0] = some s ∧
    step quoted copyAll "web".toList (.openTimesOut 0) s = some t ∧
    ¬ Evicts quoted copyAll "web".toList (fun _ => False) s (.openTimesOut 0) t := by
  refine ⟨_, _, rfl, rfl, fun hevicts => ?_⟩
  exact hevicts 0 0 openTimeout nofun rfl (.inl (by decide)) [] _ rfl rfl

/-- The gateway does not answer in time. -/
theorem run_evicts_silent :
    let silent : Wire := ⟨⟨[], .silent⟩, ⟨[], .silent⟩, [], []⟩
    let actions : List Action :=
      [.looks 0, .dials 0, .lands 0, .opens 0, .drives 0 ⟨[], .silent⟩ silent,
        .evicts 0, .returns 0]
    ∃ s, History.run (step quoted copyAll "web".toList) .start actions = some s ∧ s.cache = none ∧
      ∀ before action after m t, actions = before ++ action :: after →
        History.run (step quoted copyAll "web".toList) .start before = some m →
        step quoted copyAll "web".toList action m = some t →
        Evicts quoted copyAll "web".toList (fun _ => True) m action t := by
  intro silent actions
  refine ⟨_, rfl, rfl, (run_evicts_iff (fun _ => True)
    (show History.run (step quoted copyAll "web".toList) .start actions = _ from rfl)).mpr ?_⟩
  rw [History.meets_iff]
  rintro before action after m hactions - i gateway - hopen
  have hmem : action ∈ actions := by
    rw [hactions]
    exact List.mem_append_right _ List.mem_cons_self
  rcases hopen with rfl | ⟨cause, rfl, -⟩ <;> simp [actions] at hmem

end IrohExperiment.Gateway
