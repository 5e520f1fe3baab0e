/-
# The observed path of an echo (`cloudflare-h3-observer/src/bin/nat-peer.rs`)

The transfer of `nat-peer.rs` under the eyes of a check: the paths of the connection before
and after it, and the events in between, which are looked at before the transfer is polled.
The transport, which brings events and lets the transfer go on, does so in any order.

`Watch` is the state of `echo_on_observed_path`.  The main result is
`echoOnObservedPath_spec`: it returns what the transfer returns exactly if everything that
was seen until then conforms, and else the error of the first thing that does not.
-/
import IrohExperiment.History.Run
import IrohExperiment.Rust.Net
import IrohExperiment.Rust.Text

namespace IrohExperiment.Observer

open Rust History

/-! ## Paths and events -/

/-- `TransportAddr`: an IP address, or something else. -/
inductive TransportAddr where
  | ip (addr : SocketAddr)
  | relay
  | other
  deriving DecidableEq, Repr

/-- One path of a connection. -/
structure PathInfo where
  remoteAddr : TransportAddr
  isSelected : Bool
  isRelay : Bool
  deriving DecidableEq, Repr

/-- `PathEvent`; there may be kinds of events that this program does not know. -/
inductive PathEvent where
  | opened (remoteAddr : TransportAddr)
  | selected (remoteAddr : TransportAddr)
  | closed (remoteAddr : TransportAddr)
  | lagged
  | other
  deriving DecidableEq, Repr

/-- Why the observed path is not proved. -/
inductive PathError where
  /-- `non-IP path observed` -/
  | nonIp
  /-- `unobserved peer address: {actual}` -/
  | unobserved (actual : SocketAddr)
  /-- `no selected direct path` -/
  | noSelectedDirect
  /-- `path event history lost; result cannot prove the observed path` -/
  | historyLost
  /-- `unrecognized path event` -/
  | unrecognized
  /-- The transfer fails. -/
  | echo (cause : Text)
  deriving DecidableEq, Repr

/-! ## Checks -/

/-- `SocketAddr::new(addr.ip().to_canonical(), addr.port())` -/
def canonical (addr : SocketAddr) : SocketAddr := .new addr.ip.toCanonical addr.port

/-- `check_addr` -/
def checkAddr (addr : TransportAddr) (expected : SocketAddr) : Except PathError Unit :=
  match addr with
  | .ip actual =>
      if canonical actual = canonical expected then .ok () else .error (.unobserved actual)
  | _ => .error .nonIp

/-- `for path in paths.iter() { check_addr(path.remote_addr(), expected)?; }` -/
def checkPaths (paths : List PathInfo) (expected : SocketAddr) : Except PathError Unit :=
  match paths with
  | [] => .ok ()
  | path :: paths =>
    match checkAddr path.remoteAddr expected with
    | .ok () => checkPaths paths expected
    | .error e => .error e

/-- `check_direct` -/
def checkDirect (paths : List PathInfo) (expected : SocketAddr) : Except PathError Unit :=
  match checkPaths paths expected with
  | .error e => .error e
  | .ok () =>
      if paths.any fun p => p.isSelected && !p.isRelay then .ok () else .error .noSelectedDirect

/-- `check_event` -/
def checkEvent (event : PathEvent) (expected : SocketAddr) : Except PathError Unit :=
  match event with
  | .opened remoteAddr | .selected remoteAddr | .closed remoteAddr => checkAddr remoteAddr expected
  | .lagged => .error .historyLost
  | .other => .error .unrecognized

/-! ## The loop -/

/-- The loop runs, or the function has returned. -/
inductive Progress where
  | running
  | returned (result : Except PathError Unit)
  deriving DecidableEq, Repr

/-- The state of `echo_on_observed_path`: the events that wait in the stream, whether the
stream ends behind them, and `events_ended`. -/
structure Watch where
  queue : List PathEvent
  ending : Bool
  eventsEnded : Bool
  progress : Progress
  deriving DecidableEq, Repr

/-- What can happen: an event is queued, the stream of events ends, and the loop is polled,
where the transfer, if it is polled then, is pending or finishes. -/
inductive Happening where
  | queued (event : PathEvent)
  | streamEnds
  | poll (transfer : Option (Except Text Unit))
  deriving DecidableEq, Repr

namespace Watch

/-- `check_direct(conn, expected_addr)?;`, and then the loop -/
def start (initial : List PathInfo) (expected : SocketAddr) : Watch :=
  match checkDirect initial expected with
  | .ok () => ⟨[], false, false, .running⟩
  | .error e => ⟨[], false, false, .returned (.error e)⟩

/-- The branch of the transfer; when this is done, the paths that are left are checked. -/
def pollTransfer (c : Watch) (final : List PathInfo) (expected : SocketAddr)
    (transfer : Option (Except Text Unit)) : Watch :=
  match transfer with
  | none => c
  | some (.error cause) => { c with progress := .returned (.error (.echo cause)) }
  | some (.ok ()) => { c with progress := .returned (checkPaths final expected) }

/-- One poll of the `biased` selection: the events come first. -/
def poll (c : Watch) (final : List PathInfo) (expected : SocketAddr)
    (transfer : Option (Except Text Unit)) : Watch :=
  if c.eventsEnded then c.pollTransfer final expected transfer
  else
    match c.queue with
    | event :: queue =>
      match checkEvent event expected with
      | .ok () => { c with queue := queue }
      | .error e => { c with queue := queue, progress := .returned (.error e) }
    | [] =>
        if c.ending then { c with eventsEnded := true } else c.pollTransfer final expected transfer

/-- One step; nothing happens any more when the function has returned. -/
def step (final : List PathInfo) (expected : SocketAddr) (happening : Happening) (c : Watch) :
    Option Watch :=
  if c.progress ≠ .running then none
  else
    match happening with
    | .queued event => if c.ending then none else some { c with queue := c.queue ++ [event] }
    | .streamEnds => some { c with ending := true }
    | .poll transfer => some (c.poll final expected transfer)

end Watch

/-- `echo_on_observed_path` -/
def echoOnObservedPath (initial final : List PathInfo) (expected : SocketAddr)
    (trace : List Happening) :
    Option Watch :=
  run (Watch.step final expected) (Watch.start initial expected) trace

/-- The events that have been queued. -/
def queuedEvents (trace : List Happening) : List PathEvent :=
  trace.filterMap fun happening =>
    match happening with
    | .queued event => some event
    | _ => none

/-- How often the loop has been polled. -/
def polls (trace : List Happening) : ℕ :=
  trace.countP fun happening =>
    match happening with
    | .poll _ => true
    | _ => false

/-! ## One step -/

namespace Watch

variable {c c' : Watch} {final : List PathInfo} {expected : SocketAddr}

/-- What a step can be. -/
theorem step_cases {happening : Happening} (hstep : c.step final expected happening = some c') :
    c.progress = .running ∧
    ((∃ event, happening = .queued event ∧ c.ending = false ∧
      c' = { c with queue := c.queue ++ [event] }) ∨
      (happening = .streamEnds ∧ c' = { c with ending := true }) ∨
      ∃ transfer, happening = .poll transfer ∧ c' = c.poll final expected transfer) := by
  unfold step at hstep
  split at hstep
  · cases hstep
  · rename_i hrunning
    refine ⟨not_not.mp hrunning, ?_⟩
    cases happening with
    | queued event =>
      simp only at hstep
      split_ifs at hstep with hending
      exact .inl ⟨event, rfl, Bool.eq_false_of_not_eq_true hending, (Option.some.inj hstep).symm⟩
    | streamEnds => exact .inr (.inl ⟨rfl, (Option.some.inj hstep).symm⟩)
    | poll transfer => exact .inr (.inr ⟨transfer, rfl, (Option.some.inj hstep).symm⟩)

/-- A function that has returned takes no step. -/
theorem step_of_returned {result : Except PathError Unit} (h : c.progress = .returned result)
    (happening : Happening) : c.step final expected happening = none := by
  unfold step
  rw [h]
  rfl

theorem poll_of_ended (h : c.eventsEnded = true) (transfer : Option (Except Text Unit)) :
    c.poll final expected transfer = c.pollTransfer final expected transfer := by
  rw [poll, if_pos h]

/-- A queued event is taken before the transfer is polled. -/
theorem poll_of_event (h : c.eventsEnded = false) {event : PathEvent} {queue : List PathEvent}
    (hqueue : c.queue = event :: queue) (transfer : Option (Except Text Unit)) :
    c.poll final expected transfer =
      match checkEvent event expected with
      | .ok () => { c with queue := queue }
      | .error e => { c with queue := queue, progress := .returned (.error e) } := by
  rw [poll, if_neg (by simp [h]), hqueue]

theorem poll_of_empty (h : c.eventsEnded = false) (hqueue : c.queue = [])
    (transfer : Option (Except Text Unit)) :
    c.poll final expected transfer =
      if c.ending then { c with eventsEnded := true }
        else c.pollTransfer final expected transfer := by
  rw [poll, if_neg (by simp [h]), hqueue]

end Watch

/-! ## What the checks say -/

/-- The address is an IP address, the canonical one of the expected peer. -/
def Matches (expected : SocketAddr) (addr : TransportAddr) : Prop :=
  ∃ actual, addr = .ip actual ∧ actual.ip.toCanonical = expected.ip.toCanonical ∧
    actual.port = expected.port

/-- The event is about a path to the expected peer. -/
def Conforms (expected : SocketAddr) (event : PathEvent) : Prop :=
  ∃ addr, (event = .opened addr ∨ event = .selected addr ∨ event = .closed addr) ∧
    Matches expected addr

variable {initial final paths : List PathInfo} {expected : SocketAddr}

theorem canonical_eq_iff {a b : SocketAddr} :
    canonical a = canonical b ↔ a.ip.toCanonical = b.ip.toCanonical ∧ a.port = b.port := by
  unfold canonical
  constructor
  · intro h
    have hip := congrArg SocketAddr.ip h
    have hport := congrArg SocketAddr.port h
    rw [SocketAddr.new_ip, SocketAddr.new_ip] at hip
    rw [SocketAddr.new_port, SocketAddr.new_port] at hport
    exact ⟨hip, hport⟩
  · rintro ⟨hip, hport⟩
    rw [hip, hport]

theorem checkAddr_iff {addr : TransportAddr} : checkAddr addr expected = .ok () ↔
    Matches expected addr := by
  cases addr with
  | ip actual =>
    unfold checkAddr Matches
    simp only
    split_ifs with hsame
    · exact iff_of_true rfl ⟨actual, rfl, canonical_eq_iff.mp hsame⟩
    · refine iff_of_false (by simp) ?_
      rintro ⟨found, heq, hmatches⟩
      obtain rfl := TransportAddr.ip.inj heq
      exact hsame (canonical_eq_iff.mpr hmatches)
  | relay => exact iff_of_false (by simp [checkAddr]) (by rintro ⟨_, heq, -⟩; cases heq)
  | other => exact iff_of_false (by simp [checkAddr]) (by rintro ⟨_, heq, -⟩; cases heq)

theorem checkPaths_iff :
    checkPaths paths expected = .ok () ↔ ∀ p ∈ paths, Matches expected p.remoteAddr := by
  induction paths with
  | nil => exact iff_of_true rfl fun p hp => by cases hp
  | cons path paths ih =>
    rw [List.forall_mem_cons, ← checkAddr_iff, ← ih, checkPaths]
    cases checkAddr path.remoteAddr expected with
    | ok u => exact (and_iff_right rfl).symm
    | error e => exact iff_of_false (by simp) (by simp)

theorem checkDirect_iff :
    checkDirect paths expected = .ok () ↔
      (∀ p ∈ paths, Matches expected p.remoteAddr) ∧ ∃ p ∈ paths, p.isSelected = true ∧
        p.isRelay = false := by
  rw [← checkPaths_iff, checkDirect]
  cases checkPaths paths expected with
  | error e => exact iff_of_false (by simp) (by simp)
  | ok u =>
    simp only
    split_ifs with hany
    · exact iff_of_true rfl ⟨trivial, by simpa using hany⟩
    · refine iff_of_false (by simp) ?_
      rintro ⟨-, hsome⟩
      exact hany (by simpa using hsome)

theorem checkEvent_iff {event : PathEvent} : checkEvent event expected = .ok () ↔
    Conforms expected event := by
  cases event with
  | opened addr => simp [checkEvent, Conforms, checkAddr_iff]
  | selected addr => simp [checkEvent, Conforms, checkAddr_iff]
  | closed addr => simp [checkEvent, Conforms, checkAddr_iff]
  | lagged => simp [checkEvent, Conforms]
  | other => simp [checkEvent, Conforms]

/-! ## What the loop keeps -/

/-- The events up to some that are left were about the expected peer. -/
def Checked (expected : SocketAddr) (events left : List PathEvent) : Prop :=
  ∃ checked, events = checked ++ left ∧ ∀ event ∈ checked, Conforms expected event

/-- The first event that is not about the expected peer gives the error. -/
def FirstViolation (expected : SocketAddr) (events : List PathEvent) (error : PathError) : Prop :=
  ∃ before event after, events = before ++ event :: after ∧ (∀ e ∈ before, Conforms expected e) ∧
    checkEvent event expected = .error error

/-- What a state of the loop says about the events that have been queued. -/
def Followed (final : List PathInfo) (expected : SocketAddr) (events : List PathEvent)
    (c : Watch) : Prop :=
  match c.progress with
  | .running =>
      Checked expected events c.queue ∧ (c.eventsEnded = true → c.queue = [] ∧ c.ending = true)
  | .returned (.ok ()) =>
    (∀ event ∈ events, Conforms expected event) ∧ ∀ p ∈ final, Matches expected p.remoteAddr
  | .returned (.error error) =>
    FirstViolation expected events error ∨ ∀ event ∈ events, Conforms expected event

variable {c c' : Watch} {events : List PathEvent}

theorem followed_running (hrunning : c.progress = .running) :
    Followed final expected events c ↔
      Checked expected events c.queue ∧
        (c.eventsEnded = true → c.queue = [] ∧ c.ending = true) := by
  unfold Followed
  rw [hrunning]

/-- When all events have been checked, the transfer may go on or end the loop. -/
theorem followed_pollTransfer (hrunning : c.progress = .running)
    (h : Followed final expected events c) (hnone : c.queue = [])
    (transfer : Option (Except Text Unit)) :
    Followed final expected events (c.pollTransfer final expected transfer) := by
  have hall : ∀ event ∈ events, Conforms expected event := by
    obtain ⟨⟨checked, hevents, hchecked⟩, -⟩ := (followed_running hrunning).mp h
    rw [hnone, List.append_nil] at hevents
    rwa [hevents]
  match transfer with
  | none => exact h
  | some (.error cause) => exact .inr hall
  | some (.ok ()) =>
    unfold Watch.pollTransfer Followed
    simp only
    cases hfinal : checkPaths final expected with
    | ok u => exact ⟨hall, checkPaths_iff.mp hfinal⟩
    | error e => exact .inr hall

/-- What is kept when the loop is polled. -/
theorem followed_poll (hrunning : c.progress = .running) (h : Followed final expected events c)
    (transfer : Option (Except Text Unit)) :
    Followed final expected events (c.poll final expected transfer) := by
  obtain ⟨⟨checked, hevents, hchecked⟩, hended⟩ := (followed_running hrunning).mp h
  cases hevents_ended : c.eventsEnded with
  | true =>
    rw [Watch.poll_of_ended hevents_ended]
    exact followed_pollTransfer hrunning h (hended hevents_ended).1 transfer
  | false =>
    cases hqueue : c.queue with
    | nil =>
      rw [Watch.poll_of_empty hevents_ended hqueue]
      split_ifs with hending
      · exact (followed_running (c := { c with eventsEnded := true }) hrunning).mpr
          ⟨⟨checked, hevents, hchecked⟩, fun _ => ⟨hqueue, hending⟩⟩
      · exact followed_pollTransfer hrunning h hqueue transfer
    | cons event queue =>
      rw [hqueue] at hevents
      rw [Watch.poll_of_event hevents_ended hqueue]
      cases hevent : checkEvent event expected with
      | ok u =>
        refine (followed_running (c := { c with queue := queue }) hrunning).mpr
          ⟨⟨checked ++ [event], by simp [hevents], ?_⟩, ?_⟩
        · intro e he
          rcases List.mem_append.mp he with he | he
          · exact hchecked e he
          · rw [List.mem_singleton.mp he]
            exact checkEvent_iff.mp hevent
        · intro hend
          change c.eventsEnded = true at hend
          rw [hevents_ended] at hend
          cases hend
      | error error => exact .inl ⟨checked, event, queue, hevents, hchecked, hevent⟩

/-- What is kept in one step. -/
theorem followed_step (h : Followed final expected events c) {happening : Happening}
    (hstep : c.step final expected happening = some c') :
    Followed final expected (events ++ queuedEvents [happening]) c' := by
  obtain ⟨hrunning, hcases⟩ := Watch.step_cases hstep
  obtain ⟨⟨checked, hevents, hchecked⟩, hended⟩ := (followed_running hrunning).mp h
  rcases hcases with ⟨event, rfl, hending, rfl⟩ | ⟨rfl, rfl⟩ | ⟨transfer, rfl, rfl⟩
  · refine (followed_running (c := { c with queue := c.queue ++ [event] }) hrunning).mpr
      ⟨⟨checked, ?_, hchecked⟩, ?_⟩
    · show events ++ [event] = checked ++ (c.queue ++ [event])
      rw [hevents, List.append_assoc]
    · intro hend
      rw [(hended hend).2] at hending
      cases hending
  · refine (followed_running (c := { c with ending := true }) hrunning).mpr
      ⟨⟨checked, ?_, hchecked⟩, fun hend => ⟨(hended hend).1, rfl⟩⟩
    show events ++ [] = checked ++ c.queue
    rw [hevents, List.append_nil]
  · show Followed final expected (events ++ []) _
    rw [List.append_nil]
    exact followed_poll hrunning h transfer

/-- If the first snapshot is refused, nothing follows. -/
theorem run_of_refused {error : PathError} (hinitial : checkDirect initial expected = .error error)
    {trace : List Happening} (hrun : echoOnObservedPath initial final expected trace = some c) :
    trace = [] ∧ c.progress = .returned (.error error) := by
  have hstart : (Watch.start initial expected).progress = .returned (.error error) := by
    simp only [Watch.start, hinitial]
  cases trace with
  | nil =>
    obtain rfl := Option.some.inj hrun
    exact ⟨rfl, hstart⟩
  | cons happening trace =>
    obtain ⟨m, hstep, -⟩ := run_cons.mp hrun
    rw [Watch.step_of_returned hstart] at hstep
    cases hstep

/-- What is kept in a run. -/
theorem followed_run (hinitial : checkDirect initial expected = .ok ()) {trace : List Happening}
    (hrun : echoOnObservedPath initial final expected trace = some c) :
    Followed final expected (queuedEvents trace) c := by
  refine run_induct (P := fun trace c => Followed final expected (queuedEvents trace) c) ?_ ?_ hrun
  · simp only [Watch.start, hinitial]
    exact ⟨⟨[], rfl, fun e he => by cases he⟩, fun hend => by cases hend⟩
  · intro trace c happening c' _ h hstep
    have happend : queuedEvents (trace ++ [happening]) = queuedEvents trace ++
        queuedEvents [happening] :=
      List.filterMap_append
    rw [happend]
    exact followed_step h hstep

/-! ## The first violation -/

/-- There is one first violation. -/
theorem FirstViolation.unique {error error' : PathError} (h : FirstViolation expected events error)
    (h' : FirstViolation expected events error') : error = error' := by
  obtain ⟨before, event, after, rfl, hbefore, hevent⟩ := h
  obtain ⟨before', event', after', heq, hbefore', hevent'⟩ := h'
  have hnot : ¬ Conforms expected event := by
    rw [← checkEvent_iff, hevent]
    simp
  have hnot' : ¬ Conforms expected event' := by
    rw [← checkEvent_iff, hevent']
    simp
  rcases List.append_eq_append_iff.mp heq with ⟨rest, rfl, hrest⟩ | ⟨rest, rfl, hrest⟩
  · cases rest with
    | nil =>
      obtain ⟨rfl, -⟩ := List.cons.inj hrest
      exact Except.error.inj (hevent.symm.trans hevent')
    | cons e rest =>
      obtain ⟨rfl, -⟩ := List.cons.inj hrest
      exact absurd (hbefore' event (by simp)) hnot
  · cases rest with
    | nil =>
      obtain ⟨rfl, -⟩ := List.cons.inj hrest
      exact Except.error.inj (hevent.symm.trans hevent')
    | cons e rest =>
      obtain ⟨rfl, -⟩ := List.cons.inj hrest
      exact absurd (hbefore event' (by simp)) hnot'

theorem FirstViolation.not_conforms {error : PathError} (h : FirstViolation expected events error) :
    ¬ ∀ event ∈ events, Conforms expected event := by
  obtain ⟨before, event, after, rfl, -, hevent⟩ := h
  intro hall
  have hconforms := hall event (by simp)
  rw [← checkEvent_iff, hevent] at hconforms
  cases hconforms

/-- Before the first violation in the queue there are so many events. -/
def Ahead (expected : SocketAddr) (c : Watch) (n : ℕ) (error : PathError) : Prop :=
  ∃ before event after, c.queue = before ++ event :: after ∧ before.length = n ∧
    (∀ e ∈ before, Conforms expected e) ∧ checkEvent event expected = .error error

/-- The first violation is still in the queue of a loop that runs. -/
theorem ahead_of_running {error : PathError} (h : Followed final expected events c)
    (hrunning : c.progress = .running) (hfirst : FirstViolation expected events error) :
    ∃ n, n ≤ events.length ∧ Ahead expected c n error := by
  obtain ⟨before, event, after, hevents, hbefore, hevent⟩ := hfirst
  unfold Followed at h
  rw [hrunning] at h
  obtain ⟨⟨checked, hsplit, hchecked⟩, -⟩ := h
  have hnot : ¬ Conforms expected event := by
    rw [← checkEvent_iff, hevent]
    simp
  have hboth := hsplit.symm.trans hevents
  have hlen : events.length = before.length + (after.length + 1) := by
    rw [hevents, List.length_append, List.length_cons]
  rcases List.append_eq_append_iff.mp hboth with ⟨rest, hrest, hqueue⟩ | ⟨rest, hrest, hqueue⟩
  · refine ⟨rest.length, ?_, rest, event, after, hqueue, rfl, ?_, hevent⟩
    · rw [hlen, hrest, List.length_append]
      omega
    · intro e he
      exact hbefore e (by rw [hrest]; exact List.mem_append_right _ he)
  · cases rest with
    | nil =>
      refine ⟨0, Nat.zero_le _, [], event, after, hqueue.symm, rfl, ?_, hevent⟩
      exact fun e he => by cases he
    | cons e rest =>
      obtain ⟨rfl, -⟩ := List.cons.inj hqueue
      exact absurd (hchecked event (by rw [hrest]; simp)) hnot

/-- As long as the violation is in the queue, every poll takes one event, whatever the
transfer would do. -/
theorem ahead_run {n : ℕ} {error : PathError} (hrunning : c.progress = .running)
    (hahead : Ahead expected c n error) (hopen : c.eventsEnded = false) {later : List Happening}
    (hrun : run (Watch.step final expected) c later = some c') :
    c'.progress = if polls later ≤ n then .running else .returned (.error error) := by
  induction later generalizing c n with
  | nil =>
    obtain rfl := Option.some.inj hrun
    rw [hrunning]
    exact (if_pos (Nat.zero_le n)).symm
  | cons happening later ih =>
    obtain ⟨m, hstep, hrest⟩ := run_cons.mp hrun
    obtain ⟨before, event, after, hqueue, hlen, hbefore, hevent⟩ := hahead
    rcases (Watch.step_cases hstep).2 with ⟨e, rfl, -, rfl⟩ | ⟨rfl, rfl⟩ | ⟨transfer, rfl, rfl⟩
    · have hpolls : polls (.queued e :: later) = polls later := rfl
      rw [hpolls]
      have hqueue' : c.queue ++ [e] = before ++ event :: (after ++ [e]) := by simp [hqueue]
      exact ih (c := { c with queue := c.queue ++ [e] }) hrunning
        ⟨before, event, after ++ [e], hqueue', hlen, hbefore, hevent⟩ hopen hrest
    · have hpolls : polls (.streamEnds :: later) = polls later := rfl
      rw [hpolls]
      exact ih (c := { c with ending := true }) hrunning
        ⟨before, event, after, hqueue, hlen, hbefore, hevent⟩ hopen hrest
    · have hpolls : polls (.poll transfer :: later) = polls later + 1 := List.countP_cons_of_pos rfl
      rw [hpolls]
      cases before with
      | nil =>
        -- the violation is found, and the function returns
        rw [Watch.poll_of_event hopen hqueue, hevent] at hrest
        have hlater : later = [] ∧ c'.progress = .returned (.error error) := by
          cases later with
          | nil =>
            obtain rfl := Option.some.inj hrest
            exact ⟨rfl, rfl⟩
          | cons next later =>
            obtain ⟨m, hnext, -⟩ := run_cons.mp hrest
            rw [Watch.step_of_returned rfl] at hnext
            cases hnext
        rw [hlater.2, if_neg (by rw [← hlen]; simp)]
      | cons e before =>
        have hconforms := checkEvent_iff.mpr (hbefore e List.mem_cons_self)
        rw [Watch.poll_of_event hopen hqueue, hconforms] at hrest
        rw [List.length_cons] at hlen
        have hrec := ih (c := { c with queue := before ++ event :: after })
          (n := before.length) hrunning
          ⟨before, event, after, rfl, rfl, fun e he => hbefore e (List.mem_cons_of_mem _ he),
            hevent⟩ hopen hrest
        rw [hrec, ← hlen]
        simp only [Nat.add_le_add_iff_right]

/-! ## The specification -/

/-- **The observed path**: the function returns `Ok` only after a first snapshot with a selected
path that is no relay, if all paths of both snapshots and all events queued before the poll
that ended the transfer were about the expected peer.  Once another event has been queued
the first such event is what it returns, after so many polls more at most, whatever the
transfer does. -/
theorem echoOnObservedPath_spec {initial final : List PathInfo} {expected : SocketAddr}
    {trace : List Happening} {c : Watch}
    (hrun : echoOnObservedPath initial final expected trace = some c) :
    (c.progress = .returned (.ok ()) →
      (∃ p ∈ initial, p.isSelected = true ∧ p.isRelay = false) ∧
      (∀ p ∈ initial ++ final, Matches expected p.remoteAddr) ∧
      ∀ event ∈ queuedEvents trace, Conforms expected event) ∧
    ∀ error, FirstViolation expected (queuedEvents trace) error →
      (∀ result, c.progress = .returned result → result = .error error) ∧
      (c.progress = .running → ∃ n, n ≤ (queuedEvents trace).length ∧
        ∀ later c', run (Watch.step final expected) c later = some c' →
          c'.progress = if polls later ≤ n then .running else .returned (.error error)) := by
  cases hinitial : checkDirect initial expected with
  | error refused =>
    obtain ⟨rfl, hreturned⟩ := run_of_refused hinitial hrun
    refine ⟨fun hok => ?_, fun error hfirst => ?_⟩
    · rw [hreturned] at hok
      cases hok
    · exact absurd (fun event hevent => by cases hevent) hfirst.not_conforms
  | ok u =>
    obtain ⟨hpaths, hselected⟩ := checkDirect_iff.mp hinitial
    have hfollowed := followed_run hinitial hrun
    refine ⟨fun hok => ?_, fun error hfirst => ⟨fun result hresult => ?_, fun hrunning => ?_⟩⟩
    · unfold Followed at hfollowed
      rw [hok] at hfollowed
      refine ⟨hselected, ?_, hfollowed.1⟩
      intro p hp
      exact (List.mem_append.mp hp).elim (hpaths p) (hfollowed.2 p)
    · unfold Followed at hfollowed
      rw [hresult] at hfollowed
      match result, hfollowed with
      | .ok (), ⟨hall, _⟩ => exact absurd hall hfirst.not_conforms
      | .error found, .inl hfound => rw [hfound.unique hfirst]
      | .error found, .inr hall => exact absurd hall hfirst.not_conforms
    · obtain ⟨n, hle, hahead⟩ := ahead_of_running hfollowed hrunning hfirst
      have hopen : c.eventsEnded = false := by
        unfold Followed at hfollowed
        rw [hrunning] at hfollowed
        by_contra hend
        obtain ⟨before, event, after, hqueue, -⟩ := hahead
        rw [(hfollowed.2 (Bool.eq_true_of_not_eq_false hend)).1] at hqueue
        cases before <;> cases hqueue
      exact ⟨n, hle, fun later c' hlater => ahead_run hrunning hahead hopen hlater⟩

/-- A peer at 10.0.0.1:7. -/
def samplePeer : SocketAddr := .v4 ⟨0x0a000001⟩ 7

/-- Its path is selected, an event about the mapped address is queued, and then one about
another port, with which the transfer would end. -/
def sampleTrace : List Happening :=
  [.queued (.opened (.ip (.v6 ⟨List.replicate 10 0 ++ [0xff, 0xff, 10, 0, 0, 1], rfl⟩ 7 0 0))),
    .poll none, .queued (.selected (.ip (.v4 ⟨0x0a000001⟩ 8))), .poll (some (.ok ()))]

/-- The event about another port is what the function returns. -/
theorem echoOnObservedPath_other_port :
    ∃ c, echoOnObservedPath [⟨.ip samplePeer, true, false⟩] [] samplePeer sampleTrace = some c ∧
      ∀ result, c.progress = .returned result →
        result = .error (.unobserved (.v4 ⟨0x0a000001⟩ 8)) := by
  have hsome : (echoOnObservedPath [⟨.ip samplePeer, true, false⟩] [] samplePeer
      sampleTrace).isSome = true := by
    decide
  obtain ⟨c, hrun⟩ := Option.isSome_iff_exists.mp hsome
  refine ⟨c, hrun, ((echoOnObservedPath_spec hrun).2 _ ⟨[_], _, [], rfl, ?_, by decide⟩).1⟩
  intro e he
  rw [List.mem_singleton.mp he]
  exact checkEvent_iff.mp (by decide)

end IrohExperiment.Observer
