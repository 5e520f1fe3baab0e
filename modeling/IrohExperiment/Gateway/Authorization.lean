/-
# The gateway and its connections (`tcp-tunnel/src/bin/gateway.rs`)

The gateway as a whole: what it checks when it starts, every connection that it accepts or
rejects, and every stream of each.  Whoever connects and whatever is sent, a LAN target is only
dialed for an endpoint that the rules let use its service.

`startUp` are the checks of `main`, `Process.step` is `run` with the tasks that it spawns,
`Process.handleConnection` and `rejectStream` are what becomes of one connection.  The main
result is `gateway_authorizes`, about every run from a start that has passed its checks.
-/
import IrohExperiment.Gateway.Scope
import IrohExperiment.Gateway.Tunnel
import IrohExperiment.History.Run

namespace IrohExperiment.Gateway

open Rust

-- `ι` is `EndpointId`
variable {ι : Type}

/-! ## The start of the gateway -/

/-- Why the gateway does not start. -/
inductive StartError where
  | spec (error : SpecError)
  /-- `at least one --service is required` -/
  | noService
  /-- `invalid EndpointId in {raw:?}` -/
  | rule (raw : Text)
  /-- `--allow-endpoint rule references unknown service {name:?}` -/
  | unknownService (name : Text)
  deriving DecidableEq, Repr

/-- An error of a part, as an error of the start. -/
def startError {ε α : Type} (f : ε → StartError) : Exec ε α → Exec StartError α
  | .ok a => .ok a
  | .err e => .err (f e)
  | .panic cause => .panic cause

theorem startError_eq_ok {ε α : Type} {f : ε → StartError} {x : Exec ε α} {a : α} :
    startError f x = .ok a ↔ x = .ok a := by
  cases x <;> simp [startError]

/-- The rules name services that are configured. -/
def checkRules (services : ServiceMap) : List (AllowRule ι) → Exec StartError Unit
  | [] => return ()
  | rule :: rules => do
    match rule.service with
    | some name => ensure ((services.get name).isSome = true) (.unknownService name)
    | none => pure ()
    checkRules services rules

/-- What `main` makes of the command line. -/
def startUp (parseId : Text → Option ι) (specs rules : List Text) :
    Exec StartError (ServiceMap × List (AllowRule ι)) := do
  let services ← startError .spec (fromSpecs specs)
  ensure (services.isEmpty = false) .noService
  let allow ← rules.mapM fun raw => startError .rule (parseAllowRule parseId raw)
  checkRules services allow
  return (services, allow)

/-! ## The gateway -/

/-- Where a connection stands. -/
inductive ConnectionStage (ι : Type) where
  | absent
  /-- before the handshake is through -/
  | connecting
  /-- authorized for the services of a scope -/
  | serving (remote : ι) (scope : ServiceMap)
  /-- unauthorized, before its first stream is answered -/
  | rejecting (remote : ι)
  | closed
  deriving DecidableEq, Repr

/-- A stream that has been dealt with: whose it was, how it came, and what was done on it. -/
structure Handled (ι : Type) where
  remote : ι
  arrived : Wire
  log : List Event
  deriving DecidableEq, Repr

/-- The connections of the gateway, and all the streams so far. -/
structure Process (ι : Type) where
  connections : ℕ → ConnectionStage ι
  handled : List (Handled ι)

/-- What can happen. -/
inductive GatewayEvent (ι : Type) where
  | incoming (i : ℕ)
  /-- the handshake fails or times out -/
  | refused (i : ℕ)
  | connected (i : ℕ) (remote : ι)
  /-- a stream on an authorized connection, and how dials fare -/
  | stream (i : ℕ) (wire : Wire) (dial : Text → Dial)
  /-- the first stream on an unauthorized connection -/
  | rejects (i : ℕ) (wire : Wire)
  /-- the connection closes, or there is no stream in time -/
  | closes (i : ℕ)

/-- The answer to an unauthorized endpoint: `true` where the connection is closed instead. -/
def rejectStream : Task Wire Anyhow Bool := do
  match ← Task.timeout (readEarly readRequest) with
  | some (.ok _) =>
    let _ ← Task.attempt (sendTerminalStatus .unauthorized)
    return false
  | _ => return true

namespace Process

def start : Process ι := ⟨fun _ => .absent, []⟩

def put (s : Process ι) (i : ℕ) (stage : ConnectionStage ι) : Process ι :=
  { s with connections := Function.update s.connections i stage }

@[simp] theorem put_connections (s : Process ι) (i j : ℕ) (stage : ConnectionStage ι) :
    (s.put i stage).connections j = if j = i then stage else s.connections j :=
  Function.update_apply ..

variable [DecidableEq ι]

/-- `handle_connection` -/
def handleConnection (allow : List (AllowRule ι)) (services : ServiceMap) (s : Process ι) (i : ℕ)
    (remote : ι) : Process ι :=
  match connectionScope remote allow services with
  | some scope => s.put i (.serving remote scope)
  | none => s.put i (.rejecting remote)

/-- One step; `none` where the event cannot happen. -/
def step (copy : Source → Source → Copied) (services : ServiceMap) (allow : List (AllowRule ι))
    (event : GatewayEvent ι) (s : Process ι) : Option (Process ι) :=
  match event with
  | .incoming i => if s.connections i = .absent then some (s.put i .connecting) else none
  | .refused i => if s.connections i = .connecting then some (s.put i .closed) else none
  | .connected i remote =>
    if s.connections i = .connecting then some (s.handleConnection allow services i remote)
    else none
  | .stream i wire dial =>
    match s.connections i with
    | .serving remote scope =>
      if wire.log = [] then
        some { s with
          handled := s.handled ++
            [⟨remote, wire, ((serveStream dial copy scope).run wire).state.log⟩] }
      else none
    | _ => none
  | .rejects i wire =>
    match s.connections i with
    | .rejecting remote =>
      if wire.log = [] then
        some { s.put i .closed with
          handled := s.handled ++ [⟨remote, wire, (rejectStream.run wire).state.log⟩] }
      else none
    | _ => none
  | .closes i =>
    match s.connections i with
    | .serving _ _ | .rejecting _ => some (s.put i .closed)
    | _ => none

end Process

/-! ## What the start checks -/

/-- The endpoint is named by a rule, or everybody is let in. -/
def Named (remote : ι) (allow : List (AllowRule ι)) : Prop :=
  allow = [] ∨ ∃ rule ∈ allow, rule.endpoint = remote

theorem checkRules_eq_ok {services : ServiceMap} {allow : List (AllowRule ι)} {u : Unit} :
    checkRules services allow = .ok u ↔
      ∀ rule ∈ allow, ∀ name, rule.service = some name → (services.get name).isSome = true := by
  induction allow with
  | nil => simp [checkRules]
  | cons rule rules ih =>
    unfold checkRules
    rw [List.forall_mem_cons]
    cases hservice : rule.service with
    | none =>
      simp only [ih]
      exact (and_iff_right fun name hname => by cases hname).symm
    | some name =>
      simp only
      rw [Exec.bind_eq_ok]
      constructor
      · rintro ⟨_, hget, hrest⟩
        refine ⟨fun name' hname => ?_, ih.mp hrest⟩
        obtain rfl := Option.some.inj hname
        exact ensure_eq_ok.mp hget
      · rintro ⟨hget, hrest⟩
        exact ⟨(), ensure_eq_ok.mpr (hget name rfl), ih.mpr hrest⟩

/-- A map that is not empty has a service. -/
theorem exists_service {services : ServiceMap} (h : services.isEmpty = false) :
    ∃ name target, services.get name = some target := by
  obtain ⟨entries, hnodup⟩ := services
  cases entries with
  | nil => cases h
  | cons entry entries =>
    refine ⟨entry.1, entry.2.addr, ?_⟩
    unfold ServiceMap.get ServiceMap.lookup
    simp only
    rw [List.find?_cons_of_pos (by simp)]
    rfl

/-- What the checks of the start come to. -/
theorem startUp_eq_ok {parseId : Text → Option ι} {specs rules : List Text} {services : ServiceMap}
    {allow : List (AllowRule ι)} (h : startUp parseId specs rules = .ok (services, allow)) :
    fromSpecs specs = .ok services ∧ services.isEmpty = false ∧
      ∀ rule ∈ allow, ∀ name, rule.service = some name → (services.get name).isSome = true := by
  unfold startUp at h
  obtain ⟨services', hspecs, h⟩ := Exec.bind_eq_ok.mp h
  obtain ⟨_, hsome, h⟩ := Exec.bind_eq_ok.mp h
  obtain ⟨allow', hrules, h⟩ := Exec.bind_eq_ok.mp h
  obtain ⟨_, hcheck, h⟩ := Exec.bind_eq_ok.mp h
  obtain ⟨rfl, rfl⟩ := Prod.mk.inj (Exec.ok.inj h)
  exact ⟨startError_eq_ok.mp hspecs, ensure_eq_ok.mp hsome, checkRules_eq_ok.mp hcheck⟩

/-- Whoever is named may use a service that is configured. -/
theorem exists_allowed {services : ServiceMap} {allow : List (AllowRule ι)} {remote : ι}
    (hsome : services.isEmpty = false)
    (hrules : ∀ rule ∈ allow, ∀ name, rule.service = some name → (services.get name).isSome = true)
    (hnamed : Named remote allow) :
    ∃ name target, Allowed remote allow name ∧ services.get name = some target := by
  obtain ⟨name, target, hget⟩ := exists_service hsome
  rcases hnamed with hnone | ⟨rule, hrule, hremote⟩
  · exact ⟨name, target, .inl hnone, hget⟩
  · cases hservice : rule.service with
    | none => exact ⟨name, target, .inr ⟨rule, hrule, hremote, .inl hservice⟩, hget⟩
    | some name' =>
      obtain ⟨target', hget'⟩ := Option.isSome_iff_exists.mp (hrules rule hrule name' hservice)
      exact ⟨name', target', .inr ⟨rule, hrule, hremote, .inr hservice⟩, hget'⟩

/-! ## What is done on a stream -/

/-- What the gateway may have done on a stream: a target is only dialed where the rules let the
endpoint use the service that it has asked for, nothing is copied without a dial, whoever is not
named is told so and no more, and whoever is named is never told so. -/
structure Heeds (services : ServiceMap) (allow : List (AllowRule ι)) (h : Handled ι) : Prop where
  dialed : ∀ target, .dialed target ∈ h.log → ∃ serviceId,
    BeginsWithRequest h.arrived.source.bytes serviceId ∧ Allowed h.remote allow serviceId ∧
      services.get serviceId = some target
  moved : ∀ transfer, .moved transfer ∈ h.log → ∃ target, .dialed target ∈ h.log
  unnamed : ¬ Named h.remote allow →
    ∀ event ∈ h.log, event = .wrote [TunnelStatus.unauthorized.toU8] ∨ event = .finished
  named : Named h.remote allow → .wrote [TunnelStatus.unauthorized.toU8] ∉ h.log

/-- What an unauthorized endpoint is told. -/
theorem rejectStream_log (wire : Wire) (hfresh : wire.log = []) :
    ∀ event ∈ (rejectStream.run wire).state.log,
      event = .wrote [TunnelStatus.unauthorized.toU8] ∨ event = .finished := by
  have htold : ∀ wire' : Wire, wire'.log = [] →
      ∀ event ∈ (((do
        let _ ← Task.attempt (sendTerminalStatus .unauthorized)
        return false : Task Wire Anyhow Bool)).run wire').state.log,
        event = .wrote [TunnelStatus.unauthorized.toU8] ∨ event = .finished := by
    intro wire' hlog event hevent
    rw [Task.bind_pure_state, Task.attempt_state] at hevent
    obtain ⟨rest, hleaves, hrest⟩ := sendTerminalStatus_state .unauthorized wire'
    rw [hleaves, hlog, List.nil_append] at hevent
    rcases List.mem_append.mp hevent with hevent | hevent
    · unfold Wire.accepted at hevent
      split_ifs at hevent with haccepts
      · exact .inl (List.mem_singleton.mp hevent)
      · cases hevent
    · exact .inr (hrest event hevent)
  intro event hevent
  unfold rejectStream at hevent
  cases hread : readRequest.run wire.early with
  | done serviceId early =>
    rw [Task.bind_ok (timeout_readEarly hread)] at hevent
    exact htold { wire with early := early } hfresh event hevent
  | failed error =>
    have hrun : (Task.timeout (readEarly readRequest) : Task Wire Anyhow _).run wire =
        .returned (.ok (some (.error error))) wire := by
      rw [Task.run_timeout, readEarly, Task.run_ofAsync, hread]
    rw [Task.bind_ok hrun] at hevent
    have hevent : event ∈ wire.log := hevent
    rw [hfresh] at hevent
    cases hevent
  | waits =>
    have hrun : (Task.timeout (readEarly readRequest) : Task Wire Anyhow _).run wire =
        .returned (.ok none) wire := by
      rw [Task.run_timeout, readEarly, Task.run_ofAsync, hread]
    rw [Task.bind_ok hrun] at hevent
    have hevent : event ∈ wire.log := hevent
    rw [hfresh] at hevent
    cases hevent

/-- A stream on a connection that is rejected. -/
theorem heeds_of_rejected {services : ServiceMap} {allow : List (AllowRule ι)} {remote : ι}
    (hunnamed : ¬ Named remote allow) {wire : Wire} (hfresh : wire.log = []) :
    Heeds services allow ⟨remote, wire, (rejectStream.run wire).state.log⟩ := by
  have hlog := rejectStream_log wire hfresh
  refine ⟨fun target htarget => ?_, fun transfer htransfer => ?_, fun _ => hlog,
    fun hnamed => absurd hnamed hunnamed⟩
  · rcases hlog _ htarget with heq | heq <;> cases heq
  · rcases hlog _ htransfer with heq | heq <;> cases heq

variable [DecidableEq ι]

/-- A stream on a connection with a scope. -/
theorem heeds_of_served {services scope : ServiceMap} {allow : List (AllowRule ι)} {remote : ι}
    (hscope : ∀ s, scope.get s = if Allowed remote allow s then services.get s else none)
    (hnamed : Named remote allow) {wire : Wire} (hfresh : wire.log = []) (dial : Text → Dial)
    (copy : Source → Source → Copied) :
    Heeds services allow ⟨remote, wire, ((serveStream dial copy scope).run wire).state.log⟩ := by
  obtain ⟨status, hserved⟩ := serveStream_served scope dial copy wire
  obtain ⟨dials, rest, hlog, hdials, hrest⟩ := hserved.log
  rw [hfresh, List.nil_append] at hlog
  have haccepted :
      ∀ event ∈ wire.accepted [.wrote [status.toU8]], event = .wrote [status.toU8] := by
    intro event hevent
    unfold Wire.accepted at hevent
    split_ifs at hevent with haccepts
    · exact List.mem_singleton.mp hevent
    · cases hevent
  -- where an event of the log comes from
  have hcases : ∀ event, event ∈ ((serveStream dial copy scope).run wire).state.log →
      event ∈ dials ∨ event = .wrote [status.toU8] ∨ event = .finished ∨
        status = .ok ∧ ∃ transfer, event = .moved transfer := by
    intro event hevent
    rw [hlog] at hevent
    rcases List.mem_append.mp hevent with hevent | hevent
    · rcases List.mem_append.mp hevent with hevent | hevent
      · exact .inl hevent
      · exact .inr (.inl (haccepted event hevent))
    · rcases hrest event hevent with hfinished | ⟨hok, -, hmoved⟩
      · exact .inr (.inr (.inl hfinished))
      · exact .inr (.inr (.inr ⟨hok, hmoved⟩))
  have hdialed : ∀ event ∈ dials, ∃ target serviceId, event = .dialed target ∧
      BeginsWithRequest wire.source.bytes serviceId ∧ scope.get serviceId = some target := by
    intro event hevent
    rcases hdials with ⟨hnone, -⟩ | ⟨serviceId, target, hrequest, hget, hdial, -⟩
    · rw [hnone] at hevent
      cases hevent
    · rw [hdial] at hevent
      exact ⟨target, serviceId, List.mem_singleton.mp hevent, hrequest, hget⟩
  refine ⟨fun target htarget => ?_, fun transfer htransfer => ?_, fun hnot => absurd hnamed hnot,
    fun _ htold => ?_⟩
  · rcases hcases _ htarget with hevent | hwrote | hfinished | ⟨-, transfer, hmoved⟩
    · obtain ⟨target', serviceId, heq, hrequest, hget⟩ := hdialed _ hevent
      obtain rfl := Event.dialed.inj heq
      rw [hscope] at hget
      split_ifs at hget with hallowed
      exact ⟨serviceId, hrequest, hallowed, hget⟩
    · cases hwrote
    · cases hfinished
    · cases hmoved
  · rcases hcases _ htransfer with hevent | hwrote | hfinished | ⟨hok, -⟩
    · obtain ⟨target, serviceId, heq, -⟩ := hdialed _ hevent
      cases heq
    · cases hwrote
    · cases hfinished
    · rcases hdials with ⟨-, hstatus | hstatus⟩ | ⟨serviceId, target, -, -, hdial, -⟩
      · cases hok.symm.trans hstatus
      · cases hok.symm.trans hstatus
      · refine ⟨target, ?_⟩
        show .dialed target ∈ ((serveStream dial copy scope).run wire).state.log
        rw [hlog, hdial]
        exact List.mem_append_left _ (List.mem_append_left _ (List.mem_singleton.mpr rfl))
  · rcases hcases _ htold with hevent | hwrote | hfinished | ⟨-, transfer, hmoved⟩
    · obtain ⟨target, serviceId, heq, -⟩ := hdialed _ hevent
      cases heq
    · have hbyte := List.singleton_injective (Event.wrote.inj hwrote)
      have hstatus := congrArg TunnelStatus.fromU8 hbyte
      rw [TunnelStatus.fromU8_toU8, TunnelStatus.fromU8_toU8] at hstatus
      have hdue := hserved.due
      rw [← Option.some.inj hstatus] at hdue
      exact hdue
    · cases hfinished
    · cases hmoved

/-! ## What holds in every run -/

/-- Every connection stands as the rules have it, and every stream was dealt with so. -/
structure Standing (services : ServiceMap) (allow : List (AllowRule ι)) (s : Process ι) : Prop where
  serving : ∀ i remote scope, s.connections i = .serving remote scope →
    connectionScope remote allow services = some scope
  rejecting : ∀ i remote, s.connections i = .rejecting remote →
    connectionScope remote allow services = none
  heeded : ∀ h ∈ s.handled, Heeds services allow h

variable {services : ServiceMap} {allow : List (AllowRule ι)} {copy : Source → Source → Copied}

theorem named_iff (hvalid : Valid services) (remote : ι) :
    ¬ Named remote allow ↔ connectionScope remote allow services = none := by
  rw [connectionScope_none hvalid]
  unfold Named
  rw [not_or, not_exists]
  simp only [not_and, ne_eq]

theorem standing_start : Standing services allow (.start : Process ι) where
  serving _ _ _ h := by cases h
  rejecting _ _ h := by cases h
  heeded _ h := by cases h

/-- A connection comes to a stage at which it stands as the rules have it. -/
theorem Standing.put {s : Process ι} (h : Standing services allow s) (i : ℕ)
    {stage : ConnectionStage ι}
    (hserving : ∀ remote scope, stage = .serving remote scope →
      connectionScope remote allow services = some scope)
    (hrejecting : ∀ remote, stage = .rejecting remote →
      connectionScope remote allow services = none) :
    Standing services allow (s.put i stage) := by
  refine ⟨fun j remote scope hj => ?_, fun j remote hj => ?_, h.heeded⟩
  · rw [Process.put_connections] at hj
    split_ifs at hj with hij
    · exact hserving remote scope hj
    · exact h.serving j remote scope hj
  · rw [Process.put_connections] at hj
    split_ifs at hj with hij
    · exact hrejecting remote hj
    · exact h.rejecting j remote hj

/-- One more stream has been dealt with. -/
theorem Standing.handle {s : Process ι} (h : Standing services allow s) {handled : Handled ι}
    (hheeds : Heeds services allow handled) :
    Standing services allow { s with handled := s.handled ++ [handled] } := by
  refine ⟨h.serving, h.rejecting, fun other hother => ?_⟩
  rcases List.mem_append.mp hother with hother | hother
  · exact h.heeded other hother
  · rw [List.mem_singleton.mp hother]
    exact hheeds

theorem Standing.step {s s' : Process ι} (h : Standing services allow s) (hvalid : Valid services)
    {event : GatewayEvent ι} (hstep : Process.step copy services allow event s = some s') :
    Standing services allow s' := by
  unfold Process.step at hstep
  cases event with
  | incoming i | refused i =>
    obtain ⟨-, rfl⟩ := History.of_guarded hstep
    exact h.put i (fun _ _ hs => by cases hs) (fun _ hs => by cases hs)
  | connected i remote =>
    obtain ⟨-, rfl⟩ := History.of_guarded hstep
    unfold Process.handleConnection
    cases hscope : connectionScope remote allow services with
    | some scope =>
      refine h.put i (fun remote' scope' hs => ?_) (fun _ hs => by cases hs)
      obtain ⟨rfl, rfl⟩ := ConnectionStage.serving.inj hs
      exact hscope
    | none =>
      refine h.put i (fun _ _ hs => by cases hs) (fun remote' hs => ?_)
      obtain rfl := ConnectionStage.rejecting.inj hs
      exact hscope
  | stream i wire dial =>
    simp only at hstep
    split at hstep
    · next remote scope hstage =>
      obtain ⟨hfresh, rfl⟩ := History.of_guarded hstep
      have hscope := h.serving i remote scope hstage
      refine h.handle (heeds_of_served (fun s => connectionScope_get hvalid hscope s) ?_ hfresh
        dial copy)
      -- a remote that is served is named in the rules
      by_contra hnot
      rw [named_iff hvalid, hscope] at hnot
      cases hnot
    · cases hstep
  | rejects i wire =>
    simp only at hstep
    split at hstep
    · next remote hstage =>
      obtain ⟨hfresh, rfl⟩ := History.of_guarded hstep
      have hunnamed := (named_iff hvalid remote).mpr (h.rejecting i remote hstage)
      exact (h.put i (fun _ _ hs => by cases hs) (fun _ hs => by cases hs)).handle
        (heeds_of_rejected hunnamed hfresh)
    · cases hstep
  | closes i =>
    simp only at hstep
    split at hstep
    · obtain rfl := Option.some.inj hstep
      exact h.put i (fun _ _ hs => by cases hs) (fun _ hs => by cases hs)
    · obtain rfl := Option.some.inj hstep
      exact h.put i (fun _ _ hs => by cases hs) (fun _ hs => by cases hs)
    · cases hstep

theorem standing_run (hvalid : Valid services) {events : List (GatewayEvent ι)} {s : Process ι}
    (hrun : History.run (Process.step copy services allow) .start events = some s) :
    Standing services allow s :=
  History.run_induct (P := fun _ s => Standing services allow s) standing_start
    (fun _ _ _ _ _ h hstep => h.step hvalid hstep) hrun

/-- The gateway over its whole run, once it has started: whoever connects, whatever is sent on
however many streams and in whatever order, every stream is dealt with as the access rules have
it, and an endpoint that is let in has a service that it can reach. -/
theorem gateway_authorizes {parseId : Text → Option ι} {specs rules : List Text}
    (hstart : startUp parseId specs rules = .ok (services, allow)) {events : List (GatewayEvent ι)}
    {s : Process ι}
    (hrun : History.run (Process.step copy services allow) .start events = some s) :
    (∀ h ∈ s.handled, Heeds services allow h) ∧
    ∀ i remote scope, s.connections i = .serving remote scope → Named remote allow ∧
      ∃ serviceId target, Allowed remote allow serviceId ∧
        services.get serviceId = some target ∧ scope.get serviceId = some target := by
  obtain ⟨hspecs, hsome, hrules⟩ := startUp_eq_ok hstart
  have hvalid := valid_fromSpecs hspecs
  have hstanding := standing_run hvalid hrun
  refine ⟨hstanding.heeded, fun i remote scope hstage => ?_⟩
  have hscope := hstanding.serving i remote scope hstage
  have hnamed : Named remote allow := by
    by_contra hnot
    rw [named_iff hvalid, hscope] at hnot
    cases hnot
  obtain ⟨serviceId, target, hallowed, hget⟩ := exists_allowed hsome hrules hnamed
  refine ⟨hnamed, serviceId, target, hallowed, hget, ?_⟩
  rw [connectionScope_get hvalid hscope, if_pos hallowed, hget]

/-- A stream that begins with a request for `web`. -/
def webStream : Wire :=
  ⟨⟨[⟨request "web".toList, List.cons_ne_nil _ _⟩], .silent⟩, ⟨[], .silent⟩, [], []⟩

/-- An endpoint with a rule and one without ask for the same service. -/
def twoEndpoints : List (GatewayEvent ℕ) :=
  [.incoming 0, .incoming 1, .connected 1 8, .connected 0 7,
    .stream 0 webStream fun _ => .connected ⟨[], .silent⟩, .rejects 1 webStream]

theorem gateway_authorizes_web :
    ∃ (services : ServiceMap) (allow : List (AllowRule ℕ)) (s : Process ℕ),
      startUp (fun text => if text = ['7'] then some 7 else none) ["web=host:80".toList]
        ["7=web".toList] = .ok (services, allow) ∧
      s.handled.map Handled.log =
        [[.dialed "host:80".toList, .wrote [0]], [.wrote [2], .finished]] ∧
      ∀ h ∈ s.handled, Heeds services allow h := by
  have hstart : startUp (fun text => if text = ['7'] then some 7 else none) ["web=host:80".toList]
      ["7=web".toList] =
        .ok (ServiceMap.empty.insert "web".toList ⟨"host:80".toList⟩,
          [⟨7, some "web".toList⟩]) := by
    decide +kernel
  have hlogs : (History.run (Process.step copyAll
      (ServiceMap.empty.insert "web".toList ⟨"host:80".toList⟩) [⟨7, some "web".toList⟩]) .start
      twoEndpoints).map (fun s => s.handled.map Handled.log) =
        some [[.dialed "host:80".toList, .wrote [0]], [.wrote [2], .finished]] := by
    decide +kernel
  obtain ⟨s, hrun, hlogs⟩ := Option.map_eq_some_iff.mp hlogs
  exact ⟨_, _, s, hstart, hlogs, (gateway_authorizes hstart hrun).1⟩

end IrohExperiment.Gateway
