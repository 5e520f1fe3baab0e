/-
# The page of an iroh node (`worker/public/iroh.js`)

`iroh.js`: the runs that a page starts and stops while promises settle and timers fire in any
order.  A run that is no longer the newest one stops at its next `await`; so no node is ever left
open behind it, and a report that is finished stays as it is.

`Page.step` is one event: a click, a promise that settles, a timer, a change of the address.
The main results are about any order of events: `page_keeps` (one node, one timer, and
buttons that say whether a run is on) and `finished_report_stays`.
-/
import IrohExperiment.Browser.Node

namespace IrohExperiment.Browser

open Rust History

-- `ι` is `EndpointId`
variable {ι : Type}

/-! ## The page -/

/-- `report`, as far as a run writes it -/
structure PageReport (ι : Type) where
  role : String
  relayPingSeconds : Option ℕ
  endpointId : Option ι
  irohPeerTested : Bool
  echoSuccess : Option Bool
  measurement : Option (Measurement ι)
  error : Option Text
  finished : Bool
  deriving DecidableEq, Repr

/-- Where a call of `start` awaits. -/
inductive RunStage where
  | absent
  /-- the import of the Wasm module -/
  | loading (join : Bool)
  /-- `BrowserNode.start` -/
  | starting (join : Bool)
  /-- `connect_echo` or `listen_once` -/
  | measuring
  | ended
  deriving DecidableEq, Repr

/-- A call of `start` that is not over. -/
def RunStage.Awaits (stage : RunStage) : Prop := stage ≠ .absent ∧ stage ≠ .ended

theorem RunStage.loading_awaits (join : Bool) : (RunStage.loading join).Awaits := by
  constructor <;> intro h <;> cases h

theorem RunStage.starting_awaits (join : Bool) : (RunStage.starting join).Awaits := by
  constructor <;> intro h <;> cases h

theorem RunStage.measuring_awaits : RunStage.measuring.Awaits := by
  constructor <;> intro h <;> cases h

/-- A node: there is none yet, it is open, or `close` has been called. -/
inductive NodeStage where
  | absent
  | opened
  | closed
  deriving DecidableEq, Repr

/-- A timer of `setTimeout`: the run whose closure it holds, and what it says. -/
structure Timer where
  id : ℕ
  run : ℕ
  message : Text
  deriving DecidableEq, Repr

/-- The variables of the module, the controls, and what is under way. -/
structure Page (ι : Type) where
  node : Option ℕ
  report : Option (PageReport ι)
  active : Bool
  generation : ℕ
  expiryTimer : Option ℕ
  startDisabled : Bool
  joinDisabled : Bool
  stopDisabled : Bool
  downloadDisabled : Bool
  startHidden : Bool
  joinHidden : Bool
  invitationHidden : Bool
  timers : List Timer
  nextTimer : ℕ
  runs : ℕ → RunStage
  nodes : ℕ → NodeStage

/-- What can happen. -/
inductive PageEvent (ι : Type) where
  /-- a click on `start` or `join`, and what `readInvitation` comes to: the ping of an invitation -/
  | click (join : Bool) (invitation : Except Text (Option ℕ))
  | loaded (run : ℕ) (error : Option Text)
  | created (run : ℕ) (result : Except Text (ℕ × ι))
  | measured (run : ℕ) (result : Except Text (Measurement ι))
  | stop
  | fires (timer : Timer)
  | hashchange (invitation : Except Text (Option ℕ))
  | pagehide

/-- What `stop` says when it is clicked. -/
def stopMessage : Text := "中止しました。再実行すると新しいiroh IDを作ります。".toList

/-- What `stop` says when the link expires. -/
def expiredMessage : Text := "リンクの有効期限になりました。新しいリンクで再実行してください。".toList

/-- What `stop` says some time after a measurement. -/
def closedMessage : Text := "測定済みのiroh接続を閉じました。結果は保存できます。".toList

/-- Why nothing can be joined. -/
def noInvitation : Text := "招待リンクがありません。".toList

namespace Page

/-- The page as it is loaded. -/
def start : Page ι where
  node := none
  report := none
  active := false
  generation := 0
  expiryTimer := none
  startDisabled := false
  joinDisabled := false
  stopDisabled := true
  downloadDisabled := true
  startHidden := false
  joinHidden := true
  invitationHidden := true
  timers := []
  nextTimer := 0
  runs := fun _ => .absent
  nodes := fun _ => .absent

/-- A run goes on to where it awaits next. -/
def awaits (s : Page ι) (run : ℕ) (stage : RunStage) : Page ι :=
  { s with runs := Function.update s.runs run stage }

/-- `clearTimeout(expiryTimer)` -/
def clearTimer (s : Page ι) : Page ι :=
  { s with timers := s.timers.filter fun t => some t.id ≠ s.expiryTimer }

/-- `expiryTimer = setTimeout(...)` -/
def setTimer (s : Page ι) (run : ℕ) (message : Text) : Page ι :=
  { s with
    timers := s.timers ++ [⟨s.nextTimer, run, message⟩]
    expiryTimer := some s.nextTimer
    nextTimer := s.nextTimer + 1 }

/-- `if (old) await old.close();` -/
def closeNode (s : Page ι) (old : Option ℕ) : Page ι :=
  { s with
    nodes :=
      match old with
      | some n => Function.update s.nodes n .closed
      | none => s.nodes }

/-- The controls of a page without a run. -/
def release (s : Page ι) : Page ι :=
  { s with
    active := false
    stopDisabled := true
    startDisabled := false
    joinDisabled := false
    invitationHidden := true }

/-- The report is finished with an error, and shown. -/
def finishReport (s : Page ι) (error : Text) : Page ι :=
  { s with
    report := s.report.map fun r => { r with error := some error, finished := true }
    downloadDisabled := false }

/-- `stop` -/
def stopRun (s : Page ι) (message : Text) : Page ι :=
  let s := { s with generation := s.generation + 1 }
  let s := s.clearTimer
  let old := s.node
  let s := { s with node := none }.release
  let s := if s.report.any fun r => !r.finished then s.finishReport message else s
  s.closeNode old

/-- The `catch` of `start` -/
def failRun (s : Page ι) (run : ℕ) (error : Text) : Page ι :=
  if run ≠ s.generation then s.awaits run .ended
  else
    let s := s.finishReport error
    let old := s.node
    let s : Page ι := { s with node := none }.clearTimer
    (s.release.closeNode old).awaits run .ended

/-- A report before anything is known. -/
def newReport (join : Bool) : PageReport ι :=
  ⟨if join then "dial" else "listen", none, none, false, none, none, none, false⟩

/-- The variables and the controls of a page as a run begins. -/
def begin (s : Page ι) (join : Bool) : Page ι :=
  { s with
    generation := s.generation + 1
    active := true
    startDisabled := true
    joinDisabled := true
    stopDisabled := false
    invitationHidden := true
    downloadDisabled := true
    report := some (newReport join) }

/-- `start`, up to the import of the module -/
def startRun (s : Page ι) (join : Bool) (invitation : Except Text (Option ℕ)) : Page ι :=
  if s.active then s
  else
    let s := s.begin join
    let run := s.generation
    match if join then invitation else .ok none with
    | .error error => s.failRun run error
    | .ok invite =>
      if join = true ∧ invite = none then s.failRun run noInvitation
      else
        let s : Page ι := { s with
          report := s.report.map fun r => { r with relayPingSeconds := some (invite.getD 15) } }
        (s.setTimer run expiredMessage).awaits run (.loading join)

/-- `start`, from when the module is there -/
def moduleLoaded (s : Page ι) (run : ℕ) (join : Bool) (error : Option Text) : Page ι :=
  match error with
  | some error => s.failRun run error
  | none => s.awaits run (if run ≠ s.generation then .ended else .starting join)

/-- `start`, from when there is a node -/
def nodeCreated (s : Page ι) (run : ℕ) (join : Bool) (n : ℕ) (id : ι) : Page ι :=
  let s : Page ι := { s with nodes := Function.update s.nodes n .opened }
  if run ≠ s.generation then (s.closeNode (some n)).awaits run .ended
  else
    let s : Page ι := { s with
      node := some n
      report := s.report.map fun r => { r with endpointId := some id, irohPeerTested := true }
      invitationHidden := if join then s.invitationHidden else false }
    s.awaits run .measuring

/-- `start`, from when there is a measurement -/
def echoMeasured (s : Page ι) (run : ℕ) (m : Measurement ι) : Page ι :=
  if run ≠ s.generation then s.awaits run .ended
  else
    let s : Page ι := { s with
      report := s.report.map fun r =>
        { r with
          measurement := some m
          irohPeerTested := true
          echoSuccess := some m.echoSuccess
          finished := true }
      downloadDisabled := false }
    (s.clearTimer.setTimer run closedMessage).awaits run .ended

/-- `invitationUI` -/
def invitationUI (s : Page ι) (invitation : Except Text (Option ℕ)) : Page ι :=
  if s.active then s
  else
    match invitation with
    | .ok invite => { s with startHidden := invite.isSome, joinHidden := !invite.isSome }
    | .error _ => { s with startHidden := false, joinHidden := true }

/-- One step; `none` where the event cannot happen. -/
def step (event : PageEvent ι) (s : Page ι) : Option (Page ι) :=
  match event with
  | .click join invitation => some (s.startRun join invitation)
  | .loaded run error =>
    match s.runs run with
    | .loading join => some (s.moduleLoaded run join error)
    | _ => none
  | .created run result =>
    match s.runs run with
    | .starting join =>
      match result with
      | .error error => some (s.failRun run error)
      | .ok (n, id) => if s.nodes n = .absent then some (s.nodeCreated run join n id) else none
    | _ => none
  | .measured run result =>
    match s.runs run with
    | .measuring =>
      match result with
      | .error error => some (s.failRun run error)
      | .ok m => some (s.echoMeasured run m)
    | _ => none
  | .stop => some (s.stopRun stopMessage)
  | .fires timer =>
    if timer ∈ s.timers then
      let s : Page ι := { s with timers := s.timers.erase timer }
      some (if timer.run = s.generation then s.stopRun timer.message else s)
    else none
  | .hashchange invitation => some (s.invitationUI invitation)
  | .pagehide => some (s.closeNode s.node)

/-- No run begins: what is clicked has no effect. -/
def Quiet (event : PageEvent ι) (s : Page ι) : Prop :=
  match event with
  | .click _ _ => s.active = true
  | _ => True

instance decidableQuiet (event : PageEvent ι) (s : Page ι) : Decidable (Quiet event s) := by
  unfold Quiet
  cases event <;> infer_instance

end Page

/-! ## What a report says -/

/-- A report that is not finished, of a run that has an endpoint or not. -/
structure PageReport.Begun (r : PageReport ι) (id : Option ι) : Prop where
  finished : r.finished = false
  endpointId : r.endpointId = id
  irohPeerTested : r.irohPeerTested = id.isSome
  measurement : r.measurement = none
  echoSuccess : r.echoSuccess = none
  error : r.error = none

/-- A finished report: it has a measurement or an error. -/
structure PageReport.Settled (r : PageReport ι) : Prop where
  finished : r.finished = true
  irohPeerTested : r.irohPeerTested = r.endpointId.isSome
  measured : r.measurement.isSome → r.endpointId.isSome
  echoSuccess : r.echoSuccess = r.measurement.map (·.echoSuccess)
  error : r.error.isSome = r.measurement.isNone

theorem PageReport.newReport_begun (join : Bool) :
    (Page.newReport join : PageReport ι).Begun none := ⟨rfl, rfl, rfl, rfl, rfl, rfl⟩

theorem PageReport.Begun.pinged {r : PageReport ι} {id : Option ι} (h : r.Begun id)
    (ping : Option ℕ) : PageReport.Begun { r with relayPingSeconds := ping } id :=
  ⟨h.finished, h.endpointId, h.irohPeerTested, h.measurement, h.echoSuccess, h.error⟩

theorem PageReport.Begun.created {r : PageReport ι} {id : Option ι} (h : r.Begun id) (id' : ι) :
    PageReport.Begun { r with endpointId := some id', irohPeerTested := true } (some id') :=
  ⟨h.finished, rfl, rfl, h.measurement, h.echoSuccess, h.error⟩

/-- A run that fails settles its report. -/
theorem PageReport.Begun.failed {r : PageReport ι} {id : Option ι} (h : r.Begun id)
    (error : Text) : PageReport.Settled { r with error := some error, finished := true } where
  finished := rfl
  irohPeerTested := by rw [h.irohPeerTested, h.endpointId]
  measured := by
    intro hm
    rw [h.measurement] at hm
    cases hm
  echoSuccess := by rw [h.echoSuccess, h.measurement, Option.map_none]
  error := by rw [h.measurement, Option.isSome_some, Option.isNone_none]

/-- A run that has measured something settles its report. -/
theorem PageReport.Begun.measuredSettled {r : PageReport ι} {id : ι} (h : r.Begun (some id))
    (m : Measurement ι) :
    PageReport.Settled { r with
      measurement := some m
      irohPeerTested := true
      echoSuccess := some m.echoSuccess
      finished := true } where
  finished := rfl
  irohPeerTested := by rw [h.endpointId, Option.isSome_some]
  measured := by
    intro _
    rw [h.endpointId, Option.isSome_some]
  echoSuccess := rfl
  error := by rw [h.error, Option.isSome_none, Option.isNone_some]

/-! ## The invariant -/

namespace Page

/-- What the page is up to. -/
inductive Phase (s : Page ι) : Prop
  /-- No run is on: the report, if there is one, is that of the last. -/
  | idle (active : s.active = false) (node : s.node = none)
      (stage : s.runs s.generation = .absent ∨ s.runs s.generation = .ended)
      (report : ∀ r, s.report = some r → r.Settled)
      (download : s.downloadDisabled = s.report.isNone)
  /-- The newest run has no node yet. -/
  | opening (r : PageReport ι) (join : Bool) (active : s.active = true) (node : s.node = none)
      (stage : s.runs s.generation = .loading join ∨ s.runs s.generation = .starting join)
      (report : s.report = some r) (begun : r.Begun none) (download : s.downloadDisabled = true)
  /-- The newest run waits for a peer. -/
  | measuring (r : PageReport ι) (n : ℕ) (id : ι) (active : s.active = true)
      (node : s.node = some n) (stage : s.runs s.generation = .measuring)
      (report : s.report = some r) (begun : r.Begun (some id))
      (download : s.downloadDisabled = true)
  /-- The newest run has measured something, and its node is still open. -/
  | measured (r : PageReport ι) (n : ℕ) (active : s.active = true) (node : s.node = some n)
      (stage : s.runs s.generation = .ended) (report : s.report = some r) (settled : r.Settled)
      (download : s.downloadDisabled = false)

/-- What every step keeps. -/
structure Keeps (s : Page ι) : Prop where
  opened : ∀ n, s.nodes n = .opened → s.node = some n
  created : ∀ n, s.node = some n → s.nodes n ≠ .absent
  fresh : ∀ run, s.generation < run → s.runs run = .absent
  timer : s.active = true → ∃ t, s.timers = [t] ∧ t.run = s.generation ∧ some t.id = s.expiryTimer
  timers : s.active = false → s.timers = []
  starts : s.startDisabled = s.active ∧ s.joinDisabled = s.active
  stops : s.stopDisabled = !s.active
  phase : s.Phase

theorem keeps_start : (start : Page ι).Keeps where
  opened := by
    intro n h
    cases h
  created := by
    intro n h
    cases h
  fresh _ _ := rfl
  timer h := by cases h
  timers _ := rfl
  starts := ⟨rfl, rfl⟩
  stops := rfl
  phase := .idle rfl rfl (.inl rfl) (fun r h => by cases h) rfl

variable {s t : Page ι}

/-- A timer that is pending is the one that is known, and one of the newest run. -/
theorem Keeps.timer_of_mem (h : s.Keeps) {timer : Timer} (htimer : timer ∈ s.timers) :
    timer.run = s.generation ∧ some timer.id = s.expiryTimer := by
  by_cases hactive : s.active = true
  · obtain ⟨t, hone, hrun, hid⟩ := h.timer hactive
    rw [hone, List.mem_singleton] at htimer
    subst htimer
    exact ⟨hrun, hid⟩
  · rw [h.timers (Bool.eq_false_of_not_eq_true hactive)] at htimer
    cases htimer

theorem Phase.of_eq (h : s.Phase) (hactive : t.active = s.active) (hnode : t.node = s.node)
    (hstage : t.runs t.generation = s.runs s.generation) (hreport : t.report = s.report)
    (hdownload : t.downloadDisabled = s.downloadDisabled) : t.Phase := by
  cases h with
  | idle active node stage report download =>
    refine .idle (hactive.trans active) (hnode.trans node) ?_ ?_ ?_
    · rwa [hstage]
    · rwa [hreport]
    · rwa [hdownload, hreport]
  | opening r join active node stage report begun download =>
    refine .opening r join (hactive.trans active) (hnode.trans node) ?_ (hreport.trans report)
      begun (hdownload.trans download)
    rwa [hstage]
  | measuring r n id active node stage report begun download =>
    exact .measuring r n id (hactive.trans active) (hnode.trans node) (hstage.trans stage)
      (hreport.trans report) begun (hdownload.trans download)
  | measured r n active node stage report settled download =>
    exact .measured r n (hactive.trans active) (hnode.trans node) (hstage.trans stage)
      (hreport.trans report) settled (hdownload.trans download)

/-- The report of a run that still awaits something is not finished. -/
theorem Phase.begun (h : s.Phase) (hawaits : (s.runs s.generation).Awaits) :
    s.active = true ∧ ∃ r id, s.report = some r ∧ r.Begun id := by
  cases h with
  | idle active node stage report download =>
    rcases stage with stage | stage
    · exact absurd stage hawaits.1
    · exact absurd stage hawaits.2
  | opening r join active node stage report begun download =>
    exact ⟨active, r, none, report, begun⟩
  | measuring r n id active node stage report begun download =>
    exact ⟨active, r, some id, report, begun⟩
  | measured r n active node stage report settled download => exact absurd stage hawaits.2

theorem Phase.of_opening {join : Bool} (h : s.Phase)
    (hstage : s.runs s.generation = .loading join ∨ s.runs s.generation = .starting join) :
    ∃ r, s.active = true ∧ s.node = none ∧ s.report = some r ∧ r.Begun none ∧
      s.downloadDisabled = true := by
  cases h with
  | idle active node stage report download =>
    rcases stage with stage | stage <;> rcases hstage with hstage | hstage <;>
      cases stage.symm.trans hstage
  | opening r join active node stage report begun download =>
    exact ⟨r, active, node, report, begun, download⟩
  | measuring r n id active node stage report begun download =>
    rcases hstage with hstage | hstage <;> cases stage.symm.trans hstage
  | measured r n active node stage report settled download =>
    rcases hstage with hstage | hstage <;> cases stage.symm.trans hstage

theorem Phase.of_measuring (h : s.Phase) (hstage : s.runs s.generation = .measuring) :
    ∃ r n id, s.active = true ∧ s.node = some n ∧ s.report = some r ∧ r.Begun (some id) := by
  cases h with
  | idle active node stage report download =>
    rcases stage with stage | stage <;> cases stage.symm.trans hstage
  | opening r join active node stage report begun download =>
    rcases stage with stage | stage <;> cases stage.symm.trans hstage
  | measuring r n id active node stage report begun download =>
    exact ⟨r, n, id, active, node, report, begun⟩
  | measured r n active node stage report settled download => cases stage.symm.trans hstage

/-- A report is finished, or it is one of a run that has measured nothing. -/
theorem Phase.settled_or_begun (h : s.Phase) :
    (∀ r, s.report = some r → r.Settled) ∧ s.downloadDisabled = s.report.isNone ∨
      ∃ r id, s.report = some r ∧ r.Begun id := by
  cases h with
  | idle active node stage report download => exact .inl ⟨report, download⟩
  | opening r join active node stage report begun download => exact .inr ⟨r, none, report, begun⟩
  | measuring r n id active node stage report begun download =>
    exact .inr ⟨r, some id, report, begun⟩
  | measured r n active node stage report settled download =>
    refine .inl ⟨?_, ?_⟩
    · intro r' hr'
      obtain rfl := Option.some.inj (report.symm.trans hr')
      exact settled
    · rw [download, report, Option.isNone_some]

/-! ## One operation after another -/

theorem finishReport_report {r : PageReport ι} (hreport : s.report = some r) (error : Text) :
    (s.finishReport error).report = some { r with error := some error, finished := true } := by
  rw [finishReport, hreport, Option.map_some]

theorem finishReport_settled {r : PageReport ι} {id : Option ι} (hreport : s.report = some r)
    (hbegun : r.Begun id) (error : Text) :
    (∀ r', (s.finishReport error).report = some r' → r'.Settled) ∧
      false = (s.finishReport error).report.isNone := by
  rw [finishReport_report hreport]
  refine ⟨?_, rfl⟩
  intro r' hr'
  obtain rfl := Option.some.inj hr'
  exact hbegun.failed error

theorem clearTimer_timers (h : ∀ t ∈ s.timers, t.run = s.generation ∧ some t.id = s.expiryTimer) :
    s.clearTimer.timers = [] := by
  apply List.filter_eq_nil_iff.mpr
  intro t ht
  simp [(h t ht).2]

/-- The only timer is that of the run that has set it. -/
theorem setTimer_timer (h : s.timers = []) (run : ℕ) (message : Text) :
    ∃ t, (s.setTimer run message).timers = [t] ∧ t.run = run ∧
      some t.id = (s.setTimer run message).expiryTimer := by
  refine ⟨⟨s.nextTimer, run, message⟩, ?_, rfl, rfl⟩
  rw [setTimer, h, List.nil_append]

theorem closeNode_some (n : ℕ) :
    (s.closeNode (some n)).nodes = Function.update s.nodes n .closed := rfl

/-- The only node that can be open is closed. -/
theorem closeNode_nodes {old : Option ℕ} (h : ∀ n, s.nodes n = .opened → old = some n) (n : ℕ) :
    (s.closeNode old).nodes n ≠ .opened := by
  intro hopen
  cases old with
  | none => cases h n hopen
  | some k =>
    by_cases hn : n = k
    · rw [closeNode_some, hn, Function.update_self] at hopen
      cases hopen
    · rw [closeNode_some, Function.update_of_ne hn] at hopen
      exact hn (Option.some.inj (h n hopen)).symm

/-- A page whose run is over. -/
theorem keeps_of_idle (hopened : ∀ n, s.nodes n ≠ .opened)
    (hfresh : ∀ run, s.generation < run → s.runs run = .absent) (hnode : s.node = none)
    (htimers : s.timers = []) (hactive : s.active = false)
    (hstarts : s.startDisabled = false ∧ s.joinDisabled = false) (hstops : s.stopDisabled = true)
    (hstage : s.runs s.generation = .absent ∨ s.runs s.generation = .ended)
    (hreport : ∀ r, s.report = some r → r.Settled)
    (hdownload : s.downloadDisabled = s.report.isNone) : s.Keeps where
  opened n h := absurd h (hopened n)
  created n h := by
    rw [hnode] at h
    cases h
  fresh := hfresh
  timer h := by
    rw [hactive] at h
    cases h
  timers _ := htimers
  starts := by rwa [hactive]
  stops := by rw [hstops, hactive, Bool.not_false]
  phase := .idle hactive hnode hstage hreport hdownload

/-- Whatever is on when the page stops, nothing is left open. -/
theorem keeps_stopRun (hopened : ∀ n, s.nodes n = .opened → s.node = some n)
    (hfresh : ∀ run, s.generation < run → s.runs run = .absent)
    (htimers : ∀ t ∈ s.timers, t.run = s.generation ∧ some t.id = s.expiryTimer)
    (hphase : s.Phase) (message : Text) : (s.stopRun message).Keeps := by
  have hopened := closeNode_nodes hopened
  have htimers := clearTimer_timers htimers
  have hnext := hfresh (s.generation + 1) (Nat.lt_succ_self _)
  have hfresh : ∀ run, s.generation + 1 < run → s.runs run = .absent :=
    fun run hrun => hfresh run (Nat.lt_of_succ_lt hrun)
  unfold Page.stopRun
  dsimp only
  split
  case isTrue hany =>
    -- the newest run has measured nothing: its report is finished here
    obtain ⟨r, hr, hunfinished⟩ := (Option.any_eq_true _ _).mp hany
    rcases hphase.settled_or_begun with ⟨hsettled, -⟩ | ⟨r', id, hreport, hbegun⟩
    · rw [(hsettled r hr).finished] at hunfinished
      cases hunfinished
    · obtain ⟨hreports, hdownload⟩ := finishReport_settled hreport hbegun message
      exact keeps_of_idle hopened hfresh rfl htimers rfl ⟨rfl, rfl⟩ rfl (.inl hnext) hreports
        hdownload
  case isFalse hany =>
    rcases hphase.settled_or_begun with ⟨hsettled, hdownload⟩ | ⟨r, id, hreport, hbegun⟩
    · exact keeps_of_idle hopened hfresh rfl htimers rfl ⟨rfl, rfl⟩ rfl (.inl hnext) hsettled
        hdownload
    · refine absurd ((Option.any_eq_true _ _).mpr ⟨r, hreport, ?_⟩) hany
      rw [hbegun.finished, Bool.not_false]

/-- A run that is not the newest one stops without a trace. -/
theorem Keeps.stale {run : ℕ} (h : s.Keeps) (hrun : run ≠ s.generation)
    (hawaits : (s.runs run).Awaits) (stage : RunStage) : (s.awaits run stage).Keeps where
  opened := h.opened
  created := h.created
  fresh later hlater := by
    have hne : later ≠ run := by
      intro heq
      exact hawaits.1 (heq ▸ h.fresh later hlater)
    exact (Function.update_of_ne hne _ _).trans (h.fresh later hlater)
  timer := h.timer
  timers := h.timers
  starts := h.starts
  stops := h.stops
  phase := h.phase.of_eq rfl rfl (Function.update_of_ne hrun.symm _ _) rfl rfl

/-- The newest run fails, wherever it is. -/
theorem keeps_failRun {r : PageReport ι} {id : Option ι}
    (hopened : ∀ n, s.nodes n = .opened → s.node = some n)
    (hfresh : ∀ run, s.generation < run → s.runs run = .absent)
    (htimers : ∀ t ∈ s.timers, t.run = s.generation ∧ some t.id = s.expiryTimer)
    (hreport : s.report = some r) (hbegun : r.Begun id) (error : Text) :
    (s.failRun s.generation error).Keeps := by
  rw [failRun, if_neg (not_not_intro rfl)]
  obtain ⟨hreports, hdownload⟩ := finishReport_settled hreport hbegun error
  refine keeps_of_idle (closeNode_nodes hopened) ?_ rfl (clearTimer_timers htimers) rfl ⟨rfl, rfl⟩
    rfl (.inr (Function.update_self _ _ _)) hreports hdownload
  intro run hrun
  exact (Function.update_of_ne hrun.ne' _ _).trans (hfresh run hrun)

/-- A run fails. -/
theorem Keeps.failRun {run : ℕ} (h : s.Keeps) (hawaits : (s.runs run).Awaits) (error : Text) :
    (s.failRun run error).Keeps := by
  by_cases hrun : run = s.generation
  · subst hrun
    obtain ⟨-, r, id, hreport, hbegun⟩ := h.phase.begun hawaits
    exact keeps_failRun h.opened h.fresh (fun _ ht => h.timer_of_mem ht) hreport hbegun error
  · rw [Page.failRun, if_pos hrun]
    exact h.stale hrun hawaits _

/-- A run begins: it has a node to come, or it has failed at once. -/
theorem Keeps.startRun (h : s.Keeps) (join : Bool) (invitation : Except Text (Option ℕ)) :
    (s.startRun join invitation).Keeps := by
  unfold Page.startRun
  split
  case isTrue hactive => exact h
  case isFalse hactive =>
    -- nothing is left of the run before
    have hnil := h.timers (Bool.eq_false_of_not_eq_true hactive)
    have hnode : s.node = none := by
      cases h.phase with
      | idle active node stage report download => exact node
      | opening r join active node stage report begun download => exact absurd active hactive
      | measuring r n id active node stage report begun download => exact absurd active hactive
      | measured r n active node stage report settled download => exact absurd active hactive
    have hfresh : ∀ run, s.generation + 1 < run → s.runs run = .absent :=
      fun run hrun => h.fresh run (Nat.lt_of_succ_lt hrun)
    have htimers : ∀ t ∈ s.timers, t.run = s.generation + 1 ∧ some t.id = s.expiryTimer := by
      rw [hnil]
      intro t ht
      cases ht
    have hbegun : (newReport join : PageReport ι).Begun none := PageReport.newReport_begun join
    have hfail := keeps_failRun (s := s.begin join) h.opened hfresh htimers rfl hbegun
    dsimp only
    split
    case h_1 error heq => exact hfail error
    case h_2 invite heq =>
      split
      case isTrue hnone => exact hfail noInvitation
      case isFalse hsome =>
        have htimer :=
          setTimer_timer (s := s.begin join) hnil (s.generation + 1) expiredMessage
        refine ⟨h.opened, h.created, ?_, fun _ => htimer, (fun h => by cases h), ⟨rfl, rfl⟩, rfl,
          ?_⟩
        · intro run hrun
          exact (Function.update_of_ne hrun.ne' _ _).trans (hfresh run hrun)
        · exact .opening _ join rfl hnode (.inl (Function.update_self _ _ _)) rfl
            (hbegun.pinged _) rfl

/-- The module is there: the newest run waits for its node now. -/
theorem Keeps.moduleLoaded {run : ℕ} {join : Bool} (h : s.Keeps)
    (hstage : s.runs run = .loading join) (error : Option Text) :
    (s.moduleLoaded run join error).Keeps := by
  have hawaits : (s.runs run).Awaits := hstage ▸ RunStage.loading_awaits join
  cases error with
  | some error => exact h.failRun hawaits error
  | none =>
    by_cases hrun : run = s.generation
    · subst hrun
      obtain ⟨r, hactive, hnode, hreport, hbegun, hdownload⟩ := h.phase.of_opening (.inl hstage)
      rw [Page.moduleLoaded, if_neg (not_not_intro rfl)]
      refine ⟨h.opened, h.created, ?_, h.timer, h.timers, h.starts, h.stops, ?_⟩
      · intro later hlater
        exact (Function.update_of_ne hlater.ne' _ _).trans (h.fresh later hlater)
      · exact .opening r join hactive hnode (.inr (Function.update_self _ _ _)) hreport hbegun
          hdownload
    · exact h.stale hrun hawaits _

/-- A node is there: it is the page's if its run is the newest, and closed at once if not. -/
theorem Keeps.nodeCreated {run n : ℕ} {join : Bool} (h : s.Keeps)
    (hstage : s.runs run = .starting join) (hn : s.nodes n = .absent) (id : ι) :
    (s.nodeCreated run join n id).Keeps := by
  have hawaits : (s.runs run).Awaits := hstage ▸ RunStage.starting_awaits join
  have hne : ∀ k, s.node = some k → k ≠ n := by
    intro k hk heq
    exact h.created k hk (heq ▸ hn)
  unfold Page.nodeCreated
  dsimp only
  split
  case isTrue hrun =>
    have hstale := h.stale hrun hawaits .ended
    have hnodes : ((({ s with nodes := Function.update s.nodes n .opened } : Page ι).closeNode
        (some n)).awaits run .ended).nodes = Function.update s.nodes n .closed :=
      Function.update_idem _ _ _
    refine ⟨?_, ?_, hstale.fresh, hstale.timer, hstale.timers, hstale.starts, hstale.stops,
      hstale.phase.of_eq rfl rfl rfl rfl rfl⟩
    · intro k hk
      rw [hnodes] at hk
      by_cases hkn : k = n
      · rw [hkn, Function.update_self] at hk
        cases hk
      · rw [Function.update_of_ne hkn] at hk
        exact h.opened k hk
    · intro k hk
      rw [hnodes, Function.update_of_ne (hne k hk)]
      exact h.created k hk
  case isFalse hrun =>
    obtain rfl := not_not.mp hrun
    obtain ⟨r, hactive, hnode, hreport, hbegun, hdownload⟩ := h.phase.of_opening (.inr hstage)
    refine ⟨?_, ?_, ?_, h.timer, h.timers, h.starts, h.stops, ?_⟩
    · intro k hk
      by_cases hkn : k = n
      · rw [hkn]
        rfl
      · have hopen : s.nodes k = .opened := (Function.update_of_ne hkn _ _).symm.trans hk
        rw [h.opened k hopen] at hnode
        cases hnode
    · intro k hk
      obtain rfl := Option.some.inj hk
      have hopen : Function.update s.nodes n .opened n = .opened := Function.update_self _ _ _
      exact hopen.trans_ne (by decide)
    · intro later hlater
      exact (Function.update_of_ne hlater.ne' _ _).trans (h.fresh later hlater)
    · exact .measuring _ n id hactive rfl (Function.update_self _ _ _)
        (congrArg (Option.map _) hreport) (hbegun.created id) hdownload

/-- There is a measurement: it is the newest run's, or nobody's. -/
theorem Keeps.echoMeasured {run : ℕ} (h : s.Keeps) (hstage : s.runs run = .measuring)
    (m : Measurement ι) : (s.echoMeasured run m).Keeps := by
  unfold Page.echoMeasured
  split
  case isTrue hrun => exact h.stale hrun (hstage ▸ RunStage.measuring_awaits) _
  case isFalse hrun =>
    obtain rfl := not_not.mp hrun
    obtain ⟨r, n, id, hactive, hnode, hreport, hbegun⟩ := h.phase.of_measuring hstage
    have htimer :=
      setTimer_timer (clearTimer_timers fun _ => h.timer_of_mem) s.generation closedMessage
    refine ⟨h.opened, h.created, ?_, fun _ => htimer, ?_, h.starts, h.stops, ?_⟩
    · intro later hlater
      exact (Function.update_of_ne hlater.ne' _ _).trans (h.fresh later hlater)
    · intro hinactive
      cases hactive.symm.trans hinactive
    · exact .measured _ n hactive hnode (Function.update_self _ _ _)
        (congrArg (Option.map _) hreport) (hbegun.measuredSettled m) rfl

theorem Keeps.invitationUI (h : s.Keeps) (invitation : Except Text (Option ℕ)) :
    (s.invitationUI invitation).Keeps := by
  have hphase : ∀ shown hidden,
      ({ s with startHidden := shown, joinHidden := hidden } : Page ι).Keeps :=
    fun _ _ => ⟨h.opened, h.created, h.fresh, h.timer, h.timers, h.starts, h.stops,
      h.phase.of_eq rfl rfl rfl rfl rfl⟩
  unfold Page.invitationUI
  split
  case isTrue hactive => exact h
  case isFalse hactive =>
    cases invitation with
    | ok invite => exact hphase _ _
    | error error => exact hphase _ _

/-- A page that is hidden closes its node and keeps it. -/
theorem Keeps.pagehide (h : s.Keeps) : (s.closeNode s.node).Keeps := by
  refine ⟨fun n hn => absurd hn (closeNode_nodes h.opened n), ?_, h.fresh, h.timer, h.timers,
    h.starts, h.stops, h.phase.of_eq rfl rfl rfl rfl rfl⟩
  intro n hn
  rw [show s.node = some n from hn, closeNode_some, Function.update_self]
  decide

/-- Every step keeps the invariant. -/
theorem keeps_step {event : PageEvent ι} (h : s.Keeps) (hstep : step event s = some t) :
    t.Keeps := by
  cases event with
  | click join invitation =>
    obtain rfl := Option.some.inj hstep
    exact h.startRun join invitation
  | loaded run error =>
    simp only [step] at hstep
    split at hstep
    case h_1 join hstage =>
      obtain rfl := Option.some.inj hstep
      exact h.moduleLoaded hstage error
    case h_2 => cases hstep
  | created run result =>
    simp only [step] at hstep
    split at hstep
    case h_1 join hstage =>
      split at hstep
      case h_1 error =>
        obtain rfl := Option.some.inj hstep
        exact h.failRun (hstage ▸ RunStage.starting_awaits join) error
      case h_2 n id =>
        obtain ⟨hn, rfl⟩ := of_guarded hstep
        exact h.nodeCreated hstage hn id
    case h_2 => cases hstep
  | measured run result =>
    simp only [step] at hstep
    split at hstep
    case h_1 hstage =>
      split at hstep
      case h_1 error =>
        obtain rfl := Option.some.inj hstep
        exact h.failRun (hstage ▸ RunStage.measuring_awaits) error
      case h_2 m =>
        obtain rfl := Option.some.inj hstep
        exact h.echoMeasured hstage m
    case h_2 => cases hstep
  | stop =>
    obtain rfl := Option.some.inj hstep
    exact keeps_stopRun h.opened h.fresh (fun _ => h.timer_of_mem) h.phase stopMessage
  | fires timer =>
    obtain ⟨htimer, rfl⟩ := of_guarded hstep
    -- a timer that fires is one of the newest run
    rw [if_pos (h.timer_of_mem htimer).1]
    exact keeps_stopRun (s := { s with timers := s.timers.erase timer }) h.opened h.fresh
      (fun _ ht => h.timer_of_mem (List.mem_of_mem_erase ht))
      (h.phase.of_eq rfl rfl rfl rfl rfl) timer.message
  | hashchange invitation =>
    obtain rfl := Option.some.inj hstep
    exact h.invitationUI invitation
  | pagehide =>
    obtain rfl := Option.some.inj hstep
    exact h.pagehide

theorem keeps_run {es : List (PageEvent ι)} (hrun : run step start es = some t) : t.Keeps :=
  run_induct (P := fun _ t => t.Keeps) keeps_start (fun _ _ _ _ _ h => keeps_step h) hrun

/-- An open node is that of a run that is on. -/
theorem Keeps.active_of_opened (h : s.Keeps) {n : ℕ} (hn : s.nodes n = .opened) :
    s.node = some n ∧ s.active = true := by
  have hnode := h.opened n hn
  refine ⟨hnode, ?_⟩
  cases h.phase with
  | idle active node stage report download => cases hnode.symm.trans node
  | opening r join active node stage report begun download => exact active
  | measuring r n id active node stage report begun download => exact active
  | measured r n active node stage report settled download => exact active

theorem stopRun_active (message : Text) : (s.stopRun message).active = false := by
  unfold Page.stopRun
  dsimp only
  split <;> rfl

theorem stopRun_report {r : PageReport ι} (hreport : s.report = some r)
    (hfinished : r.finished = true) (message : Text) : (s.stopRun message).report = some r := by
  unfold Page.stopRun
  dsimp only
  split
  case isTrue hany =>
    obtain ⟨r', hr', hunfinished⟩ := (Option.any_eq_true _ _).mp hany
    obtain rfl := Option.some.inj (hreport.symm.trans hr')
    rw [hfinished] at hunfinished
    cases hunfinished
  case isFalse hany => exact hreport

/-- A run with something to wait for is not the one whose report is finished. -/
theorem Keeps.ne_generation {r : PageReport ι} {run : ℕ} (h : s.Keeps) (hreport : s.report = some r)
    (hfinished : r.finished = true) (hawaits : (s.runs run).Awaits) : run ≠ s.generation := by
  rintro rfl
  obtain ⟨-, r', id, hr', hbegun⟩ := h.phase.begun hawaits
  obtain rfl := Option.some.inj (hreport.symm.trans hr')
  cases hfinished.symm.trans hbegun.finished

/-- Only a new run takes the place of a finished report. -/
theorem report_step {r : PageReport ι} {event : PageEvent ι} (h : s.Keeps)
    (hreport : s.report = some r) (hfinished : r.finished = true)
    (hquiet : Quiet event s) (hstep : step event s = some t) : t.report = some r := by
  -- the newest run has reported, so what arrives is for an older one
  have hne : ∀ run, (s.runs run).Awaits → run ≠ s.generation :=
    fun _ => h.ne_generation hreport hfinished
  cases event with
  | click join invitation =>
    obtain rfl := Option.some.inj hstep
    have hactive : s.active = true := hquiet
    rw [Page.startRun, if_pos hactive]
    exact hreport
  | loaded run error =>
    simp only [step] at hstep
    split at hstep
    case h_1 join hstage =>
      obtain rfl := Option.some.inj hstep
      have hstale := hne run (hstage ▸ RunStage.loading_awaits join)
      cases error with
      | some error => rwa [Page.moduleLoaded, Page.failRun, if_pos hstale]
      | none => exact hreport
    case h_2 => cases hstep
  | created run result =>
    simp only [step] at hstep
    split at hstep
    case h_1 join hstage =>
      have hstale := hne run (hstage ▸ RunStage.starting_awaits join)
      split at hstep
      case h_1 error =>
        obtain rfl := Option.some.inj hstep
        rwa [Page.failRun, if_pos hstale]
      case h_2 n id =>
        obtain ⟨-, rfl⟩ := of_guarded hstep
        rw [Page.nodeCreated, if_pos hstale]
        exact hreport
    case h_2 => cases hstep
  | measured run result =>
    simp only [step] at hstep
    split at hstep
    case h_1 hstage =>
      have hstale := hne run (hstage ▸ RunStage.measuring_awaits)
      split at hstep
      case h_1 error =>
        obtain rfl := Option.some.inj hstep
        rwa [Page.failRun, if_pos hstale]
      case h_2 m =>
        obtain rfl := Option.some.inj hstep
        rwa [Page.echoMeasured, if_pos hstale]
    case h_2 => cases hstep
  -- neither the button nor the timer reports on a finished run
  | stop =>
    obtain rfl := Option.some.inj hstep
    exact stopRun_report hreport hfinished stopMessage
  | fires timer =>
    obtain ⟨htimer, rfl⟩ := of_guarded hstep
    rw [if_pos (h.timer_of_mem htimer).1]
    exact stopRun_report (s := { s with timers := s.timers.erase timer }) hreport hfinished _
  | hashchange invitation =>
    obtain rfl := Option.some.inj hstep
    unfold Page.invitationUI
    split
    case isTrue hactive => exact hreport
    case isFalse hactive =>
      cases invitation with
      | ok invite => exact hreport
      | error error => exact hreport
  | pagehide =>
    obtain rfl := Option.some.inj hstep
    exact hreport

end Page

/-! ## What holds of every page -/

/-- Whatever is clicked and in whichever order modules are loaded, nodes are there, measurements
come and timers fire: an open node is the one that the page can still close, the controls are
those of what is going on, and a report is either finished, with a measurement or an error, or
that of the run that is on.  A page with a run always has a timer that ends it. -/
theorem page_keeps {es : List (PageEvent ι)} {s : Page ι}
    (hrun : run Page.step Page.start es = some s) :
    (∀ n, s.nodes n = .opened → s.node = some n ∧ s.active = true) ∧
      s.startDisabled = s.active ∧ s.joinDisabled = s.active ∧ s.stopDisabled = !s.active ∧
      (s.active = false → s.timers = []) ∧
      (s.active = true → ∃ timer t, s.timers = [timer] ∧
        Page.step (.fires timer) s = some t ∧ t.active = false ∧ ∀ n, t.nodes n ≠ .opened) ∧
      (s.report = none → s.active = false ∧ s.downloadDisabled = true) ∧
      ∀ r, s.report = some r →
        r.Settled ∧ s.downloadDisabled = false ∨
          (∃ id, r.Begun id) ∧ s.active = true ∧ s.downloadDisabled = true := by
  have h := Page.keeps_run hrun
  refine ⟨fun n => h.active_of_opened, h.starts.1, h.starts.2, h.stops, h.timers, ?_, ?_, ?_⟩
  · intro hactive
    obtain ⟨timer, hone, hcurrent, -⟩ := h.timer hactive
    have hmem : timer ∈ s.timers := by
      rw [hone]
      exact List.mem_singleton_self timer
    obtain ⟨t, hstep⟩ : ∃ t, Page.step (.fires timer) s = some t := ⟨_, if_pos hmem⟩
    have hinactive : t.active = false := by
      obtain ⟨-, rfl⟩ := of_guarded hstep
      rw [if_pos hcurrent]
      exact Page.stopRun_active timer.message
    refine ⟨timer, t, hone, hstep, hinactive, ?_⟩
    intro n hn
    cases hinactive.symm.trans ((Page.keeps_step h hstep).active_of_opened hn).2
  · intro hnone
    cases h.phase with
    | idle active node stage report download =>
      refine ⟨active, ?_⟩
      rw [download, hnone, Option.isNone_none]
    | opening r join active node stage report begun download => cases hnone.symm.trans report
    | measuring r n id active node stage report begun download => cases hnone.symm.trans report
    | measured r n active node stage report settled download => cases hnone.symm.trans report
  · intro r hr
    cases h.phase with
    | idle active node stage report download =>
      refine .inl ⟨report r hr, ?_⟩
      rw [download, hr, Option.isNone_some]
    | opening r' join active node stage report begun download =>
      obtain rfl := Option.some.inj (report.symm.trans hr)
      exact .inr ⟨⟨none, begun⟩, active, download⟩
    | measuring r' n id active node stage report begun download =>
      obtain rfl := Option.some.inj (report.symm.trans hr)
      exact .inr ⟨⟨some id, begun⟩, active, download⟩
    | measured r' n active node stage report settled download =>
      obtain rfl := Option.some.inj (report.symm.trans hr)
      exact .inl ⟨settled, download⟩

/-- A run that is stopped while its node is started, and a run that dials. -/
def twoRuns : List (PageEvent ℕ) :=
  [.click false (.ok none), .loaded 1 none, .stop, .click true (.ok (some 30)),
    .created 1 (.ok (7, 1)), .loaded 3 none, .created 3 (.ok (8, 2))]

/-- The node that comes too late is closed; the other is the page's. -/
theorem page_keeps_twoRuns : ∃ s, run Page.step Page.start twoRuns = some s ∧
    s.nodes 7 = .closed ∧ s.nodes 8 = .opened ∧ s.node = some 8 ∧ s.stopDisabled = false := by
  have hruns : (run Page.step Page.start twoRuns).map
      (fun s => (s.nodes 7, s.nodes 8, s.stopDisabled)) = some (.closed, .opened, false) := by
    decide +kernel
  obtain ⟨s, hs, h⟩ := Option.map_eq_some_iff.mp hruns
  simp only [Prod.mk.injEq] at h
  obtain ⟨h7, h8, hstop⟩ := h
  exact ⟨s, hs, h7, h8, ((page_keeps hs).1 8 h8).1, hstop⟩

/-- A report that is finished stays as it is until the next run begins, whatever the promises of
earlier runs come to. -/
theorem finished_report_stays {es fs : List (PageEvent ι)} {s t : Page ι} {r : PageReport ι}
    (hrun : run Page.step Page.start es = some s) (hreport : s.report = some r)
    (hfinished : r.finished = true)
    (hmeets : Meets Page.step Page.Quiet s fs) (hrest : run Page.step s fs = some t) :
    t.report = some r := by
  have hkept : t.Keeps ∧ t.report = some r := by
    refine run_induct_meets (P := fun _ m => m.Keeps ∧ m.report = some r)
      ⟨Page.keeps_run hrun, hreport⟩ ?_ hmeets hrest
    rintro - m event m' - ⟨hkeeps, hreport⟩ hquiet hstep
    exact ⟨Page.keeps_step hkeeps hstep, Page.report_step hkeeps hreport hfinished hquiet hstep⟩
  exact hkept.2

/-- What comes of a run that is stopped does not show in its report. -/
def lateEvents : List (PageEvent ℕ) := [.created 1 (.ok (7, 1)), .hashchange (.ok none), .pagehide]

/-- A report that says that its run was stopped says so in the end. -/
theorem finished_report_stays_late : ∃ s t r,
    run Page.step Page.start (twoRuns.take 3) = some s ∧ s.report = some r ∧
      r.error = some stopMessage ∧ run Page.step s lateEvents = some t ∧ t.report = some r := by
  have hstopped : (run Page.step Page.start (twoRuns.take 3)).map
      (fun s => (s.report.map (fun r => (r.finished, r.error)), (run Page.step s lateEvents).isSome,
        decide (Meets Page.step Page.Quiet s lateEvents))) =
      some (some (true, some stopMessage), true, true) := by
    decide +kernel
  obtain ⟨s, hs, h⟩ := Option.map_eq_some_iff.mp hstopped
  simp only [Prod.mk.injEq, decide_eq_true_eq] at h
  obtain ⟨hreport, hsome, hmeets⟩ := h
  obtain ⟨r, hr, hfields⟩ := Option.map_eq_some_iff.mp hreport
  obtain ⟨t, ht⟩ := Option.isSome_iff_exists.mp hsome
  simp only [Prod.mk.injEq] at hfields
  exact ⟨s, t, r, hs, hr, hfields.2, ht, finished_report_stays hs hr hfields.1 hmeets ht⟩

end IrohExperiment.Browser
