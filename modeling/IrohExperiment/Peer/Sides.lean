/-
# One side of the peer experiment (`worker/public/peer.js`)

What a step of one side can do to its verdict, and what holds of the offerer and of the
answerer whatever comes their way: what each has sent, what it has received, and what its
report says once it is complete.

`Experiment.step` is one side of `peer.js`.  `step_change` says what a step does to the
verdict, `step_quiet` that most inputs leave the transfer alone, `step_grows` that messages
are handled in order and once, and `Sound.step` keeps what every report is sound for.
-/
import IrohExperiment.Peer.Experiment
import IrohExperiment.History.Run

namespace IrohExperiment.Peer

namespace Experiment

variable {x y : Experiment}

/-! ## Messages -/

/-- A message is sent, behind all that were sent before, exactly if the channel is open and its
buffer has room. -/
theorem send_eq_some {m : Message} :
    x.send m = some y ↔ (x.readyState = .opened ∧ x.full = false) ∧
      { x with sent := x.sent ++ [m] } = y := by
  unfold send
  split_ifs with h
  · rw [Option.some_inj, and_iff_right h]
  · exact iff_of_false id fun h' => h h'.1

/-- An exchange that may begin has sent its message and waits for the answer, or is over at once
because the message could not be sent. -/
theorem exchange_cases (h : x.pending = none) (kind : Kind) (m : Message) :
    x.exchange kind m = some { x with pending := some kind, reply := none, sent := x.sent ++ [m] } ∨
      x.exchange kind m = some { x with pending := none, reply := some (.error sendError) } := by
  have hfree : ¬ x.pending.isSome = true := by
    rw [h]
    exact Bool.false_ne_true
  unfold exchange
  rw [if_neg hfree]
  dsimp only
  split
  · rename_i z hsend
    obtain ⟨-, rfl⟩ := send_eq_some.mp hsend
    exact .inl rfl
  · exact .inr rfl

/-- There is one exchange at a time. -/
theorem exchange_pending {kind : Kind} {m : Message} (h : x.exchange kind m = some y) :
    x.pending = none := by
  unfold exchange at h
  split_ifs at h with hpending
  simpa using hpending

/-! ## Candidates -/

/-- A local candidate changes the list of local candidates and nothing else, or it ends the
experiment with a failure. -/
theorem iceCandidate_cases (x : Experiment) (parsed : Candidate) (signals : Bool) :
    (∃ candidates, x.onIceCandidate parsed signals = { x with localCandidates := candidates }) ∨
      ∃ candidates message stage,
        x.onIceCandidate parsed signals =
          ({ x with localCandidates := candidates } : Experiment).fail message stage := by
  unfold onIceCandidate
  by_cases hclosed : (x.ended || x.done) = true
  · rw [if_pos hclosed]
    exact .inl ⟨x.localCandidates, rfl⟩
  rw [if_neg hclosed]
  split
  · exact .inl ⟨x.localCandidates, rfl⟩
  · dsimp only
    split_ifs
    · exact .inl ⟨_, rfl⟩
    · exact .inr ⟨_, _, _, rfl⟩

/-- A remote candidate only changes the list of remote candidates: what is not accepted is passed
over without a failure. -/
theorem remoteCandidate_cases (x : Experiment) (parsed : Candidate) :
    ∃ candidates, x.onRemoteCandidate parsed = { x with remoteCandidates := candidates } := by
  unfold onRemoteCandidate
  split_ifs
  · exact ⟨x.remoteCandidates, rfl⟩
  · split
    · exact ⟨x.remoteCandidates, rfl⟩
    · exact ⟨_, rfl⟩

/-! ## Verdicts -/

/-- The side has the same verdict, and is no less ended and no less open than it was. -/
structure Same (x y : Experiment) : Prop where
  done : y.done = x.done
  echoSuccess : y.report.echoSuccess = x.report.echoSuccess
  natTraversalSuccess : y.report.natTraversalSuccess = x.report.natTraversalSuccess
  failureStage : y.report.failureStage = x.report.failureStage
  failureReason : y.report.failureReason = x.report.failureReason
  ended : x.ended = true → y.ended = true
  readyState : y.readyState = .connecting → x.readyState = .connecting

theorem Same.refl (x : Experiment) : Same x x := ⟨rfl, rfl, rfl, rfl, rfl, id, id⟩

theorem Same.trans {z : Experiment} (h : Same x y) (h' : Same y z) : Same x z where
  done := h'.done.trans h.done
  echoSuccess := h'.echoSuccess.trans h.echoSuccess
  natTraversalSuccess := h'.natTraversalSuccess.trans h.natTraversalSuccess
  failureStage := h'.failureStage.trans h.failureStage
  failureReason := h'.failureReason.trans h.failureReason
  ended := h'.ended ∘ h.ended
  readyState := h.readyState ∘ h'.readyState

/-- An error that is caught does not change the verdict. -/
theorem same_throws (x : Experiment) (message stage : String) : Same x (x.throws message stage) :=
  ⟨rfl, rfl, rfl, rfl, rfl, id, id⟩

/-- Giving up the exchange that is awaited does not change the verdict. -/
theorem same_reject (x : Experiment) (message : String) : Same x (x.reject message) := by
  unfold reject
  split_ifs
  · exact ⟨rfl, rfl, rfl, rfl, rfl, id, id⟩
  · exact Same.refl x

/-- What cleaning up closes and gives up does not change the verdict. -/
theorem same_cleanup (x : Experiment) : Same x x.cleanup := by
  obtain ⟨hdone, hecho, hnat, hstage, hreason, -, -⟩ :=
    same_reject { x with ended := true } "測定を終了しました。"
  refine ⟨hdone, hecho, hnat, hstage, hreason, fun _ => ?_, fun h => by cases h⟩
  unfold cleanup reject
  split_ifs <;> rfl

/-- Cleaning up ends a side. -/
theorem cleanup_ended (x : Experiment) : x.cleanup.ended = true := by
  unfold cleanup reject
  split_ifs <;> rfl

/-- A message that is sent does not change the verdict, and neither does any step of the transfer
before the last one. -/
theorem same_send {m : Message} (h : x.send m = some y) : Same x y := by
  obtain ⟨-, rfl⟩ := send_eq_some.mp h
  exact ⟨rfl, rfl, rfl, rfl, rfl, id, id⟩

theorem same_exchange {kind : Kind} {m : Message} (h : x.exchange kind m = some y) : Same x y := by
  rcases exchange_cases (exchange_pending h) kind m with hy | hy <;> rw [h] at hy <;>
    obtain rfl := Option.some.inj hy <;> exact ⟨rfl, rfl, rfl, rfl, rfl, id, id⟩

/-- What is done when the channel has opened leaves the verdict to the transfer. -/
theorem same_opened (x : Experiment) (stats : Except String Stats) (ice : Bool) :
    Same x (x.opened stats ice) := by
  unfold opened
  split
  · exact same_throws x _ _
  · dsimp only
    split_ifs
    · exact ⟨rfl, rfl, rfl, rfl, rfl, id, id⟩
    · split
      · rename_i h
        refine Same.trans ?_ (same_send h)
        exact ⟨rfl, rfl, rfl, rfl, rfl, id, id⟩
      · exact ⟨rfl, rfl, rfl, rfl, rfl, id, id⟩
    · exact ⟨rfl, rfl, rfl, rfl, rfl, id, id⟩

theorem same_sendBlock (x : Experiment) (index : ℕ) : Same x (x.sendBlock index) := by
  unfold sendBlock
  split_ifs
  · split
    · rename_i h
      exact (same_exchange h).trans ⟨rfl, rfl, rfl, rfl, rfl, id, id⟩
    · exact ⟨rfl, rfl, rfl, rfl, rfl, id, id⟩
  · exact ⟨rfl, rfl, rfl, rfl, rfl, id, id⟩

theorem same_sendBlocks (x : Experiment) (stats : Except String Stats) :
    Same x (x.sendBlocks stats) := by
  unfold sendBlocks
  split
  · exact ⟨rfl, rfl, rfl, rfl, rfl, id, id⟩
  · dsimp only
    split_ifs
    · exact ⟨rfl, rfl, rfl, rfl, rfl, id, id⟩
    · refine Same.trans ?_ (same_sendBlock _ 0)
      exact ⟨rfl, rfl, rfl, rfl, rfl, id, id⟩

theorem same_echoed (x : Experiment) (index : ℕ) (m : Message) : Same x (x.echoed index m) := by
  unfold echoed
  split_ifs
  · exact ⟨rfl, rfl, rfl, rfl, rfl, id, id⟩
  · exact same_sendBlock x _

theorem same_sendComplete (x : Experiment) (stats : Except String Stats) :
    Same x (x.sendComplete stats) := by
  unfold sendComplete
  split
  · exact ⟨rfl, rfl, rfl, rfl, rfl, id, id⟩
  · dsimp only
    split_ifs
    · exact ⟨rfl, rfl, rfl, rfl, rfl, id, id⟩
    · split
      · rename_i z h
        have hsame : Same _ z := same_exchange h
        exact ⟨hsame.done, hsame.echoSuccess, hsame.natTraversalSuccess, hsame.failureStage,
          hsame.failureReason, hsame.ended, hsame.readyState⟩
      · exact ⟨rfl, rfl, rfl, rfl, rfl, id, id⟩

theorem same_echoBlock (x : Experiment) (data : Message) : Same x (x.echoBlock data) := by
  unfold echoBlock
  dsimp only
  split_ifs
  · exact same_throws x _ _
  · exact ⟨rfl, rfl, rfl, rfl, rfl, id, id⟩
  · split
    · rename_i h
      refine Same.trans ?_ (same_send h)
      exact ⟨rfl, rfl, rfl, rfl, rfl, id, id⟩
    · exact ⟨rfl, rfl, rfl, rfl, rfl, id, id⟩

/-- What arrives does not change the verdict before it is handled. -/
theorem same_onData (x : Experiment) (data : Message) : Same x (x.onData data) := by
  unfold onData
  by_cases hended : x.ended = true
  · rw [if_pos hended]
    exact Same.refl x
  rw [if_neg hended]
  by_cases hlength : 10000 < data.stringify.length
  · rw [if_pos hlength]
    exact same_throws x _ _
  rw [if_neg hlength]
  by_cases hpending : x.pending = some data.type
  · rw [if_pos hpending]
    exact ⟨rfl, rfl, rfl, rfl, rfl, id, id⟩
  · rw [if_neg hpending]
    cases data.type with
    | ready =>
      show Same x x.senderReady
      unfold senderReady
      split_ifs <;> exact ⟨rfl, rfl, rfl, rfl, rfl, id, id⟩
    | data => exact same_echoBlock x data
    | complete =>
      show Same x (x.receiveComplete data)
      unfold receiveComplete
      split_ifs <;> exact ⟨rfl, rfl, rfl, rfl, rfl, id, id⟩
    | receipt =>
      dsimp only
      split_ifs
      · exact same_throws x _ _
      · exact same_cleanup x
    | echo => exact same_throws x _ _
    | completeAck => exact same_throws x _ _

/-- What a step can do to a verdict, where it completes under a condition only. -/
inductive Change (awaits : Prop) (x y : Experiment) : Prop where
  | same (h : Same x y)
  /-- a live side that is not complete fails -/
  | failed (hlive : x.ended = false ∧ x.done = false) (hended : y.ended = true)
      (hdone : y.done = false)
      (hecho : y.report.echoSuccess = x.report.echoSuccess) (hready : y.readyState ≠ .connecting)
  /-- a live side completes -/
  | completed (hawaits : awaits) (hlive : x.ended = false) (hdone : y.done = true)
      (hecho : y.report.echoSuccess = some true)
      (hstage : y.report.failureStage = x.report.failureStage)
      (hready : y.readyState = .connecting → x.readyState = .connecting)
  /-- the channel opens -/
  | opened (hlive : x.ended = false) (hconnecting : x.readyState = .connecting)
      (hdone : y.done = x.done)
      (hecho : y.report.echoSuccess = some false)
      (hstage : y.report.failureStage = x.report.failureStage)
      (hready : y.readyState ≠ .connecting)

variable {awaits : Prop}

/-- Steps that keep the verdict may come before a change of it. -/
theorem Change.before {z : Experiment} (h : Same x y) (h' : Change awaits y z) :
    Change awaits x z := by
  have hlive : y.ended = false → x.ended = false := by
    intro hy
    refine Bool.eq_false_iff.mpr fun hx => ?_
    exact absurd (h.ended hx) (Bool.eq_false_iff.mp hy)
  rcases h' with h' | ⟨⟨hy, hnot⟩, hended, hdone, hecho, hready⟩ | ⟨hawaits, hy, hdone, hecho,
    hstage, hready⟩ |
    ⟨hy, hconnecting, hdone, hecho, hstage, hready⟩
  · exact .same (h.trans h')
  · exact .failed ⟨hlive hy, h.done.symm.trans hnot⟩ hended hdone (hecho.trans h.echoSuccess) hready
  · exact .completed hawaits (hlive hy) hdone hecho (hstage.trans h.failureStage)
      (h.readyState ∘ hready)
  · exact .opened (hlive hy) (h.readyState hconnecting)
      (hdone.trans h.done) hecho (hstage.trans h.failureStage) hready

/-- Steps that keep the verdict may come behind a change of it. -/
theorem Change.after {z : Experiment} (h : Change awaits x y) (h' : Same y z) :
    Change awaits x z := by
  rcases h with h | ⟨hlive, hended, hdone, hecho, hready⟩ | ⟨hawaits, hlive, hdone, hecho,
    hstage, hready⟩ |
    ⟨hlive, hconnecting, hdone, hecho, hstage, hready⟩
  · exact .same (h.trans h')
  · exact .failed hlive (h'.ended hended) (h'.done.trans hdone) (h'.echoSuccess.trans hecho)
      (hready ∘ h'.readyState)
  · exact .completed hawaits hlive (h'.done.trans hdone) (h'.echoSuccess.trans hecho)
      (h'.failureStage.trans hstage) (hready ∘ h'.readyState)
  · exact .opened hlive hconnecting (h'.done.trans hdone) (h'.echoSuccess.trans hecho)
      (h'.failureStage.trans hstage) (hready ∘ h'.readyState)

/-- A failure is reported once, by a live side that is not complete, and ends it; any later one
changes nothing. -/
theorem change_fail (x : Experiment) (message stage : String) :
    Change awaits x (x.fail message stage) := by
  unfold fail
  split_ifs with h
  · exact .same (Same.refl x)
  · rw [Bool.or_eq_true, not_or, Bool.not_eq_true, Bool.not_eq_true] at h
    have hsame := same_cleanup
      { x with
        report.failureStage := some stage
        report.failureReason := some message }
    exact .failed h (cleanup_ended _)
      (hsame.done.trans h.2) hsame.echoSuccess ReadyState.noConfusion

/-- A side completes only if its program may await the end of the transfer. -/
theorem change_complete (hawaits : awaits) (x : Experiment) (evidence : Option Evidence) :
    Change awaits x (x.complete evidence) := by
  unfold complete
  split_ifs with h
  · exact .same (Same.refl x)
  · exact .completed hawaits (Bool.eq_false_iff.mpr h) rfl rfl rfl id

/-- The offerer completes with the acknowledgement of its totals; where they differ the verdict
stays with whoever catches the error. -/
theorem change_acked (hawaits : awaits) (x : Experiment) (peer : Message) :
    Change awaits x (x.acked peer) := by
  unfold acked
  dsimp only
  split_ifs
  · exact .same ⟨rfl, rfl, rfl, rfl, rfl, id, id⟩
  · set z : Experiment := { x with payload := .returned }
    have hbefore : Same x z := ⟨rfl, rfl, rfl, rfl, rfl, id, id⟩
    refine Change.after ((change_complete hawaits z peer.evidence).before hbefore) ?_
    split
    · rename_i y h
      refine (same_send h).trans ?_
      exact ⟨rfl, rfl, rfl, rfl, rfl, id, id⟩
    · exact same_throws _ _ _

/-- The answerer completes once its acknowledgement has been sent; where it cannot be the verdict
stays with whoever catches the error. -/
theorem change_sendAck (hawaits : awaits) (x : Experiment) (data : Message)
    (stats : Except String Stats) :
    Change awaits x (x.sendAck data stats) := by
  unfold sendAck
  split
  · exact .same (same_throws x _ _)
  · dsimp only
    split_ifs
    · exact .same ⟨rfl, rfl, rfl, rfl, rfl, id, id⟩
    · split
      · rename_i z h
        have hbefore : Same x z := by
          refine Same.trans ?_ (same_send h)
          exact ⟨rfl, rfl, rfl, rfl, rfl, id, id⟩
        refine Change.after ((change_complete hawaits z data.evidence).before hbefore) ?_
        exact ⟨rfl, rfl, rfl, rfl, rfl, id, id⟩
      · exact .same ⟨rfl, rfl, rfl, rfl, rfl, id, id⟩

/-- When the channel opens the report of a live side begins to say that there is no echo yet. -/
theorem change_onOpen (x : Experiment) (h : x.readyState = .connecting) :
    Change awaits x ({ x with readyState := .opened } : Experiment).onOpen := by
  unfold onOpen
  dsimp only
  split_ifs with hended
  · exact .same ⟨rfl, rfl, rfl, rfl, rfl, id, fun h => ReadyState.noConfusion h⟩
  · exact .opened (Bool.eq_false_iff.mpr hended) h rfl rfl rfl ReadyState.noConfusion

/-- What a step of one side does to its verdict. -/
theorem step_change {input : Input} (h : x.step input = some y) :
    Change (x.payload = .acking ∨ x.handling.isSome = true) x y := by
  cases input with
  | opens =>
    obtain ⟨hconnecting, rfl⟩ := History.of_guarded h
    exact change_onOpen x hconnecting
  | openStats stats ice =>
    obtain ⟨-, rfl⟩ := History.of_guarded h
    refine .same (Same.trans ?_ (same_opened _ _ _))
    exact ⟨rfl, rfl, rfl, rfl, rfl, id, id⟩
  | handle =>
    unfold step handleNext at h
    dsimp only at h
    split at h
    · obtain rfl := Option.some.inj h
      -- data alone decide nothing, the verdict waits for what they set off
      refine .same (Same.trans ?_ (same_onData _ _))
      exact ⟨rfl, rfl, rfl, rfl, rfl, id, id⟩
    · cases h
  | payloadStats stats =>
    unfold step payloadStats at h
    dsimp only at h
    split at h
    · obtain rfl := Option.some.inj h
      exact .same (same_sendBlocks x stats)
    · obtain rfl := Option.some.inj h
      exact .same (same_sendComplete x stats)
    · cases h
  | completeStats stats =>
    obtain ⟨data, hhandling, rfl⟩ := Option.map_eq_some_iff.mp h
    have hawaits : x.handling.isSome = true := Option.isSome_of_eq_some hhandling
    -- the answerer gets its verdict when it sends the acknowledgement
    refine Change.before ?_ (change_sendAck (.inr hawaits) _ _ _)
    exact ⟨rfl, rfl, rfl, rfl, rfl, id, id⟩
  | settled =>
    unfold step settled at h
    dsimp only at h
    split at h
    · obtain rfl := Option.some.inj h
      refine .same (Same.trans ?_ (same_echoed _ _ _))
      exact ⟨rfl, rfl, rfl, rfl, rfl, id, id⟩
    -- and the offerer when the acknowledgement has come
    · rename_i hpayload hreply
      obtain rfl := Option.some.inj h
      refine Change.before ?_ (change_acked (.inl hpayload) _ _)
      exact ⟨rfl, rfl, rfl, rfl, rfl, id, id⟩
    · obtain rfl := Option.some.inj h
      exact .same ⟨rfl, rfl, rfl, rfl, rfl, id, id⟩
    · obtain rfl := Option.some.inj h
      exact .same ⟨rfl, rfl, rfl, rfl, rfl, id, id⟩
    · cases h
  | timeout =>
    obtain ⟨-, rfl⟩ := History.of_guarded h
    exact .same (same_reject x _)
  | catches =>
    unfold step catches at h
    dsimp only at h
    split at h
    · obtain rfl := Option.some.inj h
      refine Change.before ?_ (change_fail _ _ _)
      exact ⟨rfl, rfl, rfl, rfl, rfl, id, id⟩
    · cases h
  | closes =>
    obtain rfl := Option.some.inj h
    exact .same ⟨rfl, rfl, rfl, rfl, rfl, id, fun h => ReadyState.noConfusion h⟩
  | buffer full =>
    obtain rfl := Option.some.inj h
    exact .same ⟨rfl, rfl, rfl, rfl, rfl, id, id⟩
  | cleanupTimer =>
    obtain ⟨-, rfl⟩ := History.of_guarded h
    refine .same (Same.trans ?_ (same_cleanup _))
    exact ⟨rfl, rfl, rfl, rfl, rfl, id, id⟩
  | trouble trouble =>
    obtain rfl := Option.some.inj h
    split_ifs
    · exact change_fail x _ _
    · exact .same (Same.refl x)
  | stop =>
    obtain rfl := Option.some.inj h
    split_ifs
    · exact .same (same_cleanup x)
    · exact change_fail x _ _
  | begin =>
    obtain rfl := Option.some.inj h
    exact .same (same_cleanup x)
  | localCandidate parsed signals =>
    obtain rfl := Option.some.inj h
    rcases iceCandidate_cases x parsed signals with
      ⟨candidates, hx⟩ | ⟨candidates, message, stage, hx⟩ <;> rw [hx]
    · exact .same ⟨rfl, rfl, rfl, rfl, rfl, id, id⟩
    · refine Change.before ?_ (change_fail _ _ _)
      exact ⟨rfl, rfl, rfl, rfl, rfl, id, id⟩
  | remoteCandidate parsed =>
    obtain rfl := Option.some.inj h
    obtain ⟨candidates, hx⟩ := remoteCandidate_cases x parsed
    rw [hx]
    exact .same ⟨rfl, rfl, rfl, rfl, rfl, id, id⟩

/-- **A closed side keeps its verdict**: whatever comes, once it has completed or ended. -/
theorem step_same {input : Input} (hclosed : x.done = true ∨ x.ended = true)
    (hdone : x.done = true → x.readyState ≠ .connecting ∧ x.payload ≠ .acking ∧ x.handling = none)
    (h : x.step input = some y) : Same x y := by
  have hcomplete : x.ended = false → x.done = true := by
    intro hlive
    rcases hclosed with hclosed | hclosed
    · exact hclosed
    · exact absurd hclosed (Bool.eq_false_iff.mp hlive)
  rcases step_change h with h | ⟨⟨hlive, hnot⟩, -⟩ | ⟨hawaits, hlive, -⟩ | ⟨hlive, hconnecting, -⟩
  · exact h
  · exact absurd (hcomplete hlive) (Bool.eq_false_iff.mp hnot)
  · obtain ⟨-, hacking, hhandling⟩ := hdone (hcomplete hlive)
    rcases hawaits with hawaits | hawaits
    · exact absurd hawaits hacking
    · rw [hhandling] at hawaits
      exact Bool.noConfusion hawaits
  · exact absurd hconnecting (hdone (hcomplete hlive)).1

/-! ## Quiet steps -/

/-- A side without what a quiet step may change. -/
def core (x : Experiment) : Experiment :=
  { x with
    localCandidates := []
    remoteCandidates := []
    ended := false
    transferring := false
    report := { x.report with
      connectionSuccess := none
      pathBefore := none
      pathAfter := none
      failureStage := none
      failureReason := none }
    readyState := .closed
    full := false
    opening := false
    listening := false
    pending := none
    reply := none
    caught := []
    closing := false }

/-- The transfer is where it was, unless the exchange that is awaited has been given up. -/
structure Quiet (x y : Experiment) : Prop where
  core : y.core = x.core
  waiting : (y.pending = x.pending ∧ y.reply = x.reply) ∨
    (x.pending.isSome = true ∧ y.pending = none ∧ ∃ message, y.reply = some (.error message))

namespace Quiet

variable (h : Quiet x y)
include h

theorem role : y.role = x.role := (congrArg Experiment.role h.core :)

theorem diagnostic : y.diagnostic = x.diagnostic := (congrArg Experiment.diagnostic h.core :)

theorem received : y.received = x.received := (congrArg Experiment.received h.core :)

theorem done : y.done = x.done := (congrArg Experiment.done h.core :)

theorem senderStarted : y.senderStarted = x.senderStarted :=
  (congrArg Experiment.senderStarted h.core :)

theorem echoSuccess : y.report.echoSuccess = x.report.echoSuccess :=
  (congrArg (fun z => z.report.echoSuccess) h.core :)

theorem natTraversalSuccess : y.report.natTraversalSuccess = x.report.natTraversalSuccess :=
  (congrArg (fun z => z.report.natTraversalSuccess) h.core :)

theorem localEvidence : y.report.localEvidence = x.report.localEvidence :=
  (congrArg (fun z => z.report.localEvidence) h.core :)

theorem payload : y.payload = x.payload := (congrArg Experiment.payload h.core :)

theorem handling : y.handling = x.handling := (congrArg Experiment.handling h.core :)

theorem queue : y.queue = x.queue := (congrArg Experiment.queue h.core :)

theorem sent : y.sent = x.sent := (congrArg Experiment.sent h.core :)

theorem handled : y.handled = x.handled := (congrArg Experiment.handled h.core :)

end Quiet

theorem Quiet.refl (x : Experiment) : Quiet x x := ⟨rfl, .inl ⟨rfl, rfl⟩⟩

/-- Quiet changes before a quiet step. -/
theorem Quiet.before {z : Experiment} (h : Quiet y z) (hcore : y.core = x.core)
    (hpending : y.pending = x.pending) (hreply : y.reply = x.reply) : Quiet x z := by
  refine ⟨h.core.trans hcore, ?_⟩
  rw [← hpending, ← hreply]
  exact h.waiting

/-- The exchange that is awaited is given up with the reason that is reported, and the transfer
stays where it is. -/
theorem quiet_reject (x : Experiment) (message : String) : Quiet x (x.reject message) := by
  unfold reject
  split_ifs with h
  · exact ⟨rfl, .inr ⟨h, rfl, message, rfl⟩⟩
  · exact Quiet.refl x

/-- Cleaning up gives up the exchange that is awaited and leaves the transfer where it is. -/
theorem quiet_cleanup (x : Experiment) : Quiet x x.cleanup := by
  unfold cleanup reject
  split_ifs with h
  · exact ⟨rfl, .inr ⟨h, rfl, _, rfl⟩⟩
  · exact ⟨rfl, .inl ⟨rfl, rfl⟩⟩

/-- A failure leaves the transfer where it is. -/
theorem quiet_fail (x : Experiment) (message stage : String) : Quiet x (x.fail message stage) := by
  unfold fail
  split_ifs
  · exact Quiet.refl x
  · exact (quiet_cleanup _).before rfl rfl rfl

/-- The step is one of the transfer's own. -/
def Input.advances : Input → Bool
  | .opens => true
  | .openStats _ _ => true
  | .handle => true
  | .payloadStats _ => true
  | .completeStats _ => true
  | .settled => true
  | _ => false

/-- Every other step is quiet. -/
theorem step_quiet {input : Input} (hinput : input.advances = false) (h : x.step input = some y) :
    Quiet x y := by
  cases input with
  | opens => cases hinput
  | openStats stats ice => cases hinput
  | handle => cases hinput
  | payloadStats stats => cases hinput
  | completeStats stats => cases hinput
  | settled => cases hinput
  | timeout =>
    obtain ⟨-, rfl⟩ := History.of_guarded h
    exact quiet_reject x _
  | catches =>
    unfold step catches at h
    dsimp only at h
    split at h
    · obtain rfl := Option.some.inj h
      exact (quiet_fail _ _ _).before rfl rfl rfl
    · cases h
  | closes =>
    obtain rfl := Option.some.inj h
    exact ⟨rfl, .inl ⟨rfl, rfl⟩⟩
  | buffer full =>
    obtain rfl := Option.some.inj h
    exact ⟨rfl, .inl ⟨rfl, rfl⟩⟩
  | cleanupTimer =>
    obtain ⟨-, rfl⟩ := History.of_guarded h
    exact (quiet_cleanup _).before rfl rfl rfl
  | trouble trouble =>
    obtain rfl := Option.some.inj h
    split_ifs
    · exact quiet_fail x _ _
    · exact Quiet.refl x
  | stop =>
    obtain rfl := Option.some.inj h
    split_ifs
    · exact quiet_cleanup x
    · exact quiet_fail x _ _
  | begin =>
    obtain rfl := Option.some.inj h
    exact quiet_cleanup x
  | localCandidate parsed signals =>
    obtain rfl := Option.some.inj h
    rcases iceCandidate_cases x parsed signals with
      ⟨candidates, hx⟩ | ⟨candidates, message, stage, hx⟩ <;> rw [hx]
    · exact ⟨rfl, .inl ⟨rfl, rfl⟩⟩
    · exact (quiet_fail _ _ _).before rfl rfl rfl
  | remoteCandidate parsed =>
    obtain rfl := Option.some.inj h
    obtain ⟨candidates, hx⟩ := remoteCandidate_cases x parsed
    rw [hx]
    exact ⟨rfl, .inl ⟨rfl, rfl⟩⟩

/-- `open` is quiet from its snapshot on, but for the answerer's message that it is ready. -/
theorem opened_cases (x : Experiment) (stats : Except String Stats) (ice : Bool) :
    Quiet x (x.opened stats ice) ∨
      x.role = .answerer ∧ ∃ z, Quiet x z ∧ z.readyState = .opened ∧
        x.opened stats ice = { z with sent := z.sent ++ [readyMessage] } := by
  unfold opened
  split
  · exact .inl ⟨rfl, .inl ⟨rfl, rfl⟩⟩
  · rename_i stats
    dsimp only
    split_ifs with hended hrole
    · exact .inl ⟨rfl, .inl ⟨rfl, rfl⟩⟩
    · split
      · rename_i y hsend
        obtain ⟨⟨hready, -⟩, rfl⟩ := send_eq_some.mp hsend
        let z : Experiment := { x with report.pathBefore := selectedPath stats, listening := ice }
        have hquiet : Quiet x z := ⟨rfl, .inl ⟨rfl, rfl⟩⟩
        exact .inr ⟨hrole, z, hquiet, hready, rfl⟩
      · exact .inl ⟨rfl, .inl ⟨rfl, rfl⟩⟩
    · exact .inl ⟨rfl, .inl ⟨rfl, rfl⟩⟩

/-! ## The ends of the channel -/

/-- The side has received what it had, and sent what it had and perhaps more. -/
structure Grows (x y : Experiment) : Prop where
  arrived : y.handled ++ y.queue = x.handled ++ x.queue
  sent : x.sent <+: y.sent

theorem Grows.trans {z : Experiment} (h : Grows x y) (h' : Grows y z) : Grows x z :=
  ⟨h'.arrived.trans h.arrived, h.sent.trans h'.sent⟩

/-- What neither receives nor sends grows by nothing. -/
theorem grows_of_eq (hhandled : y.handled = x.handled) (hqueue : y.queue = x.queue)
    (hsent : y.sent = x.sent) :
    Grows x y := by
  refine ⟨?_, ?_⟩
  · rw [hhandled, hqueue]
  · rw [hsent]

/-- A quiet step neither receives nor sends. -/
theorem Quiet.grows (h : Quiet x y) : Grows x y := grows_of_eq h.handled h.queue h.sent

theorem grows_throws (x : Experiment) (message stage : String) : Grows x (x.throws message stage) :=
  grows_of_eq rfl rfl rfl

/-- A message is sent behind all that were sent before. -/
theorem grows_send {m : Message} (h : x.send m = some y) : Grows x y := by
  obtain ⟨-, rfl⟩ := send_eq_some.mp h
  exact ⟨rfl, List.prefix_append _ _⟩

theorem grows_exchange {kind : Kind} {m : Message} (h : x.exchange kind m = some y) :
    Grows x y := by
  rcases exchange_cases (exchange_pending h) kind m with hy | hy <;> rw [h] at hy <;>
    obtain rfl := Option.some.inj hy
  · exact ⟨rfl, List.prefix_append _ _⟩
  · exact grows_of_eq rfl rfl rfl

theorem grows_complete (x : Experiment) (evidence : Option Evidence) :
    Grows x (x.complete evidence) := by
  unfold complete
  split_ifs <;> exact grows_of_eq rfl rfl rfl

theorem grows_sendBlock (x : Experiment) (index : ℕ) : Grows x (x.sendBlock index) := by
  unfold sendBlock
  split_ifs
  · split
    · rename_i h
      exact (grows_exchange h).trans (grows_of_eq rfl rfl rfl)
    · exact grows_of_eq rfl rfl rfl
  · exact grows_of_eq rfl rfl rfl

theorem grows_sendBlocks (x : Experiment) (stats : Except String Stats) :
    Grows x (x.sendBlocks stats) := by
  unfold sendBlocks
  split
  · exact grows_of_eq rfl rfl rfl
  · dsimp only
    split_ifs
    · exact grows_of_eq rfl rfl rfl
    · refine Grows.trans ?_ (grows_sendBlock _ 0)
      exact grows_of_eq rfl rfl rfl

theorem grows_sendComplete (x : Experiment) (stats : Except String Stats) :
    Grows x (x.sendComplete stats) := by
  unfold sendComplete
  split
  · exact grows_of_eq rfl rfl rfl
  · dsimp only
    split_ifs
    · exact grows_of_eq rfl rfl rfl
    · split
      · rename_i z h
        have hgrows : Grows _ z := grows_exchange h
        exact ⟨hgrows.arrived, hgrows.sent⟩
      · exact grows_of_eq rfl rfl rfl

theorem grows_acked (x : Experiment) (peer : Message) : Grows x (x.acked peer) := by
  unfold acked
  dsimp only
  split_ifs
  · exact grows_of_eq rfl rfl rfl
  · set z : Experiment := { x with payload := .returned }
    have hcomplete : Grows x (z.complete peer.evidence) := by
      refine Grows.trans ?_ (grows_complete z _)
      exact grows_of_eq rfl rfl rfl
    split
    · rename_i y h
      refine (hcomplete.trans (grows_send h)).trans ?_
      exact grows_of_eq rfl rfl rfl
    · exact hcomplete.trans (grows_throws _ _ _)

theorem grows_sendAck (x : Experiment) (data : Message) (stats : Except String Stats) :
    Grows x (x.sendAck data stats) := by
  unfold sendAck
  split
  · exact grows_throws x _ _
  · dsimp only
    split_ifs
    · exact grows_of_eq rfl rfl rfl
    · split
      · rename_i z h
        have hsend : Grows x z := by
          refine Grows.trans ?_ (grows_send h)
          exact grows_of_eq rfl rfl rfl
        refine (hsend.trans (grows_complete z data.evidence)).trans ?_
        exact grows_of_eq rfl rfl rfl
      · exact grows_of_eq rfl rfl rfl

/-- What is handled next comes from the front of what waits: no message is lost or handled twice.
-/
theorem grows_onData (x : Experiment) (data : Message) : Grows x (x.onData data) := by
  unfold onData
  by_cases hended : x.ended = true
  · rw [if_pos hended]
    exact grows_of_eq rfl rfl rfl
  rw [if_neg hended]
  by_cases hlength : 10000 < data.stringify.length
  · rw [if_pos hlength]
    exact grows_throws x _ _
  rw [if_neg hlength]
  by_cases hpending : x.pending = some data.type
  · rw [if_pos hpending]
    exact grows_of_eq rfl rfl rfl
  rw [if_neg hpending]
  split
  · unfold senderReady
    split_ifs <;> exact grows_of_eq rfl rfl rfl
  · unfold echoBlock
    dsimp only
    split_ifs
    · exact grows_throws x _ _
    · exact grows_of_eq rfl rfl rfl
    · split
      · rename_i h
        refine Grows.trans ?_ (grows_send h)
        exact grows_of_eq rfl rfl rfl
      · exact grows_of_eq rfl rfl rfl
  · unfold receiveComplete
    split_ifs <;> exact grows_of_eq rfl rfl rfl
  · split_ifs
    · exact grows_throws x _ _
    · exact (quiet_cleanup x).grows
  · exact grows_throws x _ _
  · exact grows_throws x _ _

/-- No step takes back what has been sent, or takes in what has not arrived. -/
theorem step_grows {input : Input} (h : x.step input = some y) : Grows x y := by
  rcases Bool.eq_false_or_eq_true input.advances with hinput | hinput
  swap
  · exact (step_quiet hinput h).grows
  cases input with
  | opens =>
    obtain ⟨-, rfl⟩ := History.of_guarded h
    unfold onOpen
    split_ifs <;> exact grows_of_eq rfl rfl rfl
  | openStats stats ice =>
    obtain ⟨-, rfl⟩ := History.of_guarded h
    rcases opened_cases { x with opening := false } stats ice with hq | ⟨-, z, hq, -, hz⟩
    · have hquiet : Quiet x _ := hq.before rfl rfl rfl
      exact hquiet.grows
    · have hquiet : Quiet x z := hq.before rfl rfl rfl
      rw [hz]
      refine hquiet.grows.trans ?_
      exact ⟨rfl, List.prefix_append _ _⟩
  | handle =>
    unfold step handleNext at h
    dsimp only at h
    split at h
    · rename_i data queue hhandling hqueue
      obtain rfl := Option.some.inj h
      refine Grows.trans ?_ (grows_onData _ _)
      refine ⟨?_, List.prefix_refl _⟩
      rw [hqueue]
      exact List.append_assoc _ _ _
    · cases h
  | payloadStats stats =>
    unfold step payloadStats at h
    dsimp only at h
    split at h
    · obtain rfl := Option.some.inj h
      exact grows_sendBlocks x stats
    · obtain rfl := Option.some.inj h
      exact grows_sendComplete x stats
    · cases h
  | completeStats stats =>
    obtain ⟨data, -, rfl⟩ := Option.map_eq_some_iff.mp h
    refine Grows.trans ?_ (grows_sendAck _ _ _)
    exact grows_of_eq rfl rfl rfl
  | settled =>
    unfold step settled at h
    dsimp only at h
    split at h
    · obtain rfl := Option.some.inj h
      unfold echoed
      split_ifs
      · exact grows_of_eq rfl rfl rfl
      · refine Grows.trans ?_ (grows_sendBlock _ _)
        exact grows_of_eq rfl rfl rfl
    · obtain rfl := Option.some.inj h
      refine Grows.trans ?_ (grows_acked _ _)
      exact grows_of_eq rfl rfl rfl
    · obtain rfl := Option.some.inj h
      exact grows_of_eq rfl rfl rfl
    · obtain rfl := Option.some.inj h
      exact grows_of_eq rfl rfl rfl
    · cases h
  | _ => cases hinput

/-! ## Sound reports -/

/-- What every report is sound for: it says that the echo succeeded exactly when the side is
complete, and no complete side has failed. -/
structure Sound (x : Experiment) : Prop where
  fresh : x.readyState = .connecting → x.done = false ∧ x.payload = .idle ∧ x.handling = none ∧
    x.queue = []
  complete : x.report.echoSuccess = some true ↔ x.done = true
  failed : x.report.failureStage.isSome = true → x.ended = true ∧ x.done = false

/-- A side that has just been attached is sound. -/
theorem sound_attached (role : Role) (diagnostic : Bool) : Sound (attached role diagnostic) where
  fresh _ := ⟨rfl, rfl, rfl, rfl⟩
  complete := iff_of_false (fun h => by cases h) Bool.false_ne_true
  failed h := absurd h Bool.false_ne_true

/-- As long as the channel has not opened, nothing of the transfer has begun. -/
theorem fresh_step {input : Input} (h : Sound x) (hx : x.readyState = .connecting)
    (hstep : x.step input = some y) (hy : y.readyState = .connecting) :
    y.done = false ∧ y.payload = .idle ∧ y.handling = none ∧ y.queue = [] := by
  obtain ⟨hdone, hpayload, hhandling, hqueue⟩ := h.fresh hx
  have hquiet : Quiet x y → y.done = false ∧ y.payload = .idle ∧ y.handling = none ∧
      y.queue = [] := by
    intro hq
    exact ⟨hq.done.trans hdone, hq.payload.trans hpayload, hq.handling.trans hhandling,
      hq.queue.trans hqueue⟩
  rcases Bool.eq_false_or_eq_true input.advances with hinput | hinput
  swap
  · exact hquiet (step_quiet hinput hstep)
  cases input with
  | opens =>
    obtain ⟨-, rfl⟩ := History.of_guarded hstep
    unfold onOpen at hy
    split_ifs at hy
  | openStats stats ice =>
    obtain ⟨-, rfl⟩ := History.of_guarded hstep
    rcases opened_cases { x with opening := false } stats ice with hq | ⟨-, z, hq, hready, hz⟩
    · exact hquiet (hq.before rfl rfl rfl)
    · rw [hz] at hy
      exact ReadyState.noConfusion (hready.symm.trans hy)
  | handle =>
    unfold step handleNext at hstep
    rw [hqueue, hhandling] at hstep
    cases hstep
  | payloadStats stats =>
    unfold step payloadStats at hstep
    rw [hpayload] at hstep
    cases hstep
  | completeStats stats =>
    unfold step completeStats at hstep
    rw [hhandling] at hstep
    cases hstep
  | settled =>
    unfold step settled at hstep
    rw [hpayload] at hstep
    cases hstep
  | _ => cases hinput

/-- A step of a sound side leaves it sound. -/
theorem Sound.step {input : Input} (h : Sound x) (hstep : x.step input = some y) : Sound y := by
  have hstage : x.ended = false → x.report.failureStage = none := by
    intro hlive
    refine Option.not_isSome_iff_eq_none.mp fun hsome => ?_
    exact absurd (h.failed hsome).1 (Bool.eq_false_iff.mp hlive)
  have hclean : x.ended = false → y.report.failureStage = x.report.failureStage →
      y.report.failureStage.isSome = true → y.ended = true ∧ y.done = false := by
    intro hlive hsame hsome
    rw [hsame, hstage hlive] at hsome
    cases hsome
  have hfresh : y.readyState = .connecting → (x.readyState = .connecting) →
      y.done = false ∧ y.payload = .idle ∧ y.handling = none ∧ y.queue = [] :=
    fun hy hx => fresh_step h hx hstep hy
  rcases step_change hstep with hs | ⟨⟨hlive, hnot⟩, hended, hdone, hecho, hready⟩ |
    ⟨hawaits, hlive, hdone, hecho, hsame, hready⟩ | ⟨hlive, hconnecting, hdone, hecho,
      hsame, hready⟩
  · refine ⟨fun hy => hfresh hy (hs.readyState hy), ?_, fun hsome => ?_⟩
    · rw [hs.echoSuccess, hs.done]
      exact h.complete
    · rw [hs.failureStage] at hsome
      obtain ⟨hended, hdone⟩ := h.failed hsome
      exact ⟨hs.ended hended, hs.done.trans hdone⟩
  · refine ⟨fun hy => absurd hy hready, ?_, fun _ => ⟨hended, hdone⟩⟩
    rw [hecho, hdone, ← hnot]
    exact h.complete
  · refine ⟨fun hy => hfresh hy (hready hy), iff_of_true hecho hdone, hclean hlive hsame⟩
  · refine ⟨fun hy => absurd hy hready, ?_, hclean hlive hsame⟩
    rw [hecho, hdone, (h.fresh hconnecting).1]
    exact iff_of_false (by decide) Bool.false_ne_true

end Experiment

end IrohExperiment.Peer
