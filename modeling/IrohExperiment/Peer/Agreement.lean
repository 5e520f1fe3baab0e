/-
# The agreement of two peers (`worker/public/peer.js`)

An offerer and an answerer over a reliable ordered channel, in every interleaving of their
steps and of the arrival of their messages: the offerer completes only after the answerer
has, on the same verdict, and a closed side keeps its own.

`Invariant` is kept by every step of either side and by every message that arrives
(`Invariant.step`).  The main result is `peers_agree`; `peers_agree_undisturbed` is a run in
which both sides complete.
-/
import IrohExperiment.Peer.Completion

namespace IrohExperiment.Peer

open History

namespace World

/-! ## The invariant -/

variable {w w' : World} {role : Role} {x : Experiment}

/-- What holds of the two in every run: each side's own invariant, and that the channel is
reliable and ordered. -/
structure Invariant (w : World) : Prop where
  offering : w.offerer.Offering
  answering : w.answerer.Answering
  sound : ∀ role, (w.side role).Sound
  channel : ∀ role, (w.side role).handled ++ (w.side role).queue <+: (w.side role.other).sent

@[simp] theorem side_withSide (w : World) (role : Role) (x : Experiment) :
    (w.withSide role x).side role = x := by
  cases role <;> rfl

@[simp] theorem side_other_withSide (w : World) (role : Role) (x : Experiment) :
    (w.withSide role x).side role.other = w.side role.other := by
  cases role <;> rfl

theorem other_other (role : Role) : role.other.other = role := by
  cases role <;> rfl

theorem eq_or_eq_other (role role' : Role) : role' = role ∨ role' = role.other := by
  cases role <;> cases role' <;> simp [Role.other]

/-- Nothing has been sent. -/
theorem invariant_start : Invariant start where
  offering := Experiment.offering_attached
  answering := Experiment.answering_attached
  sound role := by cases role <;> exact Experiment.sound_attached _ _
  channel role := by cases role <;> exact List.nil_prefix

/-- What has arrived at the answerer is the beginning of the script. -/
theorem Invariant.arrived_script (h : Invariant w) :
    w.answerer.handled ++ w.answerer.queue <+: script w.offerer.report.localEvidence :=
  (h.channel .answerer).trans h.offering.sent_script

/-- A side that only receives, sends and concludes leaves the channel reliable and ordered. -/
theorem channel_withSide (h : ∀ role, (w.side role).handled ++ (w.side role).queue <+:
    (w.side role.other).sent)
    (harrived : x.handled ++ x.queue <+: (w.side role.other).sent)
    (hsent : (w.side role).sent <+: x.sent) (role' : Role) :
    ((w.withSide role x).side role').handled ++ ((w.withSide role x).side role').queue <+:
      ((w.withSide role x).side role'.other).sent := by
  rcases eq_or_eq_other role role' with rfl | rfl
  · rw [side_withSide, side_other_withSide]
    exact harrived
  · rw [side_other_withSide, other_other, side_withSide]
    have hother := h role.other
    rw [other_other] at hother
    exact hother.trans hsent

/-- A step of one side keeps the invariant: what it sends is what the other one can be brought. -/
theorem Invariant.steps {input : Experiment.Input} (h : Invariant w)
    (hstep : (w.side role).step input = some x) :
    Invariant (w.withSide role x) := by
  have hgrows := Experiment.step_grows hstep
  have harrived : x.handled ++ x.queue <+: (w.side role.other).sent := by
    rw [hgrows.arrived]
    exact h.channel role
  refine ⟨?_, ?_, fun role' => ?_, channel_withSide h.channel harrived hgrows.sent⟩
  · cases role with
    | offerer => exact h.offering.step hstep
    | answerer => exact h.offering
  · cases role with
    | offerer => exact h.answering
    | answerer =>
      refine h.answering.step (fun m queue hqueue hcomplete => ?_) hstep
      have hbegins := h.arrived_script
      rw [hqueue] at hbegins
      exact script_once hbegins hcomplete
  · rcases eq_or_eq_other role role' with rfl | rfl
    · rw [side_withSide]
      exact (h.sound role').step hstep
    · rw [side_other_withSide]
      exact h.sound role.other

/-- The next of the sent messages follows those that have arrived. -/
theorem prefix_concat {arrived sent : List Message} {m : Message} (h : arrived <+: sent)
    (hm : sent[arrived.length]? = some m) : arrived ++ [m] <+: sent := by
  obtain ⟨rest, rfl⟩ := h
  rw [List.getElem?_append_right (le_refl _), Nat.sub_self] at hm
  cases rest with
  | nil => cases hm
  | cons m' rest =>
    obtain rfl : m' = m := Option.some.inj hm
    exact ⟨rest, List.append_assoc _ _ _⟩

/-- A message that arrives is the next one that was sent. -/
theorem Invariant.arrives (h : Invariant w) (hstep : w.arrive role = some w') : Invariant w' := by
  unfold arrive at hstep
  dsimp only at hstep
  split at hstep
  · rename_i m hready hm
    obtain rfl := Option.some.inj hstep
    set x := w.side role with hx
    have harrived : x.handled ++ (x.queue ++ [m]) <+: (w.side role.other).sent := by
      rw [← List.append_assoc]
      rw [← List.length_append] at hm
      exact prefix_concat (h.channel role) hm
    refine ⟨?_, ?_, fun role' => ?_, channel_withSide h.channel harrived (List.prefix_refl _)⟩
    · cases role with
      | offerer =>
        have hoffering : x.Offering := h.offering
        exact ⟨hoffering.role, hoffering.diagnostic, hoffering.handling, hoffering.started,
          hoffering.sending, hoffering.pending, hoffering.reply, hoffering.done⟩
      | answerer => exact h.offering
    · cases role with
      | offerer => exact h.answering
      | answerer =>
        have hanswering : x.Answering := h.answering
        exact ⟨hanswering.role, hanswering.diagnostic, hanswering.payload, hanswering.pending,
          hanswering.handling, hanswering.acks, hanswering.done⟩
    · rcases eq_or_eq_other role role' with rfl | rfl
      · rw [side_withSide]
        have hsound := h.sound role'
        exact ⟨fun hconnecting => ReadyState.noConfusion (hready.symm.trans hconnecting),
          hsound.complete, hsound.failed⟩
      · rw [side_other_withSide]
        exact h.sound role.other
  · cases hstep

/-- Whatever happens next keeps the invariant. -/
theorem Invariant.step {event : Event} (h : Invariant w) (hstep : step event w = some w') :
    Invariant w' := by
  cases event with
  | steps role input =>
    obtain ⟨x, hx, rfl⟩ := Option.map_eq_some_iff.mp hstep
    exact h.steps hx
  | arrives role => exact h.arrives hstep

/-- The invariant holds whatever has happened. -/
theorem runs_invariant {es : List Event} (h : run step start es = some w) : Invariant w :=
  run_induct (P := fun _ w => Invariant w) invariant_start
    (fun _ _ _ _ _ hm hstep => hm.step hstep) h

/-! ## Agreement -/

end World

/-- The side's own evidence qualifies. -/
def Experiment.Qualifies (x : Experiment) : Prop :=
  ∃ evidence, x.report.localEvidence = some evidence ∧ evidence.qualifiesForCrossNat = true

/-- What an offerer's complete report promises of the answerer's. -/
structure Agreed (offerer answerer : Experiment) : Prop where
  /-- the answerer's report says that the echo succeeded -/
  echoSuccess : answerer.report.echoSuccess = some true
  /-- the answerer has accepted every block -/
  received : answerer.received = blocks
  /-- the blocks it got are the blocks that were sent, in their order -/
  blocksReceived : answerer.handled.filter (fun m => m.type = .data) = dataBlocks blocks
  blocksSent : offerer.sent.filter (fun m => m.type = .data) = dataBlocks blocks
  /-- the verdicts are the same, and true exactly when the evidence of both sides qualifies -/
  natTraversalSuccess : offerer.report.natTraversalSuccess = answerer.report.natTraversalSuccess
  qualifies : offerer.report.natTraversalSuccess = some true ↔
    offerer.Qualifies ∧ answerer.Qualifies
  otherwise : offerer.report.natTraversalSuccess ≠ some true →
    offerer.report.natTraversalSuccess = none

/-- A traversal of two networks needs evidence of both. -/
theorem crossNat_eq_some_iff {x y : Experiment} :
    crossNat x.report.localEvidence y.report.localEvidence = some true ↔
      x.Qualifies ∧ y.Qualifies := by
  have hany : ∀ z : Experiment, z.report.localEvidence.any Evidence.qualifiesForCrossNat = true ↔
      z.Qualifies :=
    fun z => Option.any_eq_true _ _
  unfold crossNat
  dsimp only
  rw [← hany, ← hany, ← Bool.and_eq_true]
  split_ifs with h
  · exact iff_of_true rfl h
  · exact iff_of_false (fun hnone => by cases hnone) h

/-- Without evidence of both sides nothing is said. -/
theorem crossNat_otherwise {e e' : Option Evidence} (h : crossNat e e' ≠ some true) :
    crossNat e e' = none := by
  unfold crossNat at h ⊢
  dsimp only at h ⊢
  split_ifs at h ⊢ with hqualifies
  · exact absurd rfl h
  · rfl

namespace World

variable {w w' : World} {role : Role}

/-- The offerer completes only after the answerer has, on the same verdict. -/
theorem Invariant.agreed (h : Invariant w) (hsuccess : w.offerer.report.echoSuccess = some true) :
    Agreed w.offerer w.answerer := by
  obtain ⟨-, m, hm, htype, hasked, hverdict⟩ :=
    h.offering.done ((h.sound .offerer).complete.mp hsuccess)
  have hack : m ∈ w.answerer.sent := (h.channel .offerer).subset (List.mem_append_left _ hm)
  obtain ⟨hdone, rfl⟩ := h.answering.acks m hack htype
  obtain ⟨-, hreceived, d, hd, hcomplete, hpeer⟩ := h.answering.done hdone
  have hhandled : w.answerer.handled <+: script w.offerer.report.localEvidence :=
    (List.prefix_append _ _).trans h.arrived_script
  obtain rfl := eq_of_complete (hhandled.subset hd) hcomplete
  have hown : w.offerer.report.natTraversalSuccess =
      crossNat w.offerer.report.localEvidence w.answerer.report.localEvidence := hverdict
  have hother : w.answerer.report.natTraversalSuccess =
      crossNat w.answerer.report.localEvidence w.offerer.report.localEvidence := hpeer
  refine ⟨(h.sound .answerer).complete.mpr hdone, hreceived,
    blocks_of_complete hhandled hd hcomplete,
    blocks_of_complete h.offering.sent_script hasked rfl, ?_, ?_, ?_⟩
  · rw [hown, hother, crossNat_comm]
  · rw [hown]
    exact crossNat_eq_some_iff
  · rw [hown]
    exact crossNat_otherwise

/-- A side that is complete or has ended. -/
def Closed (w : World) (role : Role) : Prop :=
  (w.side role).done = true ∨ (w.side role).ended = true

/-- A closed side awaits nothing that could change its verdict. -/
theorem Invariant.done (h : Invariant w) (hdone : (w.side role).done = true) :
    (w.side role).readyState ≠ .connecting ∧ (w.side role).payload ≠ .acking ∧
      (w.side role).handling = none := by
  refine ⟨fun hconnecting => ?_, ?_⟩
  · cases hdone.symm.trans ((h.sound role).fresh hconnecting).1
  · cases role with
    | offerer =>
      refine ⟨?_, h.offering.handling⟩
      rw [show (w.side .offerer).payload = .returned from (h.offering.done hdone).1]
      exact Payload.noConfusion
    | answerer =>
      refine ⟨?_, (h.answering.done hdone).1⟩
      rw [show (w.side .answerer).payload = .idle from h.answering.payload]
      exact Payload.noConfusion

/-- Once a side is closed its verdict stays. -/
theorem Invariant.same {event : Event} (h : Invariant w) (hclosed : w.Closed role)
    (hstep : World.step event w = some w') : (w.side role).Same (w'.side role) := by
  cases event with
  | steps role' input =>
    obtain ⟨x, hx, rfl⟩ := Option.map_eq_some_iff.mp hstep
    rcases eq_or_eq_other role' role with rfl | rfl
    · rw [side_withSide]
      exact Experiment.step_same hclosed h.done hx
    · rw [side_other_withSide]
      exact Experiment.Same.refl _
  | arrives role' =>
    unfold World.step arrive at hstep
    dsimp only at hstep
    split at hstep
    · obtain rfl := Option.some.inj hstep
      rcases eq_or_eq_other role' role with rfl | rfl
      · rw [side_withSide]
        exact ⟨rfl, rfl, rfl, rfl, rfl, id, id⟩
      · rw [side_other_withSide]
        exact Experiment.Same.refl _
    · cases hstep

/-- Whatever comes after a side has closed, its verdict stays. -/
theorem Invariant.run_same {fs : List Event} (h : Invariant w) (hclosed : w.Closed role)
    (hrun : run World.step w fs = some w') : (w.side role).Same (w'.side role) := by
  have hboth : Invariant w' ∧ (w.side role).Same (w'.side role) := by
    refine run_induct (P := fun _ w' => Invariant w' ∧ (w.side role).Same (w'.side role))
      ⟨h, Experiment.Same.refl _⟩ (fun _ m _ t _ hm hstep => ⟨hm.1.step hstep, ?_⟩) hrun
    have hclosedm : m.Closed role := by
      rcases hclosed with hdone | hended
      · exact .inl (hm.2.done.trans hdone)
      · exact .inr (hm.2.ended hended)
    exact hm.2.trans (hm.1.same hclosedm hstep)
  exact hboth.2

/-- **The peers agree**: in every run of an offerer and an answerer, a report of the offerer
that the echo succeeded finds the answerer's already agreeing with it; and a report that is
complete, or has ended, has the same verdict and the same failure, if any, whatever comes. -/
theorem peers_agree {es fs : List Event} (hrun : run step start es = some w)
    (hafter : run step w fs = some w') :
    (w.offerer.report.echoSuccess = some true → Agreed w.offerer w.answerer) ∧
      ∀ role, w.Closed role →
        (w'.side role).report.echoSuccess = (w.side role).report.echoSuccess ∧
        (w'.side role).report.natTraversalSuccess = (w.side role).report.natTraversalSuccess ∧
        (w'.side role).report.failureStage = (w.side role).report.failureStage ∧
        (w'.side role).report.failureReason = (w.side role).report.failureReason ∧
        ((w.side role).done = true → (w'.side role).report.failureStage = none) := by
  have hinvariant := runs_invariant hrun
  refine ⟨hinvariant.agreed, fun role hclosed => ?_⟩
  have hsame := hinvariant.run_same hclosed hafter
  refine ⟨hsame.echoSuccess, hsame.natTraversalSuccess, hsame.failureStage, hsame.failureReason,
    fun hdone => ?_⟩
  rw [hsame.failureStage]
  refine Option.not_isSome_iff_eq_none.mp fun hsome => ?_
  cases hdone.symm.trans ((hinvariant.sound role).failed hsome).2

theorem peers_agree_undisturbed : ∃ es w, run step start es = some w ∧
    w.offerer.report.echoSuccess = some true ∧ Agreed w.offerer w.answerer := by
  obtain ⟨es, w, hrun, hsuccess⟩ := undisturbed_completes [] [] [] []
  exact ⟨es, w, hrun, hsuccess, (peers_agree hrun run_nil).1 hsuccess⟩

end World

end IrohExperiment.Peer
