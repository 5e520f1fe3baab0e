/-
# What an open gate says about the paths (`media-separation/src/lib.rs`)

The gate becomes ready when a snapshot shows a selected direct path.  Whether that
snapshot counts any open direct path is not asked: the count is only compared with what
earlier snapshots counted.  So an open gate shows an open direct path, except where no
snapshot so far has counted one.

The main result is `openPath_iff`, which says for which histories this is so.
-/
import IrohExperiment.Media.Gate

namespace IrohExperiment.Media

open History

/-! ## The property and its exception -/

/-- If the gate is ready after the history, the last signal was a snapshot with an open
direct path, a selected direct path and no relay. -/
def OpenPath (history : Signals) : Prop :=
  (gateAfter history).state = .directReady →
    ∃ before openDirect now, history = before ++ [(.snapshot openDirect false true, now)] ∧
      0 < openDirect

/-- The signals are snapshots that count no open path: some, or none, before a direct path
was selected, and then some with a selected one. -/
def Uncounted (history : Signals) (unselected selected : ℕ) : Prop :=
  history.map Prod.fst = List.replicate unselected (.snapshot 0 false false) ++
    List.replicate selected (.snapshot 0 false true)

/-- A direct path has been selected, and no snapshot has counted an open one. -/
def Unopened (history : Signals) : Prop :=
  ∃ unselected selected, Uncounted history unselected (selected + 1)

theorem uncounted_nil : Uncounted [] 0 0 := rfl

theorem Uncounted.unselected {history : Signals} {unselected : ℕ} (now : ℕ)
    (h : Uncounted history unselected 0) :
    Uncounted (history ++ [(.snapshot 0 false false, now)]) (unselected + 1) 0 := by
  unfold Uncounted at h ⊢
  rw [List.map_append, h, List.replicate_succ']
  simp

theorem Uncounted.selected {history : Signals} {unselected selected : ℕ} (now : ℕ)
    (h : Uncounted history unselected selected) :
    Uncounted (history ++ [(.snapshot 0 false true, now)]) unselected (selected + 1) := by
  unfold Uncounted at h ⊢
  rw [List.map_append, h, List.replicate_succ', List.append_assoc]
  rfl

/-- Whether a direct path was selected. -/
theorem Uncounted.selectsDirect {history : Signals} {unselected selected : ℕ}
    (h : Uncounted history unselected selected) :
    history.any (·.1.selectsDirect) = decide (0 < selected) := by
  have hany : history.any (·.1.selectsDirect) = (history.map Prod.fst).any (·.selectsDirect) := by
    rw [List.any_map]
    rfl
  rw [hany, h, List.any_append, List.any_replicate, List.any_replicate]
  by_cases hselected : selected = 0
  · simp [hselected, PathSignal.selectsDirect]
  · simp [hselected, PathSignal.selectsDirect, Nat.pos_of_ne_zero hselected]

/-- No open direct path was counted. -/
theorem Uncounted.opensDirect {history : Signals} {unselected selected : ℕ}
    (h : Uncounted history unselected selected) : history.any (·.1.opensDirect) = false := by
  have hany : history.any (·.1.opensDirect) = (history.map Prod.fst).any (·.opensDirect) := by
    rw [List.any_map]
    rfl
  rw [hany, h, List.any_append, List.any_replicate, List.any_replicate]
  simp [PathSignal.opensDirect]

/-! ## What trips no gate -/

/-- What trips nothing is a snapshot without a relay path; where it counts no open path,
none was counted before, and where it has no selected one, none had one before. -/
theorem snapshot_of_trips {history : Signals} {entry : PathSignal × ℕ}
    (hnone : trips history entry = none) :
    ∃ openDirect selectedDirect now, entry = (.snapshot openDirect false selectedDirect, now) ∧
      (openDirect = 0 → history.any (·.1.opensDirect) = false) ∧
      (selectedDirect = false → history.any (·.1.selectsDirect) = false) := by
  obtain ⟨signal, now⟩ := entry
  cases signal with
  | connectionClosed => cases hnone
  | snapshot openDirect hasRelay selectedDirect =>
    simp only [trips] at hnone
    split_ifs at hnone with hrelay hlost hdeselected
    refine ⟨openDirect, selectedDirect, now, ?_, ?_, ?_⟩
    · rw [Bool.eq_false_of_not_eq_true hrelay]
    · exact fun hzero => Bool.eq_false_of_not_eq_true fun hany => hlost ⟨hzero, hany⟩
    · exact fun hsel => Bool.eq_false_of_not_eq_true fun hany => hdeselected ⟨hsel, hany⟩

/-- As long as nothing trips the gate and no open path is counted, the snapshots are those
before a direct path is selected and those after. -/
theorem uncounted_of_untriggered {history : Signals} (hun : Untriggered trips history)
    (hopens : history.any (·.1.opensDirect) = false) :
    ∃ unselected selected, Uncounted history unselected selected := by
  induction history using List.reverseRecOn with
  | nil => exact ⟨0, 0, uncounted_nil⟩
  | append_singleton history entry ih =>
    obtain ⟨hun, hnone⟩ := untriggered_concat.mp hun
    rw [List.any_append, Bool.or_eq_false_iff] at hopens
    obtain ⟨unselected, selected, hcounts⟩ := ih hun hopens.1
    obtain ⟨openDirect, selectedDirect, now, rfl, -, hkept⟩ := snapshot_of_trips hnone
    have hzero : openDirect = 0 := by
      have hlast := hopens.2
      simp only [List.any_cons, List.any_nil, Bool.or_false, PathSignal.opensDirect,
        decide_eq_false_iff_not] at hlast
      omega
    subst hzero
    cases selectedDirect with
    | true => exact ⟨unselected, selected + 1, hcounts.selected now⟩
    | false =>
      -- a direct path that was selected before would be lost here
      have hselected : selected = 0 := by
        have hbefore := hkept rfl
        rw [hcounts.selectsDirect, decide_eq_false_iff_not] at hbefore
        omega
      subst hselected
      exact ⟨unselected + 1, 0, hcounts.unselected now⟩

/-- Snapshots of that kind trip no gate. -/
theorem Uncounted.untriggered {history : Signals} {unselected selected : ℕ}
    (h : Uncounted history unselected selected) : Untriggered trips history := by
  induction history using List.reverseRecOn generalizing unselected selected with
  | nil => exact untriggered_nil
  | append_singleton history entry ih =>
    unfold Uncounted at h
    rw [List.map_append, List.map_singleton] at h
    cases selected with
    | succ selected =>
      rw [List.replicate_succ', ← List.append_assoc] at h
      obtain ⟨hbefore, hlast⟩ := List.append_inj' h rfl
      refine untriggered_concat.mpr ⟨ih hbefore, ?_⟩
      have hopens := Uncounted.opensDirect hbefore
      simp [trips, List.singleton_inj.mp hlast, hopens]
    | zero =>
      rw [List.replicate_zero, List.append_nil] at h
      cases unselected with
      | zero => cases List.append_eq_nil_iff.mp h |>.2
      | succ unselected =>
        rw [List.replicate_succ'] at h
        obtain ⟨hbefore, hlast⟩ := List.append_inj' h rfl
        have hcounts : Uncounted history unselected 0 := by
          unfold Uncounted
          rw [hbefore, List.replicate_zero, List.append_nil]
        refine untriggered_concat.mpr ⟨ih hcounts, ?_⟩
        simp [trips, List.singleton_inj.mp hlast, hcounts.opensDirect, hcounts.selectsDirect]

/-! ## Ready gates -/

/-- After snapshots of that kind, with a selected direct path, the gate is ready and the
last snapshot counts no open path. -/
theorem Unopened.not_openPath {history : Signals} (h : Unopened history) : ¬ OpenPath history := by
  obtain ⟨unselected, selected, hcounts⟩ := h
  have hopen := (tracks history).untripped hcounts.untriggered
  have hready : (gateAfter history).state = .directReady := by
    rw [hopen.state, hcounts.selectsDirect, decide_eq_true selected.succ_pos, if_pos rfl]
  intro hpath
  obtain ⟨before, openDirect, now, rfl, hpositive⟩ := hpath hready
  have hopens := hcounts.opensDirect
  rw [List.any_append, Bool.or_eq_false_iff] at hopens
  have hlast := hopens.2
  simp [PathSignal.opensDirect] at hlast
  omega

/-- In every other history, the last snapshot of a ready gate counts an open path. -/
theorem openPath_of_not_unopened {history : Signals} (h : ¬ Unopened history) :
    OpenPath history := by
  intro hready
  have hun : Untriggered trips history := by
    rcases untriggered_or_firstTriggered trips history with hun | ⟨reason, hfirst⟩
    · exact hun
    · rw [(tracks history).tripped reason hfirst] at hready
      cases hready
  have hselects : history.any (·.1.selectsDirect) = true := by
    by_contra hnone
    rw [((tracks history).untripped hun).state, if_neg hnone] at hready
    cases hready
  rcases List.eq_nil_or_concat history with rfl | ⟨before, entry, rfl⟩
  · cases hselects
  rw [List.concat_eq_append] at *
  obtain ⟨openDirect, selectedDirect, now, rfl, hnew, hkept⟩ :=
    snapshot_of_trips (untriggered_concat.mp hun).2
  have hlast : selectedDirect = true := by
    by_contra hsel
    have hsel := Bool.eq_false_of_not_eq_true hsel
    rw [List.any_append, hkept hsel, hsel] at hselects
    cases hselects
  subst hlast
  refine ⟨before, openDirect, now, rfl, ?_⟩
  by_contra hnot
  have hzero : openDirect = 0 := by omega
  subst hzero
  have hopens : (before ++ [(PathSignal.snapshot 0 false true, now)]).any
      (·.1.opensDirect) = false := by
    rw [List.any_append, hnew rfl]
    rfl
  obtain ⟨unselected, selected, hcounts⟩ := uncounted_of_untriggered hun hopens
  rw [hcounts.selectsDirect, decide_eq_true_eq] at hselects
  exact h ⟨unselected, selected - 1, by rwa [Nat.sub_add_cancel hselects]⟩

/-- A ready gate shows an open direct path after exactly those histories that are not
snapshots without a counted path up to a last one with a selected path. -/
theorem openPath_iff (history : Signals) : OpenPath history ↔ ¬ Unopened history :=
  ⟨fun hpath hun => hun.not_openPath hpath, openPath_of_not_unopened⟩

/-- The first snapshot, taken before any path is counted, opens the gate. -/
theorem openPath_fails : ¬ ∀ history, OpenPath history := by
  intro h
  obtain ⟨before, openDirect, now, heq, hpositive⟩ := h [(.snapshot 0 false true, 5)] (by decide)
  have hlast := (List.append_inj' (show [] ++ [_] = before ++ [_] from heq) rfl).2
  simp at hlast
  omega

end IrohExperiment.Media
