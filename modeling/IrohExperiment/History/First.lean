/-
# The first event of a history

In a history, an entry may set something off, depending on the entries before it.
The first entry that does so, and how this changes when the history grows at its end.

`Untriggered` and `FirstTriggered` are about the whole history, so that a machine that looks
at one event at a time can be compared with them.  The lemmas about `l ++ [e]` are the steps
of such a comparison, and `FirstTriggered.unique` says that there is one first event.
-/
import Mathlib.Data.List.Induction

namespace IrohExperiment.History

variable {α β : Type} {trigger : List α → α → Option β} {h : List α} {x : α} {r : β}

/-- Nothing has been set off. -/
def Untriggered (trigger : List α → α → Option β) (h : List α) : Prop :=
  ∀ before x after, h = before ++ x :: after → trigger before x = none

/-- The first entry that sets something off sets off `r`. -/
def FirstTriggered (trigger : List α → α → Option β) (h : List α) (r : β) : Prop :=
  ∃ before x after, h = before ++ x :: after ∧ Untriggered trigger before ∧
    trigger before x = some r

theorem untriggered_nil : Untriggered trigger [] := by
  intro before x after heq
  cases before <;> cases heq

theorem not_firstTriggered_nil : ¬ FirstTriggered trigger [] r := by
  rintro ⟨before, x, after, heq, -⟩
  cases before <;> cases heq

/-- A decomposition of a history with one more entry. -/
theorem concat_eq_append {before after : List α} {y : α} (heq : h ++ [x] = before ++ y :: after) :
    (∃ rest, after = rest ++ [x] ∧ h = before ++ y :: rest) ∨ after = [] ∧ before = h ∧ y = x := by
  rcases List.eq_nil_or_concat after with rfl | ⟨rest, last, rfl⟩
  · have hlast := List.append_inj' heq rfl
    exact .inr ⟨rfl, hlast.1.symm, (List.singleton_inj.mp hlast.2).symm⟩
  · rw [List.concat_eq_append] at heq ⊢
    rw [← List.cons_append, ← List.append_assoc] at heq
    have hlast := List.append_inj' heq rfl
    refine .inl ⟨rest, ?_, hlast.1⟩
    rw [List.singleton_inj.mp hlast.2]

theorem untriggered_concat :
    Untriggered trigger (h ++ [x]) ↔ Untriggered trigger h ∧ trigger h x = none := by
  constructor
  · intro hun
    refine ⟨fun before y after heq => ?_, hun h x [] rfl⟩
    refine hun before y (after ++ [x]) ?_
    rw [heq, List.append_assoc, List.cons_append]
  · rintro ⟨hun, hnone⟩ before y after heq
    rcases concat_eq_append heq with ⟨rest, -, hrest⟩ | ⟨-, rfl, rfl⟩
    · exact hun before y rest hrest
    · exact hnone

theorem firstTriggered_concat :
    FirstTriggered trigger (h ++ [x]) r ↔
      FirstTriggered trigger h r ∨ Untriggered trigger h ∧ trigger h x = some r := by
  constructor
  · rintro ⟨before, y, after, heq, hun, hsome⟩
    rcases concat_eq_append heq with ⟨rest, -, hrest⟩ | ⟨-, rfl, rfl⟩
    · exact .inl ⟨before, y, rest, hrest, hun, hsome⟩
    · exact .inr ⟨hun, hsome⟩
  · rintro (⟨before, y, after, rfl, hun, hsome⟩ | ⟨hun, hsome⟩)
    · exact ⟨before, y, after ++ [x], by simp, hun, hsome⟩
    · exact ⟨h, x, [], rfl, hun, hsome⟩

/-- Something has been set off or not. -/
theorem FirstTriggered.not_untriggered (hfirst : FirstTriggered trigger h r) :
    ¬ Untriggered trigger h := by
  obtain ⟨before, x, after, rfl, -, hsome⟩ := hfirst
  intro hun
  rw [hun before x after rfl] at hsome
  cases hsome

/-- There is one first entry. -/
theorem FirstTriggered.unique {r' : β} (hfirst : FirstTriggered trigger h r)
    (hfirst' : FirstTriggered trigger h r') : r = r' := by
  induction h using List.reverseRecOn with
  | nil => exact absurd hfirst not_firstTriggered_nil
  | append_singleton h x ih =>
    rcases firstTriggered_concat.mp hfirst with hold | ⟨hun, hsome⟩
    · rcases firstTriggered_concat.mp hfirst' with hold' | ⟨hun', -⟩
      · exact ih hold hold'
      · exact absurd hun' hold.not_untriggered
    · rcases firstTriggered_concat.mp hfirst' with hold' | ⟨-, hsome'⟩
      · exact absurd hun hold'.not_untriggered
      · exact Option.some.inj (hsome.symm.trans hsome')

/-- If nothing has been set off, nothing is the first. -/
theorem untriggered_or_firstTriggered (trigger : List α → α → Option β) (h : List α) :
    Untriggered trigger h ∨ ∃ r, FirstTriggered trigger h r := by
  induction h using List.reverseRecOn with
  | nil => exact .inl untriggered_nil
  | append_singleton h x ih =>
    rcases ih with hun | ⟨r, hfirst⟩
    · cases hx : trigger h x with
      | none => exact .inl (untriggered_concat.mpr ⟨hun, hx⟩)
      | some r => exact .inr ⟨r, firstTriggered_concat.mpr (.inr ⟨hun, hx⟩)⟩
    · exact .inr ⟨r, firstTriggered_concat.mpr (.inl hfirst)⟩

end IrohExperiment.History
