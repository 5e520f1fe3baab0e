/-
# Updating the elements of a list that match

Two ways to bring the elements of a list that match a test up to date: to change every
element that matches, and to append one.  `Retains p l l'` says that `l'` has come from
`l` with the elements that do not match left unchanged and in place.

`map` and `append` say that both ways retain the rest, and `eq_of_filter_eq_singleton` when
nothing is left to change.
-/
import Mathlib

namespace Script

variable {α : Type} {p : α → Bool} {l l' l'' : List α} {f : α → α}

/-- Every element that does not match keeps its place, and no other such element appears. -/
structure Retains (p : α → Bool) (l l' : List α) : Prop where
  /-- Each is where it was. -/
  place : ∀ (i : ℕ) (a : α), l[i]? = some a → p a = false → l'[i]? = some a
  /-- They are the same ones. -/
  rest : l'.filter (fun a => !p a) = l.filter fun a => !p a

namespace Retains

theorem refl (p : α → Bool) (l : List α) : Retains p l l := ⟨fun _ _ h _ => h, rfl⟩

theorem trans (h : Retains p l l') (h' : Retains p l' l'') : Retains p l l'' where
  place i a hi hp := h'.place i a (h.place i a hi hp) hp
  rest := h'.rest.trans h.rest

/-- An element that matches is appended. -/
theorem append {a : α} (l : List α) (ha : p a = true) : Retains p l (l ++ [a]) where
  place i b hi _ := by
    obtain ⟨hlt, -⟩ := List.getElem?_eq_some_iff.mp hi
    rwa [List.getElem?_append_left hlt]
  rest := by simp [ha]

/-- A change of the elements that match, after which they still match. -/
theorem map (hout : ∀ a ∈ l, p a = false → f a = a) (hin : ∀ a ∈ l, p a = true → p (f a) = true) :
    Retains p l (l.map f) where
  place i a hi hp := by
    rw [List.getElem?_map, hi, Option.map_some, hout a (List.mem_of_getElem? hi) hp]
  rest := by
    induction l with
    | nil => rfl
    | cons a l ih =>
      have hrest := ih (fun b hb => hout b (List.mem_cons_of_mem a hb))
        fun b hb => hin b (List.mem_cons_of_mem a hb)
      rw [List.map_cons, List.filter_cons, List.filter_cons, hrest]
      cases hp : p a with
      | false => rw [hout a List.mem_cons_self hp, hp]
      | true => simp [hin a List.mem_cons_self hp]

end Retains

/-- The elements that match after a change of just those are the changed ones. -/
theorem filter_map_matching (hout : ∀ a ∈ l, p a = false → f a = a)
    (hin : ∀ a ∈ l, p a = true → p (f a) = true) : (l.map f).filter p = (l.filter p).map f := by
  induction l with
  | nil => rfl
  | cons a l ih =>
    have hrest := ih (fun b hb => hout b (List.mem_cons_of_mem a hb))
      fun b hb => hin b (List.mem_cons_of_mem a hb)
    rw [List.map_cons, List.filter_cons, List.filter_cons, hrest]
    cases hp : p a with
    | false => simp [hout a List.mem_cons_self hp, hp]
    | true => simp [hin a List.mem_cons_self hp]

/-- A list with no more than one element that matches has none or one. -/
theorem filter_cases (h : (l.filter p).length ≤ 1) :
    l.filter p = [] ∨ ∃ a, l.filter p = [a] ∧ a ∈ l ∧ p a = true := by
  match hl : l.filter p, h with
  | [], _ => exact .inl rfl
  | [a], _ =>
    have ha : a ∈ l.filter p := hl ▸ List.mem_cons_self
    exact .inr ⟨a, rfl, List.mem_filter.mp ha⟩

/-- The one element that matches is told from all the others by matching. -/
theorem eq_of_filter_eq_singleton {a b : α} (h : l.filter p = [a]) (hb : b ∈ l) (hp : p b = true) :
    b = a := by
  have hmem : b ∈ l.filter p := List.mem_filter.mpr ⟨hb, hp⟩
  rw [h] at hmem
  exact List.mem_singleton.mp hmem

end Script
