/-
# Bringing one phase up to date (`worker/scripts/setup-zone.mjs`)

What the request for a planned rule does to the zone.  The rules of its phase that do not
match stay in place, no other phase is touched, and then one rule of the phase matches,
which is the planned one.  Where that is so already, the request changes nothing.

`brought_spec` is what one request comes to, whichever of the three it is, and
`brought_of_settled` that it changes nothing where nothing is to be done.
-/
import IrohExperiment.Setup.Configure

namespace IrohExperiment.Setup

open Script

variable {α : Type} {z z' : Zone α} {e : Entry α} {issuer : Issuer}

/-- What the setup finds for a planned rule. -/
def survey (z : Zone α) (e : Entry α) : Phase α :=
  { e with existing := z.rulesets e.phase, matched := ((z.rules e.phase).filter e.matches).head? }

/-- The request that brings a phase up to date. -/
def Phase.request (p : Phase α) : Request α Unit :=
  match p.existing with
  | none => .postRuleset p.phase p.rule
  | some existing =>
    match p.matched with
    | some matched => .patchRule existing.id matched.id p.rule
    | none => .postRule existing.id p.rule

/-- The zone after that request. -/
def Zone.brought (z : Zone α) (issuer : Issuer) (e : Entry α) : Zone α :=
  (z.serve issuer (survey z e).request).2

/-- No more than one rule of the phase matches. -/
def Zone.Single (z : Zone α) (e : Entry α) : Prop :=
  ((z.rules e.phase).filter e.matches).length ≤ 1

/-- One rule of the phase matches, and it is the planned one. -/
def Zone.Settled (z : Zone α) (e : Entry α) : Prop :=
  ∃ id, (z.rules e.phase).filter e.matches = [⟨id, e.rule⟩]

/-- The planned rule matches itself, whatever its identifier. -/
theorem Entry.matches_self (e : Entry α) (id : String) : e.matches ⟨id, e.rule⟩ = true := by
  simp [Entry.matches]

theorem Zone.Settled.single (h : z.Settled e) : z.Single e := by
  obtain ⟨id, h⟩ := h
  show ((z.rules e.phase).filter e.matches).length ≤ 1
  rw [h]
  exact le_rfl

theorem Zone.rules_of_rulesets {p : String} (h : z'.rulesets p = z.rulesets p) :
    z'.rules p = z.rules p :=
  congrArg listed h

/-- What is found depends on nothing but the phase. -/
theorem survey_congr (h : z'.rulesets e.phase = z.rulesets e.phase) : survey z' e = survey z e := by
  unfold survey
  rw [h, Zone.rules_of_rulesets h]

theorem Zone.settled_congr (h : z'.rulesets e.phase = z.rulesets e.phase) :
    z'.Settled e ↔ z.Settled e := by
  unfold Zone.Settled
  rw [Zone.rules_of_rulesets h]

/-! ## The three requests -/

section

variable {s : Ruleset α}

theorem brought_of_absent (h : z.rulesets e.phase = none) :
    z.brought issuer e = z.postRuleset issuer e.phase e.rule := by
  simp [Zone.brought, Phase.request, survey, h, Zone.serve]

theorem brought_of_unmatched (h : z.rulesets e.phase = some s)
    (hnone : (z.rules e.phase).filter e.matches = []) :
    z.brought issuer e = z.postRule issuer s.id e.rule := by
  simp [Zone.brought, Phase.request, survey, h, hnone, Zone.serve]

theorem brought_of_matched {r : StoredRule α} (h : z.rulesets e.phase = some s)
    (hone : (z.rules e.phase).filter e.matches = [r]) :
    z.brought issuer e = z.patchRule s.id r.id e.rule := by
  simp [Zone.brought, Phase.request, survey, h, hone, Zone.serve]

/-- A rule that is replaced by its identifier is the one that matches. -/
theorem replace_matching {r : StoredRule α} (hone : (z.rules e.phase).filter e.matches = [r]) :
    (∀ a ∈ z.rules e.phase, e.matches a = false → a.replace r.id e.rule = a) ∧
      (∀ a ∈ z.rules e.phase, e.matches a = true → e.matches (a.replace r.id e.rule) = true) := by
  have hr : r ∈ z.rules e.phase ∧ e.matches r = true :=
    List.mem_filter.mp (hone ▸ List.mem_singleton_self r)
  constructor
  · intro a ha hout
    refine StoredRule.replace_of_ne (fun hid => ?_) e.rule
    rw [(z.identified e.phase).eq_of_id ha hr.1 hid, hr.2] at hout
    cases hout
  · intro a ha hin
    rw [eq_of_filter_eq_singleton hone ha hin, StoredRule.replace_self]
    exact e.matches_self r.id

end

/-! ## What the request does -/

/-- How the zone changes when one phase is worked on. -/
structure Zone.Worked (e : Entry α) (z z' : Zone α) : Prop where
  name : z'.name = z.name
  status : z'.status = z.status
  http3 : z'.http3 = z.http3
  elsewhere : ∀ q, q ≠ e.phase → z'.rulesets q = z.rulesets q
  retains : Retains e.matches (z.rules e.phase) (z'.rules e.phase)
  single : z'.Single e

theorem Zone.Worked.refl (h : z.Single e) : Zone.Worked e z z :=
  ⟨rfl, rfl, rfl, fun _ _ => rfl, .refl _ _, h⟩

/-- The new rules of a phase whose ruleset is edited. -/
theorem rules_edit {s : Ruleset α} {g : List (StoredRule α) → List (StoredRule α)}
    {issued : List String} {hsub : z.issued ⊆ issued}
    {hg : ∀ l, Identified z.issued l → Identified issued (g l)} {p : String}
    (h : z.rulesets p = some s) : (z.edit s.id g issued hsub hg).rules p = g (z.rules p) := by
  unfold Zone.rules
  rw [Zone.edit_rulesets h, h]
  rfl

/-- The request keeps the frame and settles the phase. -/
theorem brought_spec (issuer : Issuer) (hsingle : z.Single e) :
    Zone.Worked e z (z.brought issuer e) ∧ (z.brought issuer e).Settled e := by
  cases h : z.rulesets e.phase with
  | none =>
    rw [brought_of_absent h]
    obtain ⟨ruleset, id, hnew⟩ := Zone.postRuleset_rulesets issuer e.rule h
    have hrules : (z.postRuleset issuer e.phase e.rule).rules e.phase = [] ++ [⟨id, e.rule⟩] := by
      unfold Zone.rules
      rw [hnew]
      rfl
    have hold : z.rules e.phase = [] := by
      unfold Zone.rules
      rw [h]
      rfl
    have hsettled : (z.postRuleset issuer e.phase e.rule).Settled e :=
      ⟨id, by rw [hrules]; simp [e.matches_self id]⟩
    have hface : (z.postRuleset issuer e.phase e.rule).name = z.name ∧
        (z.postRuleset issuer e.phase e.rule).status = z.status ∧
        (z.postRuleset issuer e.phase e.rule).http3 = z.http3 := by
      unfold Zone.postRuleset
      split_ifs <;> exact ⟨rfl, rfl, rfl⟩
    refine ⟨⟨hface.1, hface.2.1, hface.2.2, fun q hq => Zone.postRuleset_rulesets_of_ne hq, ?_,
      hsettled.single⟩, hsettled⟩
    rw [hrules, hold]
    exact .append [] (e.matches_self id)
  | some s =>
    rcases filter_cases hsingle with hnone | ⟨r, hone, -, -⟩
    · rw [brought_of_unmatched h hnone]
      have hrules : (z.postRule issuer s.id e.rule).rules e.phase =
          z.rules e.phase ++ [⟨issuer.next z.issued, e.rule⟩] := rules_edit h
      have hsettled : (z.postRule issuer s.id e.rule).Settled e :=
        ⟨issuer.next z.issued, by rw [hrules, List.filter_append, hnone]; simp [e.matches_self]⟩
      refine ⟨⟨rfl, rfl, rfl, fun q hq => Zone.edit_rulesets_of_ne h hq, ?_, hsettled.single⟩,
        hsettled⟩
      rw [hrules]
      exact .append _ (e.matches_self _)
    · rw [brought_of_matched h hone]
      obtain ⟨hout, hin⟩ := replace_matching hone
      have hrules : (z.patchRule s.id r.id e.rule).rules e.phase =
          (z.rules e.phase).map (StoredRule.replace r.id e.rule) := rules_edit h
      have hsettled : (z.patchRule s.id r.id e.rule).Settled e := by
        refine ⟨r.id, ?_⟩
        rw [hrules, filter_map_matching hout hin, hone, List.map_singleton, StoredRule.replace_self]
      refine ⟨⟨rfl, rfl, rfl, fun q hq => Zone.edit_rulesets_of_ne h hq, ?_, hsettled.single⟩,
        hsettled⟩
      rw [hrules]
      exact .map hout hin

/-- A phase that is settled is left as it is. -/
theorem brought_of_settled (h : z.Settled e) : z.brought issuer e = z := by
  obtain ⟨id, hone⟩ := h
  cases hs : z.rulesets e.phase with
  | none =>
    have hnil : z.rules e.phase = [] := congrArg listed hs
    rw [hnil] at hone
    cases hone
  | some s =>
    rw [brought_of_matched hs hone]
    have hsame : (z.rules e.phase).map (StoredRule.replace id e.rule) = z.rules e.phase := by
      refine (List.map_congr_left fun a ha => ?_).trans (List.map_id _)
      by_cases hid : a.id = id
      · have hr : (⟨id, e.rule⟩ : StoredRule α) ∈ z.rules e.phase :=
          (List.mem_filter.mp (hone ▸ List.mem_singleton_self _)).1
        rw [(z.identified e.phase).eq_of_id ha hr hid]
        exact StoredRule.replace_self e.rule _
      · exact StoredRule.replace_of_ne hid e.rule
    refine Zone.ext rfl rfl rfl (funext fun q => ?_) rfl
    by_cases hq : q = e.phase
    · subst hq
      have hrules : s.rules = some (z.rules e.phase) := by
        unfold Zone.rules at hone ⊢
        rw [hs] at hone ⊢
        cases hl : s.rules with
        | none => simp [hl] at hone
        | some l => simp [hl]
      show (z.edit s.id _ _ _ _).rulesets e.phase = _
      rw [Zone.edit_rulesets hs, hs, hrules, Option.getD_some, hsame, ← hrules]
    · exact Zone.edit_rulesets_of_ne hs hq

end IrohExperiment.Setup
