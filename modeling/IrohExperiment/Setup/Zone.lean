/-
# The zone that an observer is set up in (the Cloudflare API)

What the setup reads and changes in a zone: its name and status, its HTTP/3 setting, and
for each phase the entry point, an ordered list of rules that may be absent.  A rule is
replaced where it stands or appended; an entry point is created with its first rule.
Identifiers are issued by the zone and never twice.

`editRuleset` and `postRuleset` are the two ways to change a ruleset, with what they leave
alone (`edit_rulesets_of_ne`, `postRuleset_rulesets_of_ne`).
-/
import IrohExperiment.Script.Retains

namespace IrohExperiment.Setup

/-! ## Rules -/

/-- The definition of a rule.  `members` stands for what the setup copies and never reads. -/
structure Rule (α : Type) where
  ref : Option String
  description : Option String
  expression : Option String
  action : Option String
  members : α
  deriving DecidableEq, Repr

/-- A rule in a ruleset. -/
structure StoredRule (α : Type) where
  id : String
  rule : Rule α
  deriving DecidableEq, Repr

/-- The entry point of a phase; one without a rule may lack the list. -/
structure Ruleset (α : Type) where
  id : String
  rules : Option (List (StoredRule α))
  deriving DecidableEq, Repr

variable {α : Type}

/-- `existing?.rules ?? []` -/
def listed (existing : Option (Ruleset α)) : List (StoredRule α) :=
  (existing.bind Ruleset.rules).getD []

@[simp] theorem listed_none : listed (none : Option (Ruleset α)) = [] := rfl

@[simp] theorem listed_some (s : Ruleset α) : listed (some s) = s.rules.getD [] := rfl

/-- Replaces the rule with an identifier, which it keeps. -/
def StoredRule.replace (id : String) (rule : Rule α) (r : StoredRule α) : StoredRule α :=
  if r.id = id then { r with rule } else r

@[simp] theorem StoredRule.replace_id (id : String) (rule : Rule α) (r : StoredRule α) :
    (r.replace id rule).id = r.id := by
  unfold StoredRule.replace
  split_ifs
  · rfl
  · rfl

theorem StoredRule.replace_of_ne {id : String} {r : StoredRule α} (h : r.id ≠ id) (rule : Rule α) :
    r.replace id rule = r := if_neg h

theorem StoredRule.replace_self (rule : Rule α) (r : StoredRule α) :
    r.replace r.id rule = ⟨r.id, rule⟩ := if_pos rfl

/-! ## Identifiers -/

/-- Where new identifiers come from. -/
structure Issuer where
  next : List String → String
  /-- None is issued twice. -/
  fresh : ∀ issued, next issued ∉ issued

/-- One that is longer than all before. -/
def Issuer.longer : Issuer where
  next issued := String.ofList (List.replicate ((issued.map String.length).sum + 1) 'x')
  fresh issued h := by
    have hle := List.le_sum_of_mem (List.mem_map_of_mem (f := String.length) h)
    simp at hle

/-- The rules of a ruleset are told apart by identifiers that have been issued. -/
structure Identified (issued : List String) (rules : List (StoredRule α)) : Prop where
  mem : ∀ r ∈ rules, r.id ∈ issued
  nodup : (rules.map StoredRule.id).Nodup

namespace Identified

variable {issued issued' : List String} {rules : List (StoredRule α)}

theorem nil : Identified issued ([] : List (StoredRule α)) := ⟨by simp, List.nodup_nil⟩

theorem mono (h : Identified issued rules) (hsub : issued ⊆ issued') : Identified issued' rules :=
  ⟨fun r hr => hsub (h.mem r hr), h.nodup⟩

/-- Two rules with one identifier are one rule. -/
theorem eq_of_id (h : Identified issued rules) {r s : StoredRule α} (hr : r ∈ rules)
    (hs : s ∈ rules) (hid : r.id = s.id) : r = s :=
  List.inj_on_of_nodup_map h.nodup hr hs hid

theorem replace (h : Identified issued rules) (id : String) (rule : Rule α) :
    Identified issued (rules.map (StoredRule.replace id rule)) where
  mem r hr := by
    obtain ⟨s, hs, rfl⟩ := List.mem_map.mp hr
    rw [StoredRule.replace_id]
    exact h.mem s hs
  nodup := by
    rw [List.map_map]
    have hids : StoredRule.id ∘ StoredRule.replace id rule =
        (StoredRule.id : StoredRule α → String) := by
      funext r
      exact StoredRule.replace_id id rule r
    rw [hids]
    exact h.nodup

theorem append (h : Identified issued rules) {id : String} (hid : id ∉ issued) (rule : Rule α) :
    Identified (id :: issued) (rules ++ [⟨id, rule⟩]) where
  mem r hr := by
    rcases List.mem_append.mp hr with hr | hr
    · exact List.mem_cons_of_mem id (h.mem r hr)
    · rw [List.mem_singleton.mp hr]
      exact List.mem_cons_self
  nodup := by
    rw [List.map_append, List.map_singleton, List.nodup_append]
    refine ⟨h.nodup, List.nodup_singleton id, fun a ha b hb hab => ?_⟩
    obtain ⟨r, hr, rfl⟩ := List.mem_map.mp ha
    have hr' := h.mem r hr
    rw [hab, List.mem_singleton.mp hb] at hr'
    exact hid hr'

end Identified

/-! ## The zone -/

/-- The zone; `rulesets` are the entry points of its phases. -/
@[ext] structure Zone (α : Type) where
  name : String
  status : String
  http3 : String
  rulesets : String → Option (Ruleset α)
  /-- Every identifier that has ever been issued. -/
  issued : List String
  ruleset_issued : ∀ p s, rulesets p = some s → s.id ∈ issued
  /-- An identifier names one ruleset. -/
  ruleset_inj : ∀ p q s t, rulesets p = some s → rulesets q = some t → s.id = t.id → p = q
  identified : ∀ p, Identified issued (listed (rulesets p))

namespace Zone

/-- The rules of a phase, in order. -/
def rules (z : Zone α) (phase : String) : List (StoredRule α) := listed (z.rulesets phase)

/-- `PATCH /settings/http3` -/
def setHttp3 (z : Zone α) (value : String) : Zone α := { z with http3 := value }

/-! ## Changing a ruleset -/

/-- Changes the rules of the ruleset with an identifier. -/
def editRuleset (id : String) (g : List (StoredRule α) → List (StoredRule α)) (s : Ruleset α) :
    Ruleset α :=
  if s.id = id then { s with rules := some (g (s.rules.getD [])) } else s

theorem editRuleset_id (id : String) (g : List (StoredRule α) → List (StoredRule α))
    (s : Ruleset α) :
    (editRuleset id g s).id = s.id := by
  unfold editRuleset
  split_ifs
  · rfl
  · rfl

/-- Changes the rules of the ruleset with an identifier, with identifiers issued for it. -/
def edit (z : Zone α) (id : String) (g : List (StoredRule α) → List (StoredRule α))
    (issued : List String) (hsub : z.issued ⊆ issued)
    (hg : ∀ l, Identified z.issued l → Identified issued (g l)) : Zone α where
  name := z.name
  status := z.status
  http3 := z.http3
  rulesets p := (z.rulesets p).map (editRuleset id g)
  issued := issued
  ruleset_issued p s hs := by
    obtain ⟨t, ht, rfl⟩ := Option.map_eq_some_iff.mp hs
    rw [editRuleset_id]
    exact hsub (z.ruleset_issued p t ht)
  ruleset_inj p q s t hs ht hid := by
    obtain ⟨s', hs', rfl⟩ := Option.map_eq_some_iff.mp hs
    obtain ⟨t', ht', rfl⟩ := Option.map_eq_some_iff.mp ht
    rw [editRuleset_id, editRuleset_id] at hid
    exact z.ruleset_inj p q s' t' hs' ht' hid
  identified p := by
    have hz := z.identified p
    cases hs : z.rulesets p with
    | none => exact Identified.nil
    | some s =>
      rw [hs] at hz
      show Identified issued ((editRuleset id g s).rules.getD [])
      unfold editRuleset
      split_ifs with hid
      · exact hg _ hz
      · exact hz.mono hsub

section

variable {z : Zone α} {g : List (StoredRule α) → List (StoredRule α)} {issued : List String}
  {hsub : z.issued ⊆ issued} {hg : ∀ l, Identified z.issued l → Identified issued (g l)}
  {p q : String} {s : Ruleset α}

/-- The phase whose ruleset is named is changed. -/
theorem edit_rulesets (h : z.rulesets p = some s) :
    (z.edit s.id g issued hsub hg).rulesets p =
      some { s with rules := some (g (s.rules.getD [])) } := by
  show (z.rulesets p).map (editRuleset s.id g) = _
  rw [h, Option.map_some, editRuleset, if_pos rfl]

/-- No other phase is. -/
theorem edit_rulesets_of_ne (h : z.rulesets p = some s) (hq : q ≠ p) :
    (z.edit s.id g issued hsub hg).rulesets q = z.rulesets q := by
  show (z.rulesets q).map (editRuleset s.id g) = _
  cases ht : z.rulesets q with
  | none => rfl
  | some t =>
    have hid : t.id ≠ s.id := fun hid => hq (z.ruleset_inj q p t s ht h hid)
    rw [Option.map_some, editRuleset, if_neg hid]

end

/-- `PATCH /rulesets/{ruleset}/rules/{id}` -/
def patchRule (z : Zone α) (ruleset id : String) (rule : Rule α) : Zone α :=
  z.edit ruleset (List.map (StoredRule.replace id rule)) z.issued (List.Subset.refl _)
    fun _ hl => hl.replace id rule

/-- `POST /rulesets/{ruleset}/rules` -/
def postRule (z : Zone α) (issuer : Issuer) (ruleset : String) (rule : Rule α) : Zone α :=
  z.edit ruleset (· ++ [⟨issuer.next z.issued, rule⟩]) (issuer.next z.issued :: z.issued)
    (List.subset_cons_self _ _) fun _ hl => hl.append (issuer.fresh z.issued) rule

/-- `POST /rulesets`: the entry point of a phase that has none. -/
def postRuleset (z : Zone α) (issuer : Issuer) (phase : String) (rule : Rule α) : Zone α :=
  if (z.rulesets phase).isSome then z
  else
    let ruleset := issuer.next z.issued
    let id := issuer.next (ruleset :: z.issued)
    { z with
      rulesets := Function.update z.rulesets phase (some ⟨ruleset, some [⟨id, rule⟩]⟩)
      issued := id :: ruleset :: z.issued
      ruleset_issued := by
        intro p s hs
        rw [Function.update_apply] at hs
        split_ifs at hs
        · cases hs
          simp
        · exact List.mem_cons_of_mem _ (List.mem_cons_of_mem _ (z.ruleset_issued p s hs))
      ruleset_inj := by
        intro p q s t hs ht hid
        have hfresh : ∀ p s, z.rulesets p = some s → s.id ≠ ruleset := fun p s hs hid =>
          issuer.fresh z.issued (show ruleset ∈ z.issued from hid ▸ z.ruleset_issued p s hs)
        rw [Function.update_apply] at hs ht
        split_ifs at hs ht with hp hq hq
        · rw [hp, hq]
        · cases hs
          exact absurd hid.symm (hfresh q t ht)
        · cases ht
          exact absurd hid (hfresh p s hs)
        · exact z.ruleset_inj p q s t hs ht hid
      identified := by
        intro p
        rw [Function.update_apply]
        split_ifs
        · exact ⟨by simp, by simp⟩
        · exact (z.identified p).mono fun x hx => List.mem_cons_of_mem _
            (List.mem_cons_of_mem _ hx) }

section

variable {z : Zone α} {issuer : Issuer} {p q : String} {rule : Rule α}

theorem postRuleset_rulesets (issuer : Issuer) (rule : Rule α) (h : z.rulesets p = none) :
    ∃ ruleset id, (z.postRuleset issuer p rule).rulesets p = some ⟨ruleset, some [⟨id, rule⟩]⟩ := by
  unfold postRuleset
  rw [if_neg (by simp [h])]
  exact ⟨_, _, Function.update_self ..⟩

theorem postRuleset_rulesets_of_ne (hq : q ≠ p) :
    (z.postRuleset issuer p rule).rulesets q = z.rulesets q := by
  unfold postRuleset
  split_ifs
  · rfl
  · exact Function.update_of_ne hq ..

end

end Zone

end IrohExperiment.Setup
