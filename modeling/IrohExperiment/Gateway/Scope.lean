/-
# The scope of a connection (`tcp-tunnel/src/bin/gateway.rs`)

The access rules of the gateway, and the services that a connecting endpoint may
request: exactly those that the rules allow it.

`parseAllowRule` and `connectionScope`.  Several rules may name one endpoint, and their
services are allowed together.  The main result is `connection_scope_exact`: the scope is
the map restricted to what the rules allow, whatever their order, and building it never
fails.
-/
import IrohExperiment.Gateway.ServiceMap

namespace IrohExperiment.Gateway

open Rust

-- `ι` is `EndpointId`
variable {ι : Type}

/-! ## Rules -/

/-- One access rule parsed from `ID` or `ID=SERVICE`. -/
structure AllowRule (ι : Type) where
  endpoint : ι
  /-- `none`: every configured service. -/
  service : Option Text
  deriving DecidableEq, Repr

/-- `parse_allow_rule`; the error is the rule that has no valid EndpointId. -/
def parseAllowRule (parseId : Text → Option ι) (raw : Text) : Exec Text (AllowRule ι) :=
  match splitOnce '=' raw with
  | some (id, service) => do return ⟨← okOr (parseId id) raw, some service⟩
  | none => do return ⟨← okOr (parseId raw) raw, none⟩

/-- Everything behind the first `=` is the service. -/
theorem parseAllowRule_service {parseId : Text → Option ι} {id : Text} {endpoint : ι} (h : '=' ∉ id)
    (hid : parseId id = some endpoint) (service : Text) :
    parseAllowRule parseId (id ++ '=' :: service) = .ok ⟨endpoint, some service⟩ := by
  unfold parseAllowRule
  rw [splitOnce_of_not_mem h]
  simp only [hid, okOr_some, Exec.ok_bind]
  rfl

section

variable [DecidableEq ι]

/-- The loop of `connection_scope` over the rules that are left. -/
def scopeRules (remote : ι) (services : ServiceMap) :
    List (AllowRule ι) → ServiceMap → Bool → Option ServiceMap
  | [], scope, matched => if matched then some scope else none
  | rule :: rules, scope, matched =>
    if rule.endpoint ≠ remote then scopeRules remote services rules scope matched
    else
      match rule.service with
      | none => some services
      | some name =>
        match services.get name with
        | none => scopeRules remote services rules scope true
        | some addr =>
          match insertSpec scope (name ++ '=' :: addr) with
          | .ok scope => scopeRules remote services rules scope true
          | _ => none

/-- `connection_scope` -/
def connectionScope (remote : ι) (allow : List (AllowRule ι)) (services : ServiceMap) :
    Option ServiceMap :=
  if allow = [] then some services
  else scopeRules remote services allow .empty false

end

/-! ## Access -/

/-- The rule lets the endpoint use the service. -/
def AllowRule.Grants (rule : AllowRule ι) (remote : ι) (s : Text) : Prop :=
  rule.endpoint = remote ∧ (rule.service = none ∨ rule.service = some s)

/-- Some rule lets the endpoint use the service. -/
def Granted (remote : ι) (rules : List (AllowRule ι)) (s : Text) : Prop :=
  ∃ rule ∈ rules, rule.Grants remote s

instance [DecidableEq ι] (rule : AllowRule ι) (remote : ι) (s : Text) :
    Decidable (rule.Grants remote s) :=
  inferInstanceAs (Decidable (_ ∧ _))

instance [DecidableEq ι] (remote : ι) (rules : List (AllowRule ι)) (s : Text) :
    Decidable (Granted remote rules s) :=
  inferInstanceAs (Decidable (∃ rule ∈ rules, _))

theorem granted_cons {remote : ι} {rule : AllowRule ι} {rules : List (AllowRule ι)} {s : Text} :
    Granted remote (rule :: rules) s ↔ rule.Grants remote s ∨ Granted remote rules s := by
  simp [Granted]

/-- The access relation: everybody may do everything if there are no rules. -/
def Allowed (remote : ι) (allow : List (AllowRule ι)) (s : Text) : Prop :=
  allow = [] ∨ Granted remote allow s

instance [DecidableEq ι] (remote : ι) (allow : List (AllowRule ι)) (s : Text) :
    Decidable (Allowed remote allow s) :=
  inferInstanceAs (Decidable (_ ∨ _))

/-- What has been put into the scope so far is also in the service map. -/
def Within (scope services : ServiceMap) : Prop :=
  ∀ s, scope.get s = none ∨ scope.get s = services.get s

theorem within_empty (services : ServiceMap) : Within .empty services := fun _ => .inl rfl

theorem Within.insert {scope services : ServiceMap} (h : Within scope services) {name addr : Text}
    (hget : services.get name = some addr) : Within (scope.insert name ⟨addr⟩) services := by
  intro s
  rw [ServiceMap.get_insert]
  split_ifs with hs
  · rw [hs, hget]
    exact .inr rfl
  · exact h s

variable [DecidableEq ι]

/-- What the loop does with the rules that are left. -/
def ScopeSpec (remote : ι) (services : ServiceMap) (rules : List (AllowRule ι)) (scope : ServiceMap)
    (matched : Bool) : Option ServiceMap → Prop
  | none => matched = false ∧ ∀ rule ∈ rules, rule.endpoint ≠ remote
  | some result => (matched = true ∨ ∃ rule ∈ rules, rule.endpoint = remote) ∧
      ∀ s, result.get s = if Granted remote rules s then services.get s else scope.get s

/-- A rule for somebody else changes nothing. -/
theorem ScopeSpec.other {remote : ι} {services : ServiceMap} {rules : List (AllowRule ι)}
    {scope : ServiceMap} {matched : Bool} {rule : AllowRule ι} (hother : rule.endpoint ≠ remote)
    {result : Option ServiceMap} (h : ScopeSpec remote services rules scope matched result) :
    ScopeSpec remote services (rule :: rules) scope matched result := by
  cases result with
  | none =>
    refine ⟨h.1, fun rule' hrule => ?_⟩
    rcases List.mem_cons.mp hrule with rfl | hrule
    · exact hother
    · exact h.2 rule' hrule
  | some result =>
    have hgrants : ∀ s, ¬ rule.Grants remote s := fun s hg => hother hg.1
    refine ⟨h.1.imp_right fun ⟨rule', hrule, heq⟩ => ⟨rule', List.mem_cons_of_mem _ hrule, heq⟩,
      fun s => ?_⟩
    simp only [granted_cons, hgrants, false_or]
    exact h.2 s

/-- A rule that names a service adds it, if there is such a service. -/
theorem ScopeSpec.named {remote : ι} {services : ServiceMap} {rules : List (AllowRule ι)}
    {scope scope' : ServiceMap} {matched : Bool} {rule : AllowRule ι} {name : Text}
    (hremote : rule.endpoint = remote) (hname : rule.service = some name)
    (hscope : ∀ s, scope'.get s = if s = name then services.get s else scope.get s)
    {result : Option ServiceMap} (h : ScopeSpec remote services rules scope' true result) :
    ScopeSpec remote services (rule :: rules) scope matched result := by
  cases result with
  | none => cases h.1
  | some result =>
    have hgrants : ∀ s, rule.Grants remote s ↔ s = name := by
      intro s
      unfold AllowRule.Grants
      rw [hname]
      constructor
      · rintro ⟨-, hnone | hsome⟩
        · cases hnone
        · exact (Option.some.inj hsome).symm
      · rintro rfl
        exact ⟨hremote, .inr rfl⟩
    refine ⟨.inr ⟨rule, List.mem_cons_self, hremote⟩, fun s => ?_⟩
    rw [h.2 s, hscope s]
    simp only [granted_cons, hgrants]
    by_cases hs : s = name <;> by_cases hgranted : Granted remote rules s <;> simp [hs, hgranted]

/-- The loop rejects exactly when no rule names the endpoint, and else adds what the
rules grant. -/
theorem scopeRules_spec {services : ServiceMap} (hvalid : Valid services) (remote : ι)
    (rules : List (AllowRule ι)) {scope : ServiceMap} (hwithin : Within scope services)
    (matched : Bool) :
    ScopeSpec remote services rules scope matched
      (scopeRules remote services rules scope matched) := by
  induction rules generalizing scope matched with
  | nil =>
    unfold scopeRules
    cases matched with
    | false => exact ⟨rfl, nofun⟩
    | true => exact ⟨.inl rfl, fun s => by simp [Granted]⟩
  | cons rule rules ih =>
    unfold scopeRules
    by_cases hremote : rule.endpoint = remote
    · rw [if_neg (not_not.mpr hremote)]
      cases hservice : rule.service with
      | none =>
        refine ⟨.inr ⟨rule, List.mem_cons_self, hremote⟩, fun s => ?_⟩
        rw [if_pos ⟨rule, List.mem_cons_self, hremote, .inl hservice⟩]
      | some name =>
        simp only
        cases hget : services.get name with
        | none =>
          refine (ih hwithin true).named hremote hservice fun s => ?_
          split_ifs with hs
          · rw [hs, hget]
            rcases hwithin name with hnone | hsame
            · exact hnone
            · rw [hsame, hget]
          · rfl
        | some addr =>
          simp only [insertSpec_of_admissible (hvalid name addr hget)]
          refine (ih (hwithin.insert hget) true).named hremote hservice fun s => ?_
          rw [ServiceMap.get_insert]
          split_ifs with hs
          · rw [hs, hget]
          · rfl
    · rw [if_pos hremote]
      exact (ih hwithin matched).other hremote

theorem connectionScope_none {services : ServiceMap} (hvalid : Valid services)
    (allow : List (AllowRule ι)) (remote : ι) :
    connectionScope remote allow services = none ↔
      allow ≠ [] ∧ ∀ rule ∈ allow, rule.endpoint ≠ remote := by
  unfold connectionScope
  by_cases hempty : allow = []
  · simp [hempty]
  · rw [if_neg hempty]
    have hspec := scopeRules_spec hvalid remote allow (within_empty services) false
    cases hresult : scopeRules remote services allow .empty false with
    | none =>
      rw [hresult] at hspec
      simp only [true_iff]
      exact ⟨hempty, hspec.2⟩
    | some result =>
      rw [hresult] at hspec
      simp only [reduceCtorEq, false_iff, not_and, not_forall]
      intro _
      rcases hspec.1 with hmatched | ⟨rule, hrule, heq⟩
      · cases hmatched
      · exact ⟨rule, hrule, not_not.mpr heq⟩

theorem connectionScope_get {services scope : ServiceMap} (hvalid : Valid services)
    {allow : List (AllowRule ι)} {remote : ι}
    (h : connectionScope remote allow services = some scope)
    (s : Text) : scope.get s = if Allowed remote allow s then services.get s else none := by
  unfold connectionScope at h
  by_cases hempty : allow = []
  · rw [if_pos hempty] at h
    obtain rfl := Option.some.inj h
    rw [if_pos (.inl hempty)]
  · rw [if_neg hempty] at h
    have hspec := scopeRules_spec hvalid remote allow (within_empty services) false
    rw [h] at hspec
    rw [hspec.2 s]
    simp [Allowed, hempty]

/-- What a connection may use is exactly what the rules allow: it is rejected exactly
when there are rules and none names it, its scope gives the target of each service
that it is allowed and of no other, whatever the order and the repetition of the
rules, and rebuilding an entry from its text never fails or changes it. -/
theorem connection_scope_exact {specs : List Text} {services : ServiceMap}
    (hbuilt : fromSpecs specs = .ok services) (allow : List (AllowRule ι)) (remote : ι) :
    (connectionScope remote allow services = none ↔
      allow ≠ [] ∧ ∀ rule ∈ allow, rule.endpoint ≠ remote) ∧
    (∀ scope, connectionScope remote allow services = some scope → ∀ s,
      scope.get s = if Allowed remote allow s then services.get s else none) ∧
    (∀ allow' : List (AllowRule ι), (∀ rule, rule ∈ allow' ↔ rule ∈ allow) →
      (connectionScope remote allow' services).map ServiceMap.get =
        (connectionScope remote allow services).map ServiceMap.get) ∧
    ∀ name addr, services.get name = some addr → ∀ scope : ServiceMap,
      insertSpec scope (name ++ '=' :: addr) = .ok (scope.insert name ⟨addr⟩) ∧
        (scope.insert name ⟨addr⟩).get name = some addr := by
  have hvalid := valid_fromSpecs hbuilt
  refine ⟨connectionScope_none hvalid allow remote,
    fun scope h s => connectionScope_get hvalid h s, ?_, ?_⟩
  · intro allow' hsame
    have hempty : allow' = [] ↔ allow = [] := by
      simp only [List.eq_nil_iff_forall_not_mem, hsame]
    have hallowed : ∀ s, Allowed remote allow' s ↔ Allowed remote allow s := by
      intro s
      simp only [Allowed, Granted, hempty, hsame]
    have hnone : connectionScope remote allow' services = none ↔
        connectionScope remote allow services = none := by
      rw [connectionScope_none hvalid, connectionScope_none hvalid, ne_eq, hempty]
      simp only [hsame, ne_eq]
    cases hscope : connectionScope remote allow services with
    | none => rw [hnone.mpr hscope]
    | some scope =>
      cases hscope' : connectionScope remote allow' services with
      | none =>
        rw [hnone.mp hscope'] at hscope
        cases hscope
      | some scope' =>
        simp only [Option.map_some, Option.some.injEq]
        funext s
        rw [connectionScope_get hvalid hscope s, connectionScope_get hvalid hscope' s]
        simp only [hallowed]
  · intro name addr hget scope
    refine ⟨insertSpec_of_admissible (hvalid name addr hget) scope, ?_⟩
    rw [ServiceMap.get_insert, if_pos rfl]

/-- Two services, and an endpoint that may use one of them. -/
theorem connection_scope_exact_named : ∃ services scope : ServiceMap,
    fromSpecs ["web=[::1]:8080".toList, "ssh=a=b:22".toList] = .ok services ∧
    connectionScope 7 [⟨7, some "ssh".toList⟩, ⟨8, none⟩] services = some scope ∧
    scope.get "ssh".toList = some "a=b:22".toList ∧ scope.get "web".toList = none := by
  have hbuilt : ∃ services, fromSpecs ["web=[::1]:8080".toList, "ssh=a=b:22".toList] =
    .ok services ∧
      services.get "ssh".toList = some "a=b:22".toList :=
    ⟨_, rfl, by decide⟩
  obtain ⟨services, hbuilt, hget⟩ := hbuilt
  obtain ⟨hreject, hscope, -, -⟩ := connection_scope_exact hbuilt
    [⟨7, some "ssh".toList⟩, ⟨8, none⟩] (7 : ℕ)
  cases h : connectionScope 7 [⟨7, some "ssh".toList⟩, ⟨8, none⟩] services with
  | none => exact absurd rfl ((hreject.mp h).2 _ List.mem_cons_self)
  | some scope =>
    refine ⟨services, scope, hbuilt, h, ?_, ?_⟩
    · rw [hscope scope h, if_pos (by decide), hget]
    · rw [hscope scope h, if_neg (by decide)]

end IrohExperiment.Gateway
