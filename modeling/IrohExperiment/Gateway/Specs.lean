/-
# The language of service specs (`tcp-tunnel/src/lib.rs`)

Which specs the service map accepts, for every string, and what it holds after a list of
them.  The map is changed in place here and the bracketed host is cut out by byte
positions, as in the source; both come to what `Gateway/ServiceMap.lean` has.

The main result is `fromSpecs_spec`: the language of accepted specs, that the last entry of
a name wins, that a spec that is refused leaves the map as it was, and that no index or
slice of the source is ever out of bounds.
-/
import IrohExperiment.Gateway.ServiceMap

namespace IrohExperiment.Gateway

open Rust

/-! ## Methods -/

/-- A method of `&mut ServiceMap`: what it returns, and the map as it leaves it. -/
structure Method (α : Type) where
  run : ServiceMap → Exec SpecError α × ServiceMap

namespace Method

variable {α β : Type}

/-- Goes on in the map that is left, if there is a value. -/
def bind (x : Method α) (f : α → Method β) : Method β where
  run services :=
    match x.run services with
    | (.ok a, services) => (f a).run services
    | (.err e, services) => (.err e, services)
    | (.panic p, services) => (.panic p, services)

instance : Monad Method where
  pure a := ⟨fun services => (.ok a, services)⟩
  bind := bind

/-- An expression that does not touch the map. -/
def lift (x : Exec SpecError α) : Method α := ⟨fun services => (x, services)⟩

/-- `self.0.insert(name, target);` -/
def insert (name : Text) (target : Target) : Method Unit :=
  ⟨fun services => (.ok (), services.insert name target)⟩

/-- `?` on an expression that does not touch the map. -/
theorem run_lift_bind (x : Exec SpecError α) (f : α → Method β) (services : ServiceMap) :
    (lift x >>= f).run services =
      match x with
      | .ok a => (f a).run services
      | .err e => (.err e, services)
      | .panic p => (.panic p, services) := by
  cases x <;> rfl

end Method

/-! ## Specs, in place -/

/-- What stands in the brackets, after the first one. -/
def bracketedHost (addr rest : Text) : Exec SpecError Text := do
  let stop ← okOr (rfind ']' rest) .unterminated
  let last ← subUsize (utf8Len rest) 1
  ensure (stop = last) (.afterBracket addr)
  let literal ← sliceTo rest stop
  ensure (isIpv6Literal literal = true) (.notIpv6 addr)
  sliceTo rest stop

/-- The host, bracketed or not. -/
def upstreamHostAt (addr host : Text) : Exec SpecError Text :=
  match host with
  | '[' :: rest => bracketedHost addr rest
  | _ => do
    ensure (':' ∉ host) (.unbracketed addr)
    return host

/-- `validate_upstream`, by byte positions -/
def validateUpstreamAt (addr : Text) : Exec SpecError Unit := do
  let (host, port) ← okOr (rsplitOnce ':' addr) .missingPort
  let host ← upstreamHostAt addr host
  ensure (host ≠ []) (.emptyHost addr)
  let port ← okOr (parseU16 port) (.invalidPort port)
  ensure (port ≠ 0) (.portZero addr)

/-- `.context(format!("invalid upstream for service {name:?}"))` -/
def inService (name : Text) : Exec SpecError Unit → Exec SpecError Unit
  | .ok () => .ok ()
  | .err cause => .err (.invalidUpstream name cause)
  | .panic cause => .panic cause

/-- `insert_spec`, on the map itself -/
def insertSpecAt (spec : Text) : Method Unit := do
  let (name, addr) ← .lift (okOr (splitOnce '=' spec) (.invalidService spec))
  .lift (ensure (name ≠ []) (.emptyName spec))
  .lift (ensure (utf8Len name ≤ maxServiceIdLen) (.longName spec))
  .lift (inService name (validateUpstreamAt addr))
  .insert name ⟨addr⟩

/-- `for spec in specs { map.insert_spec(spec)?; }` -/
def insertSpecs : List Text → Method Unit
  | [] => pure ()
  | spec :: specs => do
    insertSpecAt spec
    insertSpecs specs

/-- `from_specs`, with a map of its own -/
def fromSpecsAt (specs : List Text) : Exec SpecError ServiceMap :=
  match (insertSpecs specs).run .empty with
  | (.ok (), services) => .ok services
  | (.err e, _) => .err e
  | (.panic p, _) => .panic p

/-! ## Byte positions -/

/-- The index arithmetic on the host stays in range and finds the last bracket. -/
theorem bracketedHost_eq (addr rest : Text) :
    bracketedHost addr rest = upstreamHost addr ('[' :: rest) := by
  have hright : upstreamHost addr ('[' :: rest) =
      okOr (rsplitOnce ']' rest) .unterminated >>= fun parts => do
        ensure (parts.2 = []) (.afterBracket addr)
        ensure (isIpv6Literal parts.1 = true) (.notIpv6 addr)
        return parts.1 := rfl
  rw [hright]
  unfold bracketedHost rfind
  cases hsplit : rsplitOnce ']' rest with
  | none => rfl
  | some parts =>
    obtain ⟨literal, after⟩ := parts
    obtain ⟨rfl, -⟩ := rsplitOnce_eq_some hsplit
    have hlen : utf8Len (literal ++ ']' :: after) = utf8Len literal + 1 + utf8Len after := by
      rw [utf8Len_append, utf8Len_cons, ← Nat.add_assoc]
      rfl
    have hsub : subUsize (ε := SpecError) (utf8Len (literal ++ ']' :: after)) 1 =
        .ok (utf8Len literal + utf8Len after) := by
      unfold subUsize
      rw [hlen, if_pos (by omega)]
      congr 1
      omega
    have hlast : utf8Len literal = utf8Len literal + utf8Len after ↔ after = [] := by
      constructor
      · intro heq
        cases after with
        | nil => rfl
        | cons c after =>
          have hpos := c.utf8Size_pos
          rw [utf8Len_cons] at heq
          omega
      · rintro rfl
        rfl
    simp only [Option.map_some, okOr_some, Exec.ok_bind, hsub, sliceTo_append, Exec.pure_eq]
    by_cases hafter : after = []
    · rw [ensure_pos (hlast.mpr hafter), ensure_pos hafter]
    · rw [ensure_neg (mt hlast.mp hafter), ensure_neg hafter]

theorem upstreamHostAt_eq (addr host : Text) :
    upstreamHostAt addr host = upstreamHost addr host := by
  unfold upstreamHostAt
  split
  · exact bracketedHost_eq addr _
  · rename_i hnot
    unfold upstreamHost
    split
    · exact absurd rfl (hnot _)
    · rfl

theorem validateUpstreamAt_eq (addr : Text) : validateUpstreamAt addr = validateUpstream addr := by
  unfold validateUpstreamAt validateUpstream
  simp only [upstreamHostAt_eq]

/-! ## The map in place -/

/-- One spec: the map is replaced by the one with the entry, or left as it is. -/
theorem insertSpecAt_run (spec : Text) (services : ServiceMap) :
    (insertSpecAt spec).run services =
      match insertSpec services spec with
      | .ok services' => (.ok (), services')
      | .err e => (.err e, services)
      | .panic p => (.panic p, services) := by
  unfold insertSpecAt insertSpec
  rw [Method.run_lift_bind]
  cases splitOnce '=' spec with
  | none => rfl
  | some parts =>
    obtain ⟨name, addr⟩ := parts
    simp only [okOr_some, Exec.ok_bind]
    by_cases hname : name ≠ []
    · by_cases hlen : utf8Len name ≤ maxServiceIdLen
      · rw [ensure_pos hname, ensure_pos hlen, Method.run_lift_bind, Method.run_lift_bind,
          Method.run_lift_bind, validateUpstreamAt_eq]
        cases validateUpstream addr <;> rfl
      · rw [ensure_pos hname, ensure_neg hlen, Method.run_lift_bind, Method.run_lift_bind]
        rfl
    · rw [ensure_neg hname, Method.run_lift_bind]
      rfl

theorem insertSpecs_run (specs : List Text) (services : ServiceMap) :
    (match (insertSpecs specs).run services with
      | (.ok (), services') => Exec.ok services'
      | (.err e, _) => .err e
      | (.panic p, _) => .panic p) = specs.foldlM insertSpec services := by
  induction specs generalizing services with
  | nil => rfl
  | cons spec specs ih =>
    have hrun : (insertSpecs (spec :: specs)).run services =
        ((insertSpecAt spec).bind fun _ => insertSpecs specs).run services := rfl
    rw [List.foldlM_cons, hrun]
    simp only [Method.bind, insertSpecAt_run]
    cases insertSpec services spec with
    | ok services' => exact ih services'
    | err e => rfl
    | panic p => rfl

/-- The map of `from_specs` is built one spec after the other. -/
theorem fromSpecsAt_eq (specs : List Text) : fromSpecsAt specs = fromSpecs specs :=
  insertSpecs_run specs .empty

/-! ## The language -/

/-- The host of an upstream: a bracketed IPv6 literal, or a text without colons. -/
def IsHost (host : Text) : Prop :=
  (∃ literal, host = '[' :: (literal ++ [']']) ∧ isIpv6Literal literal = true) ∨
  host ≠ [] ∧ host.head? ≠ some '[' ∧ ':' ∉ host

/-- `host:port`, with a port that is not zero. -/
def IsUpstream (addr : Text) : Prop :=
  ∃ host port n, addr = host ++ ':' :: port ∧ ':' ∉ port ∧ parseU16 port = some n ∧
    n ≠ 0 ∧ IsHost host

/-- The name and the address of a spec. -/
def Names (spec name addr : Text) : Prop := spec = name ++ '=' :: addr ∧ '=' ∉ name

/-- `name=host:port`, with a name that can be requested. -/
def WellFormed (spec : Text) : Prop :=
  ∃ name addr, Names spec name addr ∧ name ≠ [] ∧ utf8Len name ≤ 256 ∧ IsUpstream addr

theorem upstreamHost_iff {addr host : Text} :
    (∃ name, upstreamHost addr host = .ok name ∧ name ≠ []) ↔ IsHost host := by
  unfold upstreamHost IsHost
  split
  · rename_i rest
    constructor
    · rintro ⟨name, hok, -⟩
      obtain ⟨⟨literal, after⟩, hsplit, hok⟩ := Exec.bind_eq_ok.mp hok
      obtain ⟨_, hafter, hok⟩ := Exec.bind_eq_ok.mp hok
      obtain ⟨_, hliteral, -⟩ := Exec.bind_eq_ok.mp hok
      obtain ⟨rfl, -⟩ := rsplitOnce_eq_some (okOr_eq_ok.mp hsplit)
      obtain rfl : after = [] := ensure_eq_ok.mp hafter
      exact .inl ⟨literal, rfl, ensure_eq_ok.mp hliteral⟩
    · rintro (⟨literal, hrest, hliteral⟩ | ⟨-, hhead, -⟩)
      · obtain rfl := List.tail_eq_of_cons_eq hrest
        refine ⟨literal, ?_, ?_⟩
        · rw [rsplitOnce_of_not_mem List.not_mem_nil, okOr_some, Exec.ok_bind]
          simp only [ensure_pos, hliteral, Exec.ok_bind]
          rfl
        · -- nothing is no literal
          rintro rfl
          revert hliteral
          decide
      · exact absurd rfl hhead
  · rename_i hnot
    constructor
    · rintro ⟨name, hok, hname⟩
      obtain ⟨_, hcolon, hok⟩ := Exec.bind_eq_ok.mp hok
      obtain rfl := Exec.ok.inj hok
      refine .inr ⟨hname, ?_, ensure_eq_ok.mp hcolon⟩
      intro hhead
      obtain ⟨rest, hrest⟩ := List.head?_eq_some_iff.mp hhead
      exact hnot rest hrest
    · rintro (⟨literal, rfl, -⟩ | ⟨hname, -, hcolon⟩)
      · exact absurd rfl (hnot _)
      · refine ⟨host, ?_, hname⟩
        rw [ensure_pos hcolon]
        rfl

theorem validateUpstream_iff {addr : Text} : validateUpstream addr = .ok () ↔ IsUpstream addr := by
  unfold validateUpstream
  constructor
  · intro h
    obtain ⟨⟨host, port⟩, hsplit, h⟩ := Exec.bind_eq_ok.mp h
    obtain ⟨name, hhost, h⟩ := Exec.bind_eq_ok.mp h
    obtain ⟨_, hname, h⟩ := Exec.bind_eq_ok.mp h
    obtain ⟨n, hport, h⟩ := Exec.bind_eq_ok.mp h
    obtain ⟨rfl, hcolon⟩ := rsplitOnce_eq_some (okOr_eq_ok.mp hsplit)
    exact ⟨host, port, n, rfl, hcolon, okOr_eq_ok.mp hport, ensure_eq_ok.mp h,
      upstreamHost_iff.mp ⟨name, hhost, ensure_eq_ok.mp hname⟩⟩
  · rintro ⟨host, port, n, rfl, hcolon, hport, hn, hhost⟩
    obtain ⟨name, hname, hne⟩ := (@upstreamHost_iff (host ++ ':' :: port) host).mpr hhost
    rw [rsplitOnce_of_not_mem hcolon, okOr_some, Exec.ok_bind]
    simp only [hname, Exec.ok_bind, ensure_pos hne, hport, okOr_some]
    exact ensure_pos hn _

/-- One spec: it is accepted if it is well formed, and gives the entry that it names. -/
theorem insertSpec_iff {services services' : ServiceMap} {spec : Text} :
    insertSpec services spec = .ok services' ↔
      ∃ name addr, Names spec name addr ∧ (name ≠ [] ∧ utf8Len name ≤ 256 ∧ IsUpstream addr) ∧
        services' = services.insert name ⟨addr⟩ := by
  constructor
  · intro h
    unfold insertSpec at h
    obtain ⟨⟨name, addr⟩, hsplit, h⟩ := Exec.bind_eq_ok.mp h
    obtain ⟨_, hname, h⟩ := Exec.bind_eq_ok.mp h
    obtain ⟨_, hlen, h⟩ := Exec.bind_eq_ok.mp h
    obtain ⟨hspec, hnot⟩ := splitOnce_eq_some (okOr_eq_ok.mp hsplit)
    cases hvalid : validateUpstream addr with
    | ok u =>
      rw [hvalid] at h
      exact ⟨name, addr, ⟨hspec, hnot⟩,
        ⟨ensure_eq_ok.mp hname, ensure_eq_ok.mp hlen, validateUpstream_iff.mp hvalid⟩,
        (Exec.ok.inj h).symm⟩
    | err cause =>
      rw [hvalid] at h
      cases h
    | panic cause =>
      rw [hvalid] at h
      cases h
  · rintro ⟨name, addr, ⟨rfl, hnot⟩, ⟨hname, hlen, hvalid⟩, rfl⟩
    exact insertSpec_of_admissible ⟨hnot, hname, hlen, validateUpstream_iff.mpr hvalid⟩ services

/-- A spec names one name and one address. -/
theorem Names.unique {spec name name' addr addr' : Text} (h : Names spec name addr)
    (h' : Names spec name' addr') : name = name' ∧ addr = addr' := by
  have hsplit := splitOnce_of_not_mem h.2 addr
  have hsplit' := splitOnce_of_not_mem h'.2 addr'
  rw [← h.1] at hsplit
  rw [← h'.1, hsplit] at hsplit'
  exact Prod.mk.inj (Option.some.inj hsplit')

/-- A spec is accepted by every map or by none. -/
theorem wellFormed_iff {services : ServiceMap} {spec : Text} :
    WellFormed spec ↔ ∃ services', insertSpec services spec = .ok services' := by
  constructor
  · rintro ⟨name, addr, hnames, hgood⟩
    exact ⟨_, insertSpec_iff.mpr ⟨name, addr, hnames, hgood, rfl⟩⟩
  · rintro ⟨services', h⟩
    obtain ⟨name, addr, hnames, hgood, -⟩ := insertSpec_iff.mp h
    exact ⟨name, addr, hnames, hgood⟩

/-! ## Lists of specs -/

/-- The last spec of the name gives the address. -/
def LastNames (specs : List Text) (name addr : Text) : Prop :=
  ∃ before spec after, specs = before ++ spec :: after ∧ Names spec name addr ∧
    ∀ later ∈ after, ∀ addr', ¬ Names later name addr'

theorem not_lastNames_nil (name addr : Text) : ¬ LastNames [] name addr := by
  rintro ⟨before, spec, after, heq, -⟩
  cases before <;> cases heq

/-- One more spec. -/
theorem lastNames_concat {specs : List Text} {spec name addr : Text} :
    LastNames (specs ++ [spec]) name addr ↔
      Names spec name addr ∨ LastNames specs name addr ∧ ∀ addr', ¬ Names spec name addr' := by
  constructor
  · rintro ⟨before, found, after, heq, hnames, hlater⟩
    rcases List.eq_nil_or_concat after with rfl | ⟨rest, last, rfl⟩
    · obtain ⟨-, hlast⟩ := List.append_inj' heq rfl
      obtain rfl := List.singleton_inj.mp hlast
      exact .inl hnames
    · rw [List.concat_eq_append] at heq hlater
      rw [← List.cons_append, ← List.append_assoc] at heq
      obtain ⟨hspecs, hlast⟩ := List.append_inj' heq rfl
      obtain rfl := List.singleton_inj.mp hlast
      refine .inr ⟨⟨before, found, rest, hspecs, hnames, ?_⟩, ?_⟩
      · exact fun later hmem => hlater later (List.mem_append_left _ hmem)
      · exact hlater spec (List.mem_append_right _ (List.mem_singleton_self spec))
  · rintro (hnames | ⟨⟨before, found, after, rfl, hnames, hlater⟩, hnot⟩)
    · exact ⟨specs, spec, [], rfl, hnames, fun later hmem => by cases hmem⟩
    · refine ⟨before, found, after ++ [spec], by simp, hnames, ?_⟩
      intro later hmem
      rcases List.mem_append.mp hmem with hmem | hmem
      · exact hlater later hmem
      · rw [List.mem_singleton.mp hmem]
        exact hnot

theorem fromSpecs_concat (specs : List Text) (spec : Text) :
    fromSpecs (specs ++ [spec]) = fromSpecs specs >>= fun services => insertSpec services spec := by
  unfold fromSpecs
  generalize ServiceMap.empty = start
  induction specs generalizing start with
  | nil =>
    show insertSpec start spec >>= pure = insertSpec start spec
    cases insertSpec start spec <;> rfl
  | cons first specs ih =>
    rw [List.cons_append, List.foldlM_cons, List.foldlM_cons]
    cases insertSpec start first with
    | ok next => exact ih next
    | err e => rfl
    | panic p => rfl

/-- The list is accepted if every spec is. -/
theorem fromSpecs_ok_iff (specs : List Text) :
    (∃ services, fromSpecs specs = .ok services) ↔ ∀ spec ∈ specs, WellFormed spec := by
  induction specs using List.reverseRecOn with
  | nil => exact iff_of_true ⟨_, rfl⟩ fun spec hmem => by cases hmem
  | append_singleton specs spec ih =>
    have hall : (∀ s ∈ specs ++ [spec], WellFormed s) ↔ (∀ s ∈ specs, WellFormed s) ∧
        WellFormed spec := by
      simp only [List.mem_append, List.mem_singleton, or_imp, forall_and, forall_eq]
    rw [hall, ← ih, fromSpecs_concat]
    constructor
    · rintro ⟨services', h⟩
      obtain ⟨services, hbefore, hlast⟩ := Exec.bind_eq_ok.mp h
      exact ⟨⟨services, hbefore⟩, wellFormed_iff.mpr ⟨services', hlast⟩⟩
    · rintro ⟨⟨services, hbefore⟩, hspec⟩
      obtain ⟨services', hlast⟩ := (@wellFormed_iff services spec).mp hspec
      exact ⟨services', Exec.bind_eq_ok.mpr ⟨services, hbefore, hlast⟩⟩

/-- The map gives the address of the last spec of the name. -/
theorem get_fromSpecs {specs : List Text} {services : ServiceMap}
    (h : fromSpecs specs = .ok services) (name addr : Text) : services.get name = some addr ↔
      LastNames specs name addr := by
  induction specs using List.reverseRecOn generalizing services addr with
  | nil =>
    obtain rfl := Exec.ok.inj h
    exact iff_of_false (by simp) (not_lastNames_nil name addr)
  | append_singleton specs spec ih =>
    rw [fromSpecs_concat] at h
    obtain ⟨before, hbefore, hlast⟩ := Exec.bind_eq_ok.mp h
    obtain ⟨found, target, hnames, -, rfl⟩ := insertSpec_iff.mp hlast
    rw [lastNames_concat, ServiceMap.get_insert]
    split_ifs with hname
    · subst hname
      constructor
      · intro heq
        obtain rfl := Option.some.inj heq
        exact .inl hnames
      · rintro (hnames' | ⟨-, hnot⟩)
        · rw [(hnames.unique hnames').2]
        · exact absurd hnames (hnot target)
    · have hother : ∀ addr', ¬ Names spec name addr' :=
        fun addr' hnames' => hname (hnames'.unique hnames).1
      rw [ih hbefore]
      constructor
      · exact fun hold => .inr ⟨hold, hother⟩
      · rintro (hnames' | ⟨hold, -⟩)
        · exact absurd hnames' (hother addr)
        · exact hold

/-- No spec of the name, no entry. -/
theorem get_fromSpecs_none {specs : List Text} {services : ServiceMap}
    (h : fromSpecs specs = .ok services) {name : Text}
    (hnone : ∀ spec ∈ specs, ∀ addr, ¬ Names spec name addr) : services.get name = none := by
  cases hget : services.get name with
  | none => rfl
  | some addr =>
    obtain ⟨before, spec, after, rfl, hnames, -⟩ := (get_fromSpecs h name addr).mp hget
    exact absurd hnames (hnone spec (by simp) addr)

/-! ## No panics -/

theorem upstreamHost_returns (addr host : Text) : (upstreamHost addr host).Returns := by
  unfold upstreamHost
  split
  · refine Exec.returns_bind (okOr_returns _ _) fun parts => ?_
    exact Exec.returns_bind (ensure_returns _ _) fun _ =>
      Exec.returns_bind (ensure_returns _ _) fun _ => Exec.returns_ok _
  · exact Exec.returns_bind (ensure_returns _ _) fun _ => Exec.returns_ok _

theorem validateUpstream_returns (addr : Text) : (validateUpstream addr).Returns := by
  refine Exec.returns_bind (okOr_returns _ _) fun parts => ?_
  refine Exec.returns_bind (upstreamHost_returns _ _) fun host => ?_
  refine Exec.returns_bind (ensure_returns _ _) fun _ => ?_
  exact Exec.returns_bind (okOr_returns _ _) fun port => ensure_returns _ _

theorem insertSpec_returns (services : ServiceMap) (spec : Text) :
    (insertSpec services spec).Returns := by
  refine Exec.returns_bind (okOr_returns _ _) fun parts => ?_
  refine Exec.returns_bind (ensure_returns _ _) fun _ => ?_
  refine Exec.returns_bind (ensure_returns _ _) fun _ => ?_
  have hvalid := validateUpstream_returns parts.2
  cases hresult : validateUpstream parts.2 with
  | ok u => exact Exec.returns_ok _
  | err e => exact Exec.returns_err _
  | panic p => exact absurd (hresult ▸ hvalid) (Exec.not_returns_panic p)

theorem fromSpecs_returns (specs : List Text) : (fromSpecs specs).Returns := by
  induction specs using List.reverseRecOn with
  | nil => trivial
  | append_singleton specs spec ih =>
    rw [fromSpecs_concat]
    cases hbefore : fromSpecs specs with
    | ok services => exact insertSpec_returns services spec
    | err e => trivial
    | panic p => exact absurd (hbefore ▸ ih) (Exec.not_returns_panic p)

/-! ## The specification -/

/-- **The service map**: for every list of specs nothing panics, the list is accepted exactly
if every spec is well formed, the map gives the address of the last spec of a name and
nothing else, and a spec that is not accepted leaves the map as it was. -/
theorem fromSpecs_spec (specs : List Text) :
    (fromSpecsAt specs).Returns ∧
    ((∃ services, fromSpecsAt specs = .ok services) ↔ ∀ spec ∈ specs, WellFormed spec) ∧
    (∀ services, fromSpecsAt specs = .ok services →
      (∀ name addr, services.get name = some addr ↔ LastNames specs name addr) ∧
      ∀ name, (∀ spec ∈ specs, ∀ addr, ¬ Names spec name addr) → services.get name = none) ∧
    ∀ services spec, ((insertSpecAt spec).run services).1.Returns ∧
      (((insertSpecAt spec).run services).1 ≠ .ok () →
        ((insertSpecAt spec).run services).2 = services) := by
  rw [fromSpecsAt_eq]
  refine ⟨fromSpecs_returns specs, fromSpecs_ok_iff specs, fun services h => ?_,
    fun services spec => ?_⟩
  · exact ⟨get_fromSpecs h, fun name hnone => get_fromSpecs_none h hnone⟩
  · have hreturns := insertSpec_returns services spec
    rw [insertSpecAt_run]
    cases hresult : insertSpec services spec with
    | ok services' => exact ⟨trivial, fun hne => absurd rfl hne⟩
    | err e => exact ⟨trivial, fun _ => rfl⟩
    | panic p => exact absurd (hresult ▸ hreturns) (Exec.not_returns_panic p)

end IrohExperiment.Gateway
