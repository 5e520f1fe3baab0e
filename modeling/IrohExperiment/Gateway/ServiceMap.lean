/-
# The service map of the gateway (`tcp-tunnel/src/lib.rs`)

The routable services of the TCP tunnel gateway: how `name=host:port` specs become
entries, and what every entry satisfies.

`insertSpec`, `validateUpstream` and `fromSpecs`.  An entry is a `Target`, a host and a port
that were checked when it was made.  `insertSpec_eq_ok` says which specs are taken, and
`valid_fromSpecs` that a map that was built from specs holds nothing else.
-/
import IrohExperiment.Rust.Parse

namespace IrohExperiment.Gateway

open Rust

/-! ## Entries -/

/-- Maximum accepted length of a service id. -/
def maxServiceIdLen : ℕ := 256

/-- Why a spec is rejected. -/
inductive SpecError where
  /-- `invalid --service {spec:?}: expected name=host:port` -/
  | invalidService (spec : Text)
  /-- `empty service name in {spec:?}` -/
  | emptyName (spec : Text)
  /-- `service name exceeds {MAX_SERVICE_ID_LEN} bytes in {spec:?}; clients could never
  request it` -/
  | longName (spec : Text)
  /-- `missing :port` -/
  | missingPort
  /-- `unterminated IPv6 literal in upstream address` -/
  | unterminated
  /-- `characters after ']' in IPv6 upstream address {addr:?}` -/
  | afterBracket (addr : Text)
  /-- `bracketed upstream host in {addr:?} is not an IPv6 literal` -/
  | notIpv6 (addr : Text)
  /-- `IPv6 upstream addresses must be bracketed: {addr:?}` -/
  | unbracketed (addr : Text)
  /-- `upstream host is empty in {addr:?}` -/
  | emptyHost (addr : Text)
  /-- `port {port:?} is not a valid u16` -/
  | invalidPort (port : Text)
  /-- `upstream port 0 is not usable in {addr:?}` -/
  | portZero (addr : Text)
  /-- `invalid upstream for service {name:?}` -/
  | invalidUpstream (name : Text) (cause : SpecError)
  deriving DecidableEq, Repr

/-- A validated upstream target address. -/
structure Target where
  addr : Text
  deriving DecidableEq, Repr

/-- Allowlist of routable services: a map from service ids to targets. -/
structure ServiceMap where
  entries : List (Text × Target)
  nodup : (entries.map Prod.fst).Nodup
  deriving DecidableEq, Repr

namespace ServiceMap

/-- `ServiceMap::default`. -/
def empty : ServiceMap := ⟨[], List.nodup_nil⟩

/-- `BTreeMap::get`. -/
def lookup (services : ServiceMap) (name : Text) : Option Target :=
  (services.entries.find? fun entry => entry.1 = name).map Prod.snd

/-- `BTreeMap::insert`: an earlier entry of the name is replaced. -/
def insert (services : ServiceMap) (name : Text) (target : Target) : ServiceMap where
  entries := (name, target) :: services.entries.filter fun entry => entry.1 ≠ name
  nodup := by
    rw [List.map_cons, List.nodup_cons]
    refine ⟨?_, services.nodup.sublist (List.filter_sublist.map _)⟩
    rw [List.mem_map]
    rintro ⟨entry, hentry, rfl⟩
    simpa using (List.mem_filter.mp hentry).2

/-- `ServiceMap::get` -/
def get (services : ServiceMap) (serviceId : Text) : Option Text :=
  (services.lookup serviceId).map Target.addr

/-- `ServiceMap::len` -/
def len (services : ServiceMap) : ℕ := services.entries.length

/-- `ServiceMap::is_empty` -/
def isEmpty (services : ServiceMap) : Bool := services.entries.isEmpty

end ServiceMap

/-! ## Specs -/

/-- The host of an authority: what stands in the brackets, or everything. -/
def upstreamHost (addr host : Text) : Exec SpecError Text :=
  match host with
  | '[' :: rest => do
    -- `rest.rfind(']')`, and nothing after it
    let (literal, after) ← okOr (rsplitOnce ']' rest) .unterminated
    ensure (after = []) (.afterBracket addr)
    ensure (isIpv6Literal literal = true) (.notIpv6 addr)
    return literal
  | _ => do
    ensure (':' ∉ host) (.unbracketed addr)
    return host

/-- `ServiceMap::validate_upstream` -/
def validateUpstream (addr : Text) : Exec SpecError Unit := do
  let (host, port) ← okOr (rsplitOnce ':' addr) .missingPort
  let host ← upstreamHost addr host
  ensure (host ≠ []) (.emptyHost addr)
  let port ← okOr (parseU16 port) (.invalidPort port)
  ensure (port ≠ 0) (.portZero addr)

/-- `ServiceMap::insert_spec` -/
def insertSpec (services : ServiceMap) (spec : Text) : Exec SpecError ServiceMap := do
  let (name, addr) ← okOr (splitOnce '=' spec) (.invalidService spec)
  ensure (name ≠ []) (.emptyName spec)
  ensure (utf8Len name ≤ maxServiceIdLen) (.longName spec)
  match validateUpstream addr with
  | .ok () => return services.insert name ⟨addr⟩
  | .err cause => .err (.invalidUpstream name cause)
  | .panic cause => .panic cause

/-- `ServiceMap::from_specs` -/
def fromSpecs (specs : List Text) : Exec SpecError ServiceMap :=
  specs.foldlM insertSpec ServiceMap.empty

example : (do return (← fromSpecs ["web=[::1]:8080".toList, "ssh=host:22".toList]).get "ssh".toList)
    =
    (.ok (some "host:22".toList) : Exec SpecError _) := by decide

/-! ## What a map gives -/

theorem ServiceMap.get_insert (services : ServiceMap) (name : Text) (target : Target) (s : Text) :
    (services.insert name target).get s = if s = name then some target.addr
      else services.get s := by
  unfold get lookup insert
  simp only
  split_ifs with hs
  · subst hs
    rw [List.find?_cons_of_pos (by simp)]
    rfl
  · rw [List.find?_cons_of_neg (by simpa using Ne.symm hs), List.find?_filter]
    congr 2
    apply List.find?_congr
    intro entry _
    by_cases hentry : entry.1 = s
    · simp [hentry, hs]
    · simp [hentry]

@[simp] theorem ServiceMap.get_empty (s : Text) : ServiceMap.empty.get s = none := rfl

/-- A name and a target that a spec can have. -/
structure Admissible (name addr : Text) : Prop where
  separable : '=' ∉ name
  nonempty : name ≠ []
  requestable : utf8Len name ≤ maxServiceIdLen
  valid : validateUpstream addr = .ok ()

/-- The spec of an admissible entry is accepted, and gives this entry. -/
theorem insertSpec_of_admissible {name addr : Text} (h : Admissible name addr)
    (services : ServiceMap) :
    insertSpec services (name ++ '=' :: addr) = .ok (services.insert name ⟨addr⟩) := by
  unfold insertSpec
  rw [splitOnce_of_not_mem h.separable]
  simp only [okOr_some, Exec.ok_bind]
  rw [ensure_pos h.nonempty, ensure_pos h.requestable, h.valid]
  rfl

/-- A spec that is accepted gives an admissible entry. -/
theorem insertSpec_eq_ok {services services' : ServiceMap} {spec : Text}
    (h : insertSpec services spec = .ok services') :
    ∃ name addr, Admissible name addr ∧ services' = services.insert name ⟨addr⟩ := by
  unfold insertSpec at h
  obtain ⟨⟨name, addr⟩, hsplit, h⟩ := Exec.bind_eq_ok.mp h
  obtain ⟨_, hname, h⟩ := Exec.bind_eq_ok.mp h
  obtain ⟨_, hlen, h⟩ := Exec.bind_eq_ok.mp h
  have hparts : splitOnce '=' spec = some (name, addr) := okOr_eq_ok.mp hsplit
  cases hvalid : validateUpstream addr with
  | ok u =>
    rw [hvalid] at h
    exact ⟨name, addr, ⟨(splitOnce_eq_some hparts).2, ensure_eq_ok.mp hname,
      ensure_eq_ok.mp hlen, hvalid⟩, (Exec.ok.inj h).symm⟩
  | err cause =>
    rw [hvalid] at h
    cases h
  | panic cause =>
    rw [hvalid] at h
    cases h

/-- Every entry of the map is admissible. -/
def Valid (services : ServiceMap) : Prop :=
  ∀ name addr, services.get name = some addr → Admissible name addr

theorem valid_empty : Valid .empty := by
  intro name addr h
  cases h

theorem Valid.insertSpec {services services' : ServiceMap} {spec : Text} (hv : Valid services)
    (h : insertSpec services spec = .ok services') : Valid services' := by
  obtain ⟨name, addr, hadmissible, rfl⟩ := insertSpec_eq_ok h
  intro name' addr' hget
  rw [ServiceMap.get_insert] at hget
  split_ifs at hget with hname
  · obtain rfl := Option.some.inj hget
    rw [hname]
    exact hadmissible
  · exact hv name' addr' hget

/-- Every map that is built from specs is valid. -/
theorem valid_fromSpecs {specs : List Text} {services : ServiceMap}
    (h : fromSpecs specs = .ok services) : Valid services := by
  suffices hs : ∀ start, Valid start → specs.foldlM Gateway.insertSpec start = .ok services →
      Valid services from hs _ valid_empty h
  clear h
  induction specs with
  | nil =>
    intro start hstart h
    obtain rfl := Exec.ok.inj h
    exact hstart
  | cons spec specs ih =>
    intro start hstart h
    rw [List.foldlM_cons] at h
    obtain ⟨next, hinsert, h⟩ := Exec.bind_eq_ok.mp h
    exact ih next (hstart.insertSpec hinsert) h

end IrohExperiment.Gateway
