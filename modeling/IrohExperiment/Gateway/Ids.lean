/-
# Service ids on both sides (`tcp-tunnel/src/bin/client.rs`, `src/lib.rs`)

Which ids the client of the tunnel starts a listener for, and which ids a gateway can have
a service for.  The client looks at the length alone; a name in a spec ends at the first
equals sign.

`checkService` is the check of `--service`.  The main result is `agrees_iff`: the check
agrees with the gateway on an id exactly if it has no equals sign in it or is refused for
its length; `agrees_fails` is an id for which it does not.
-/
import IrohExperiment.Gateway.Specs
import IrohExperiment.Gateway.Tunnel

namespace IrohExperiment.Gateway

open Rust

/-! ## The two sides -/

/-- What `run` of the client checks of `--service` before it binds. -/
def checkService (service : Text) : Exec Text Unit := do
  ensure (service ≠ []) "--service must not be empty".toList
  ensure (utf8Len service ≤ maxServiceIdLen) s!"--service exceeds {maxServiceIdLen} bytes".toList

/-- There is a spec with which a gateway has a service of this id. -/
def Routable (s : Text) : Prop :=
  ∃ spec services, insertSpec .empty spec = .ok services ∧ (services.get s).isSome = true

/-- The request for the id is written, and the id is read back from it. -/
def RoundTrips (s : Text) : Prop :=
  ∀ wire : Wire, wire.Healthy → ∃ wire' bytes,
    (writeRequest s).run wire = .returned (.ok ()) wire' ∧ wire'.sent = wire.sent ++ bytes ∧
    ∀ (source : Source) (rest : Bytes), source.bytes = bytes ++ rest →
      ∃ source', readRequest.run source = .done s source' ∧ source'.bytes = rest

/-- Both sides agree on the id: the client accepts it if and only if a gateway can have a
service for it, and then it goes over the stream. -/
def Agrees (s : Text) : Prop :=
  (checkService s = .ok () ↔ Routable s) ∧ (checkService s = .ok () → RoundTrips s)

/-! ## What each side accepts -/

theorem checkService_iff {s : Text} : checkService s = .ok () ↔ s ≠ [] ∧ utf8Len s ≤ 256 := by
  unfold checkService
  constructor
  · intro h
    obtain ⟨_, hne, hlen⟩ := Exec.bind_eq_ok.mp h
    exact ⟨ensure_eq_ok.mp hne, ensure_eq_ok.mp hlen⟩
  · rintro ⟨hne, hlen⟩
    rw [ensure_pos hne]
    exact ensure_pos hlen _

/-- An upstream that every gateway accepts. -/
theorem isUpstream_local : IsUpstream "localhost:80".toList :=
  ⟨"localhost".toList, "80".toList, 80,
    by decide, by decide, by decide, by decide, .inr (by decide)⟩

/-- A service can have an id that is a name: no equals sign, not empty, not too long. -/
theorem routable_iff {s : Text} : Routable s ↔ '=' ∉ s ∧ s ≠ [] ∧ utf8Len s ≤ 256 := by
  constructor
  · rintro ⟨spec, services, hinsert, hget⟩
    obtain ⟨name, addr, hnames, ⟨hne, hlen, -⟩, rfl⟩ := insertSpec_iff.mp hinsert
    rw [ServiceMap.get_insert] at hget
    split_ifs at hget with hname
    · rw [hname]
      exact ⟨hnames.2, hne, hlen⟩
    · cases hget
  · rintro ⟨hnot, hne, hlen⟩
    refine ⟨s ++ '=' :: "localhost:80".toList,
      ServiceMap.empty.insert s ⟨"localhost:80".toList⟩, ?_, ?_⟩
    · exact insertSpec_iff.mpr ⟨s, _, ⟨rfl, hnot⟩, ⟨hne, hlen, isUpstream_local⟩, rfl⟩
    · rw [ServiceMap.get_insert, if_pos rfl]
      rfl

/-- More specs give no more ids. -/
theorem routable_of_fromSpecs {specs : List Text} {services : ServiceMap} {s : Text}
    (h : fromSpecs specs = .ok services) (hget : (services.get s).isSome = true) : Routable s := by
  obtain ⟨addr, hget⟩ := Option.isSome_iff_exists.mp hget
  obtain ⟨hnot, hne, hlen, -⟩ := valid_fromSpecs h s addr hget
  exact routable_iff.mpr ⟨hnot, hne, hlen⟩

/-- Ids that are not too long go over the stream. -/
theorem roundTrips {s : Text} (hlen : utf8Len s ≤ 256) : RoundTrips s := by
  intro wire hhealthy
  obtain ⟨wire', hwrite, -⟩ := writeRequest_healthy hlen hhealthy
  refine ⟨wire', request s, hwrite, ?_, ?_⟩
  · unfold Wire.sent
    rw [(writeRequest_eq_ok hwrite).1, List.flatMap_append, sent_requestEvents]
  · intro source rest hbytes
    obtain ⟨source', hread, hrest, -⟩ := readRequest_done hlen hbytes
    exact ⟨source', hread, hrest⟩

/-! ## Agreement -/

/-- **Agreement on ids**: the two sides agree on an id exactly if it has no equals sign or is
too long for both. -/
theorem agrees_iff (s : Text) : Agrees s ↔ '=' ∉ s ∨ 256 < utf8Len s := by
  unfold Agrees
  rw [checkService_iff, routable_iff]
  constructor
  · rintro ⟨hsame, -⟩
    by_contra hnot
    rw [not_or, not_not, not_lt] at hnot
    obtain ⟨hequals, hlen⟩ := hnot
    have hne : s ≠ [] := List.ne_nil_of_mem hequals
    exact (hsame.mp ⟨hne, hlen⟩).1 hequals
  · intro h
    refine ⟨⟨?_, And.right⟩, fun haccepted => roundTrips haccepted.2⟩
    rintro ⟨hne, hlen⟩
    rcases h with hnot | hlong
    · exact ⟨hnot, hne, hlen⟩
    · exact absurd hlen (not_le.mpr hlong)

/-- The client accepts an id with an equals sign, and no gateway can have a service for it. -/
theorem agrees_fails : ¬ ∀ s, Agrees s := by
  intro h
  have haccepted : checkService "a=b".toList = .ok () := by decide
  obtain ⟨spec, services, hinsert, hget⟩ := (h "a=b".toList).1.mp haccepted
  obtain ⟨name, addr, ⟨-, hnot⟩, -, rfl⟩ := insertSpec_iff.mp hinsert
  rw [ServiceMap.get_insert] at hget
  split_ifs at hget with hname
  · subst hname
    exact hnot (by decide)
  · cases hget

end IrohExperiment.Gateway
