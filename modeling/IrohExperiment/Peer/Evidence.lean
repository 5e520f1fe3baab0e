/-
# The evidence of a direct path (`worker/public/peer-proof.js`)

What one browser can say of the path between the two: the selected path of a statistics
snapshot, the candidates that both exchanged, and the evidence made of them.

`observedPath_iff`, `differentNetworks_iff` and `qualifiesForCrossNat_iff` say what it takes
for each verdict, field by field: a selected pair of the kinds that count, candidates that
were exchanged, and public addresses on both sides that differ.
-/
import IrohExperiment.Relay.Protocol

namespace IrohExperiment.Peer

/-! ## Addresses -/

/-- `excludedV4`: the first address of a block and its number of bits. -/
def excludedV4 : List (ℕ × ℕ) :=
  [(0x00000000, 8), (0x0a000000, 8), (0x7f000000, 8), (0xe0000000, 3), (0x64400000, 10),
    (0xa9fe0000, 16), (0xac100000, 12), (0xc0a80000, 16), (0xc0000000, 24), (0xc0000200, 24),
    (0xc6120000, 15), (0xc6336400, 24), (0xcb007100, 24)]

/-- `\d{1,3}` -/
def isPart (part : List Char) : Bool :=
  decide (1 ≤ part.length ∧ part.length ≤ 3) && part.all isDigit

/-- `publicV4`, of an address that may be `null`. -/
def publicV4 (address : Option String) : Bool :=
  match address with
  | none => false
  | some address =>
    let groups := address.toList.splitOn '.'
    if groups.length ≠ 4 ∨ !groups.all isPart then false
    else
      let parts := groups.map decimal
      if parts.any (255 < ·) then false
      else
        let numeric := parts.foldl (fun value part => value * 256 + part) 0
        !excludedV4.any fun block => numeric / 2 ^ (32 - block.2) == block.1 / 2 ^ (32 - block.2)

/-! ## Candidates and paths -/

/-- What `candidateInfo` returns. -/
structure Candidate where
  address : String
  port : ℕ
  type : String
  protocol : String
  deriving DecidableEq, Repr

/-- `srflxCandidate`, of what `candidateInfo` returned. -/
def srflxCandidate (parsed : Candidate) : Option Candidate :=
  if parsed.type = "srflx" ∧ parsed.protocol = "udp" ∧ publicV4 parsed.address = true then
    some parsed else none

/-- One end of a selected path. -/
structure PathEnd where
  address : Option String
  port : Option ℕ
  type : Option String
  protocol : Option String
  deriving DecidableEq, Repr

/-- What `selectedPath` returns. -/
structure Path where
  pairId : String
  localEnd : PathEnd
  remoteEnd : PathEnd
  deriving DecidableEq, Repr

/-- One entry of an `RTCStatsReport`. -/
structure Stat where
  id : String
  type : String
  selectedCandidatePairId : Option String
  selected : Option Bool
  state : Option String
  localCandidateId : Option String
  remoteCandidateId : Option String
  address : Option String
  ip : Option String
  port : Option ℕ
  candidateType : Option String
  protocol : Option String

/-- An `RTCStatsReport`, in its order. -/
abbrev Stats := List Stat

/-- `stats.get` -/
def Stats.get (stats : Stats) (id : Option String) : Option Stat :=
  stats.find? fun s => some s.id == id

/-- The value is a string and not the empty one. -/
def truthy (text : Option String) : Bool := text.any (· ≠ "")

/-- `selectedPath` -/
def selectedPath (stats : Stats) : Option Path := do
  let transport := stats.find? fun s => s.type == "transport" && truthy s.selectedCandidatePairId
  let pair ← match transport with
    | some transport => stats.get transport.selectedCandidatePairId
    | none => stats.find? fun s =>
        s.type == "candidate-pair" && s.selected == some true && s.state == some "succeeded"
  let l ← stats.get pair.localCandidateId
  let r ← stats.get pair.remoteCandidateId
  let candidate := fun c : Stat =>
    (⟨c.address.or c.ip, c.port, c.candidateType, c.protocol⟩ : PathEnd)
  some ⟨pair.id, candidate l, candidate r⟩

/-! ## Evidence -/

/-- What `pathEvidence` returns. -/
structure Evidence where
  selectedPublicIpv4Path : Bool
  differentStunPublicIps : Bool
  selectedPairStable : Bool
  qualifiesForCrossNat : Bool
  deriving DecidableEq, Repr

/-- `differentNetworks` -/
def differentNetworks (localCandidates remoteCandidates : List Candidate) : Bool :=
  let localIps := (localCandidates.map Candidate.address).dedup
  let remoteIps := (remoteCandidates.map Candidate.address).dedup
  if localIps.isEmpty || remoteIps.isEmpty then false
  else if !(localIps ++ remoteIps).all fun ip => publicV4 ip then false
  else localIps.all fun ip => !remoteIps.contains ip

/-- The type of a path's end is one that no relay gives. -/
def direct (type : Option String) : Bool := ["host", "srflx", "prflx"].any fun t => type == some t

/-- `observedPath` -/
def observedPath (path : Option Path) (remoteCandidates : List Candidate) : Bool :=
  match path with
  | none => false
  | some path =>
    if !direct path.localEnd.type then false
    else if !direct path.remoteEnd.type then false
    else if path.remoteEnd.protocol.map String.toLower ≠ some "udp" ∨
      !publicV4 path.remoteEnd.address then false
    else remoteCandidates.any fun c => some c.address == path.remoteEnd.address

/-- `pathEvidence` -/
def pathEvidence (before after : Option Path) (localCandidates remoteCandidates : List Candidate) :
    Evidence :=
  let observed := [before, after].all fun path => observedPath path remoteCandidates
  let different := differentNetworks localCandidates remoteCandidates
  let stable := truthy (before.map Path.pairId) && before.map Path.pairId == after.map Path.pairId
  ⟨observed, different, stable, [observed, different, stable].all id⟩

/-- The path is a direct one over UDP to a public address that the peer named. -/
structure Observed (path : Path) (remoteCandidates : List Candidate) : Prop where
  localDirect : direct path.localEnd.type = true
  remoteDirect : direct path.remoteEnd.type = true
  udp : path.remoteEnd.protocol.map String.toLower = some "udp"
  publicAddress : publicV4 path.remoteEnd.address = true
  named : ∃ c ∈ remoteCandidates, some c.address = path.remoteEnd.address

theorem observedPath_iff {path : Option Path} {remoteCandidates : List Candidate} :
    observedPath path remoteCandidates = true ↔ ∃ p, path = some p ∧
      Observed p remoteCandidates := by
  cases path with
  | none => simp [observedPath]
  | some path =>
    constructor
    · intro h
      simp only [observedPath] at h
      split_ifs at h with hlocal hremote hudp
      rw [not_or, not_not] at hudp
      refine ⟨path, rfl, by simpa using hlocal, by simpa using hremote, hudp.1,
        by simpa using hudp.2, ?_⟩
      simpa using h
    · rintro ⟨p, hp, h⟩
      obtain rfl := Option.some.inj hp
      unfold observedPath
      simpa [h.localDirect, h.remoteDirect, h.udp, h.publicAddress] using h.named

theorem differentNetworks_iff {localCandidates remoteCandidates : List Candidate} :
    differentNetworks localCandidates remoteCandidates = true ↔
      localCandidates ≠ [] ∧ remoteCandidates ≠ [] ∧
        (∀ c ∈ localCandidates ++ remoteCandidates, publicV4 c.address = true) ∧
        ∀ l ∈ localCandidates, ∀ r ∈ remoteCandidates, l.address ≠ r.address := by
  have hempty : ∀ cs : List Candidate, (cs.map Candidate.address).dedup.isEmpty = true ↔
      cs = [] := by
    intro cs
    rw [List.isEmpty_iff, List.dedup_eq_nil, List.map_eq_nil_iff]
  unfold differentNetworks
  simp only [Bool.or_eq_true, hempty]
  split_ifs with hnone hprivate
  · refine iff_of_false id ?_
    rintro ⟨hl, hr, -⟩
    exact hnone.elim hl hr
  · refine iff_of_false id ?_
    rintro ⟨-, -, hpublic, -⟩
    refine absurd hprivate ?_
    simpa [or_imp, forall_and] using hpublic
  · rw [not_or] at hnone
    refine Iff.trans ?_ (and_iff_right hnone.1).symm
    refine Iff.trans ?_ (and_iff_right hnone.2).symm
    refine Iff.trans ?_ (and_iff_right ?_).symm
    · simp only [List.all_eq_true, List.mem_dedup, List.mem_map, List.contains_eq_mem,
        Bool.not_eq_true', decide_eq_false_iff_not, forall_exists_index, and_imp,
        forall_apply_eq_imp_iff₂, not_exists, not_and]
      constructor <;> exact fun h l hl r hr heq => h l hl r hr heq.symm
    · simpa [or_imp, forall_and] using hprivate

/-- **What qualifies**: before and after the transfer the browser saw the same direct path over
UDP to a public address that the peer named, and no address of the one side is one of the
other's. -/
theorem qualifiesForCrossNat_iff {before after : Option Path}
    {localCandidates remoteCandidates : List Candidate} :
    (pathEvidence before after localCandidates remoteCandidates).qualifiesForCrossNat = true ↔
      (∃ b a, before = some b ∧ after = some a ∧ Observed b remoteCandidates ∧
        Observed a remoteCandidates ∧
        b.pairId = a.pairId ∧ b.pairId ≠ "") ∧
      differentNetworks localCandidates remoteCandidates = true := by
  unfold pathEvidence
  simp only [List.all_cons, List.all_nil, Bool.and_true, id_eq, Bool.and_eq_true, observedPath_iff]
  constructor
  · rintro ⟨⟨⟨b, rfl, hb⟩, a, rfl, ha⟩, hdifferent, htruthy, hsame⟩
    refine ⟨⟨b, a, rfl, rfl, hb, ha, ?_, ?_⟩, hdifferent⟩
    · simpa using hsame
    · simpa [truthy] using htruthy
  · rintro ⟨⟨b, a, rfl, rfl, hb, ha, hsame, hid⟩, hdifferent⟩
    refine ⟨⟨⟨b, rfl, hb⟩, a, rfl, ha⟩, hdifferent, ?_, ?_⟩
    · simpa [truthy] using hid
    · simpa using hsame

end IrohExperiment.Peer
