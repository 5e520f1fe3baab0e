/-
# Two spellings of one address (`worker/public/peer-proof.js`)

The evidence of a path between two networks rests on the public addresses that STUN
servers saw.  Each is checked as a number, and the two sides are compared as texts; but a
field of an address may have leading zeros.

`SoundEvidence` is what the evidence is to say: addresses that differ.  The main result is
`soundEvidence_iff`: this is so exactly if the addresses are not two spellings of one;
`soundEvidence_fails` are two such spellings.
-/
import IrohExperiment.Peer.Address

namespace IrohExperiment.Peer

/-! ## What the evidence is to say -/

/-- Both browsers are behind different public addresses: the lists are not empty, have
public addresses only, and no number is denoted on both sides. -/
structure Apart (localCandidates remoteCandidates : List Candidate) : Prop where
  local_ne_nil : localCandidates ≠ []
  remote_ne_nil : remoteCandidates ≠ []
  publicAddress : ∀ c ∈ localCandidates ++ remoteCandidates, publicV4 (some c.address) = true
  denoted_ne : ∀ l ∈ localCandidates, ∀ r ∈ remoteCandidates, denoted l.address ≠ denoted r.address

/-- The two snapshots show one pair, a direct path both times. -/
def SamePath (before after : Option Path) (remoteCandidates : List Candidate) : Prop :=
  ∃ b a, before = some b ∧ after = some a ∧ b.pairId = a.pairId ∧ Observed b remoteCandidates ∧
    Observed a remoteCandidates

/-- Evidence that qualifies is sound, whatever the snapshots. -/
def SoundEvidence (localCandidates remoteCandidates : List Candidate) : Prop :=
  ∀ before after, (pathEvidence before after localCandidates
    remoteCandidates).qualifiesForCrossNat = true →
    SamePath before after remoteCandidates ∧ Apart localCandidates remoteCandidates

/-- The lists have public addresses only and no text in common, but a number. -/
structure Respelled (localCandidates remoteCandidates : List Candidate) : Prop where
  publicAddress : ∀ c ∈ localCandidates ++ remoteCandidates, publicV4 (some c.address) = true
  text_ne : ∀ l ∈ localCandidates, ∀ r ∈ remoteCandidates, l.address ≠ r.address
  denoted_eq : ∃ l ∈ localCandidates, ∃ r ∈ remoteCandidates, denoted l.address = denoted r.address

variable {localCandidates remoteCandidates : List Candidate}

/-! ## Where it does -/

/-- What qualifies is one path. -/
theorem samePath_of_qualifies {before after : Option Path}
    (h : (pathEvidence before after localCandidates remoteCandidates).qualifiesForCrossNat = true) :
    SamePath before after remoteCandidates := by
  obtain ⟨⟨b, a, hbefore, hafter, hb, ha, hsame, -⟩, -⟩ := qualifiesForCrossNat_iff.mp h
  exact ⟨b, a, hbefore, hafter, hsame, hb, ha⟩

/-- Networks that differ as texts are apart, unless an address is spelled in two ways. -/
theorem apart_of_differentNetworks (h : differentNetworks localCandidates remoteCandidates = true)
    (hnot : ¬ Respelled localCandidates remoteCandidates) :
    Apart localCandidates remoteCandidates := by
  obtain ⟨hlocal, hremote, hpublic, htext⟩ := differentNetworks_iff.mp h
  refine ⟨hlocal, hremote, hpublic, ?_⟩
  intro l hl r hr hdenoted
  exact hnot ⟨hpublic, htext, l, hl, r, hr, hdenoted⟩

/-! ## Where it does not -/

/-- A snapshot with a direct path to an address. -/
def directTo (address : String) : Path :=
  ⟨"pair", ⟨none, none, some "host", some "udp"⟩, ⟨some address, none, some "srflx", some "udp"⟩⟩

theorem observed_directTo {r : Candidate} (hr : r ∈ remoteCandidates)
    (hpublic : publicV4 (some r.address) = true) :
    Observed (directTo r.address) remoteCandidates := by
  constructor
  · show direct (some "host") = true
    decide
  · show direct (some "srflx") = true
    decide
  · show some ("udp".toLower) = some "udp"
    decide +kernel
  · exact hpublic
  · exact ⟨r, hr, rfl⟩

/-- With a direct path to the address that is spelled in two ways, the evidence qualifies. -/
theorem Respelled.qualifies (h : Respelled localCandidates remoteCandidates) :
    ∃ before after,
      (pathEvidence before after localCandidates remoteCandidates).qualifiesForCrossNat = true := by
  obtain ⟨l, hl, r, hr, -⟩ := h.denoted_eq
  have hid : (directTo r.address).pairId ≠ "" := by
    show "pair" ≠ ""
    decide
  have hobserved : Observed (directTo r.address) remoteCandidates :=
    observed_directTo hr (h.publicAddress r (List.mem_append_right _ hr))
  refine ⟨some (directTo r.address), some (directTo r.address),
    qualifiesForCrossNat_iff.mpr ⟨?_, ?_⟩⟩
  · exact ⟨_, _, rfl, rfl, hobserved, hobserved, rfl, hid⟩
  · exact differentNetworks_iff.mpr
      ⟨List.ne_nil_of_mem hl, List.ne_nil_of_mem hr, h.publicAddress, h.text_ne⟩

/-- **When evidence is sound**: for every two lists of candidates, the evidence that qualifies
is one direct path between different networks, whatever the snapshots, exactly if no address
is spelled in two ways. -/
theorem soundEvidence_iff (localCandidates remoteCandidates : List Candidate) :
    SoundEvidence localCandidates remoteCandidates ↔
      ¬ Respelled localCandidates remoteCandidates := by
  constructor
  · intro hsound hrespelled
    obtain ⟨before, after, hqualifies⟩ := hrespelled.qualifies
    obtain ⟨l, hl, r, hr, hdenoted⟩ := hrespelled.denoted_eq
    exact (hsound before after hqualifies).2.denoted_ne l hl r hr hdenoted
  · intro hnot before after hqualifies
    exact ⟨samePath_of_qualifies hqualifies,
      apart_of_differentNetworks (qualifiesForCrossNat_iff.mp hqualifies).2 hnot⟩

/-- Both sides are behind 8.8.8.8, and the remote list spells it another way. -/
theorem soundEvidence_fails :
    ¬ ∀ before after localCandidates remoteCandidates,
      (pathEvidence before after localCandidates remoteCandidates).qualifiesForCrossNat = true →
        SamePath before after remoteCandidates ∧ Apart localCandidates remoteCandidates := by
  intro h
  let path := some (directTo "1.1.1.1")
  let ours : Candidate := ⟨"8.8.8.8", 4000, "srflx", "udp"⟩
  let theirs : Candidate := ⟨"008.8.8.8", 5000, "srflx", "udp"⟩
  have hqualifies : (pathEvidence path path [ours]
      [⟨"1.1.1.1", 5000, "srflx", "udp"⟩, theirs]).qualifiesForCrossNat = true := by decide +kernel
  have hne := (h _ _ _ _ hqualifies).2.denoted_ne ours (by simp) theirs (by simp)
  exact hne (by decide)

end IrohExperiment.Peer
