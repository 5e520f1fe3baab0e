/-
# Public addresses on both sides (`nat-peer.rs`, `worker/public/peer-proof.js`)

The filter of public addresses in `nat-peer.rs` and the one in `peer-proof.js`: the first
compares octets, the second the quotients of a number that it reads from a text.  They
agree on every IPv4 address, plain or mapped into IPv6.

The main result is `public_filters_agree`, by the blocks that both filters name: octet by
octet they are the same (`publicIp_v4`), and a text that the second reads denotes the four
octets that it spells.
-/
import IrohExperiment.Peer.Address
import IrohExperiment.Rust.Net

namespace IrohExperiment.Observer

open Rust Peer

/-! ## `std::net` -/

/-- `Ipv4Addr::octets` -/
def octets (ip : Ipv4Addr) : UInt8 × UInt8 × UInt8 × UInt8 :=
  ((ip.bits >>> 24).toUInt8, (ip.bits >>> 16).toUInt8, (ip.bits >>> 8).toUInt8, ip.bits.toUInt8)

/-- `Ipv4Addr::is_private` -/
def isPrivate (ip : Ipv4Addr) : Bool :=
  match octets ip with
  | (a, b, _, _) => a = 10 ∨ (a = 172 ∧ 16 ≤ b ∧ b ≤ 31) ∨ (a = 192 ∧ b = 168)

/-- `Ipv4Addr::is_loopback` -/
def isLoopback (ip : Ipv4Addr) : Bool :=
  match octets ip with
  | (a, _, _, _) => a = 127

/-- `Ipv4Addr::is_link_local` -/
def isLinkLocal (ip : Ipv4Addr) : Bool :=
  match octets ip with
  | (a, b, _, _) => a = 169 ∧ b = 254

/-- `Ipv4Addr::is_documentation` -/
def isDocumentation (ip : Ipv4Addr) : Bool :=
  match octets ip with
  | (a, b, c, _) =>
    (a = 192 ∧ b = 0 ∧ c = 2) ∨ (a = 198 ∧ b = 51 ∧ c = 100) ∨ (a = 203 ∧ b = 0 ∧ c = 113)

/-- `Ipv4Addr::to_ipv6_mapped` -/
def toIpv6Mapped (ip : Ipv4Addr) : Ipv6Addr :=
  match octets ip with
  | (a, b, c, d) => ⟨List.replicate 10 0 ++ [0xff, 0xff, a, b, c, d], rfl⟩

/-- One of `Ipv6Addr::segments` -/
def segment (ip : Ipv6Addr) (i : ℕ) : UInt16 :=
  u16FromBe (ip.octets.getD (2 * i) 0) (ip.octets.getD (2 * i + 1) 0)

/-- `Ipv4Addr::to_string` -/
def dotted (ip : Ipv4Addr) : String :=
  match octets ip with
  | (a, b, c, d) =>
    String.ofList (['.'].intercalate ([a, b, c, d].map fun octet => Nat.toDigits 10 octet.toNat))

/-! ## The filter -/

/-- `public_ip` -/
def publicIp (ip : IpAddr) : Bool :=
  match ip.toCanonical with
  | .v4 ip =>
    let reserved : Bool :=
      match octets ip with
      | (a, b, c, _) =>
        a = 0 ∨ (224 ≤ a ∧ a ≤ 255) ∨ (a = 198 ∧ 18 ≤ b ∧ b ≤ 19) ∨ (a = 100 ∧ 64 ≤ b ∧ b ≤ 127) ∨
          (a = 192 ∧ b = 0 ∧ c = 0)
    let localOrDocumentation :=
      [isPrivate ip, isLoopback ip, isLinkLocal ip, isDocumentation ip].contains true
    !reserved && !localOrDocumentation
  | .v6 ip =>
    let globalUnicast := segment ip 0 &&& 0xe000 == 0x2000
    let documentation := segment ip 0 == 0x2001 && segment ip 1 == 0x0db8
    globalUnicast && !documentation

/-! ## Octets -/

/-- The octets are the digits of the address to base 256. -/
theorem octets_numeric (ip : Ipv4Addr) {a b c d : UInt8} (h : octets ip = (a, b, c, d)) :
    numeric [a.toNat, b.toNat, c.toNat, d.toNat] = ip.bits.toNat := by
  obtain ⟨rfl, rfl, rfl, rfl⟩ : _ ∧ _ ∧ _ ∧ _ := by simpa [octets] using h
  have hlt := ip.bits.toNat_lt
  rw [numeric_octets]
  simp only [UInt32.toNat_toUInt8, UInt32.toNat_shiftRight, Nat.shiftRight_eq_div_pow,
    UInt32.toNat_ofNat]
  simp only [Nat.reduceMod, Nat.reducePow] at *
  omega

/-- The octets make up the address. -/
theorem octets_bits (ip : Ipv4Addr) {a b c d : UInt8} (h : octets ip = (a, b, c, d)) :
    u32FromBe a b c d = ip.bits := by
  apply UInt32.toNat_inj.mp
  rw [u32FromBe_toNat, ← octets_numeric ip h, numeric_octets]
  simp [beNat]
  omega

/-- The digits of an octet are a decimal field. -/
theorem isField_toDigits (octet : UInt8) :
    IsField (Nat.toDigits 10 octet.toNat) ∧
      decimal (Nat.toDigits 10 octet.toNat) = octet.toNat := by
  have h : ∀ n : Fin 256,
    (1 ≤ (Nat.toDigits 10 n.val).length ∧ (Nat.toDigits 10 n.val).length ≤ 3) ∧
      (Nat.toDigits 10 n.val).all isDigit = true ∧ decimal (Nat.toDigits 10 n.val) = n.val := by
    decide +kernel
  obtain ⟨⟨hpos, hle⟩, hdigits, hvalue⟩ := h ⟨octet.toNat, octet.toNat_lt⟩
  exact ⟨⟨hpos, hle, List.all_eq_true.mp hdigits,
    hvalue.trans_le (Nat.le_of_lt_succ octet.toNat_lt)⟩, hvalue⟩

/-- The text of an address denotes the address. -/
theorem fourFields_dotted (ip : Ipv4Addr) {a b c d : UInt8} (h : octets ip = (a, b, c, d)) :
    FourFields (dotted ip) ([a, b, c, d].map fun octet => Nat.toDigits 10 octet.toNat) := by
  refine ⟨?_, rfl, ?_⟩
  · simp only [dotted, h, String.toList_ofList]
  · intro field hfield
    obtain ⟨octet, -, rfl⟩ := List.mem_map.mp hfield
    exact (isField_toDigits octet).1

theorem denoted_dotted (ip : Ipv4Addr) {a b c d : UInt8} (h : octets ip = (a, b, c, d)) :
    denoted (dotted ip) = numeric [a.toNat, b.toNat, c.toNat, d.toNat] := by
  rw [(fourFields_dotted ip h).denoted]
  simp only [List.map_cons, List.map_nil, (isField_toDigits _).2]

/-- The filter by octets. -/
theorem publicIp_v4 (ip : Ipv4Addr) {a b c d : UInt8} (h : octets ip = (a, b, c, d)) :
    publicIp (.v4 ip) = true ↔ ¬ ExcludedOctets a.toNat b.toNat c.toNat := by
  have hle : a.toNat ≤ 255 := Nat.le_of_lt_succ a.toNat_lt
  have hprivate : isPrivate ip = true ↔
    a.toNat = 10 ∨ (a.toNat = 172 ∧ 16 ≤ b.toNat ∧ b.toNat ≤ 31) ∨
      (a.toNat = 192 ∧ b.toNat = 168) := by
    simp only [isPrivate, h, decide_eq_true_eq, ← UInt8.toNat_inj, UInt8.le_iff_toNat_le,
      UInt8.reduceToNat]
  have hloopback : isLoopback ip = true ↔ a.toNat = 127 := by
    simp only [isLoopback, h, decide_eq_true_eq, ← UInt8.toNat_inj, UInt8.reduceToNat]
  have hlink : isLinkLocal ip = true ↔ a.toNat = 169 ∧ b.toNat = 254 := by
    simp only [isLinkLocal, h, decide_eq_true_eq, ← UInt8.toNat_inj, UInt8.reduceToNat]
  have hdocumentation : isDocumentation ip = true ↔ (a.toNat = 192 ∧ b.toNat = 0 ∧ c.toNat = 2) ∨
      (a.toNat = 198 ∧ b.toNat = 51 ∧ c.toNat = 100) ∨
        (a.toNat = 203 ∧ b.toNat = 0 ∧ c.toNat = 113) := by
    simp only [isDocumentation, h, decide_eq_true_eq, ← UInt8.toNat_inj, UInt8.reduceToNat]
  have hlocal : [isPrivate ip, isLoopback ip, isLinkLocal ip, isDocumentation ip].contains
    true = true ↔
      isPrivate ip = true ∨ isLoopback ip = true ∨ isLinkLocal ip = true ∨
        isDocumentation ip = true := by
    simp
  simp only [publicIp, IpAddr.toCanonical, h, Bool.and_eq_true, Bool.not_eq_true',
    ← Bool.not_eq_true, hlocal, hprivate, hloopback, hlink, hdocumentation, decide_eq_true_eq,
    ← UInt8.toNat_inj, UInt8.le_iff_toNat_le, UInt8.reduceToNat, ← not_or, and_iff_left hle]
  -- the same blocks in another order
  refine not_congr (iff_of_eq ?_)
  unfold ExcludedOctets
  ac_rfl

/-- A mapped address is taken for the address it maps. -/
theorem toCanonical_mapped (ip : Ipv4Addr) :
    (IpAddr.v6 (toIpv6Mapped ip)).toCanonical = .v4 ip := by
  rcases hoctets : octets ip with ⟨a, b, c, d⟩
  have hmapped : (toIpv6Mapped ip).toIpv4Mapped = some ip := by
    simp only [toIpv6Mapped, hoctets, Ipv6Addr.toIpv4Mapped]
    have hbits := octets_bits ip hoctets
    simp [hbits]
  simp only [IpAddr.toCanonical, hmapped]

theorem publicIp_mapped (ip : Ipv4Addr) : publicIp (.v6 (toIpv6Mapped ip)) = publicIp (.v4 ip) := by
  unfold publicIp
  rw [toCanonical_mapped]
  rfl

/-- **Two filters, one answer**: an IPv4 address, its mapped form and its text are public for
both sides or for neither, and no text but four decimal fields is public. -/
theorem public_filters_agree :
    (∀ ip : Ipv4Addr, publicIp (.v4 ip) = publicV4 (some (dotted ip)) ∧
      publicIp (.v6 (toIpv6Mapped ip)) = publicV4 (some (dotted ip))) ∧
    ∀ address : String, (¬ ∃ fields, FourFields address fields) →
      publicV4 (some address) = false := by
  have hplain : ∀ ip : Ipv4Addr, publicIp (.v4 ip) = publicV4 (some (dotted ip)) := by
    intro ip
    rcases hoctets : octets ip with ⟨a, b, c, d⟩
    rw [Bool.eq_iff_iff, publicIp_v4 ip hoctets, publicV4_iff, denoted_dotted ip hoctets,
      ← Bool.not_eq_true, excluded_octets (Nat.le_of_lt_succ a.toNat_lt)
        (Nat.le_of_lt_succ b.toNat_lt)
        (Nat.le_of_lt_succ c.toNat_lt) (Nat.le_of_lt_succ d.toNat_lt)]
    exact (and_iff_right ⟨_, fourFields_dotted ip hoctets⟩).symm
  refine ⟨fun ip => ⟨hplain ip, (publicIp_mapped ip).trans (hplain ip)⟩, fun address hnot => ?_⟩
  by_contra hpublic
  exact hnot (publicV4_iff.mp (Bool.eq_true_of_not_eq_false hpublic)).1

example : publicIp (.v4 ⟨0x64400001⟩) = false ∧ publicIp (.v4 ⟨0xa29fcf00⟩) = true := by decide

end IrohExperiment.Observer
