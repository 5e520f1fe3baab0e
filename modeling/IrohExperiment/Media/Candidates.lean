/-
# The lifetime of candidates (`media-separation/src/lib.rs`)

How a candidate is given its expiry, by the receiver itself or from a STUN observation,
and how its reader decides whether it has expired: the rule over the natural numbers, and
where the arithmetic of 64 bits departs from it.

`DirectCandidate.localCand` and `manual` and `discoverFrom` make candidates, and `isExpired`
is the check; either build profile adds in its own way.  The main results are
`expiryExact_iff`, when the check follows the rule, and `consistent_iff`, when a candidate
that is fresh lives as long as it was given.
-/
import IrohExperiment.Media.Framing
import IrohExperiment.Rust.Time

namespace IrohExperiment.Media

open Rust

-- whether the build checks additions for overflows
variable (checks : Bool)

/-! ## Expiry -/

/-- `EXPIRY_SKEW_SLACK_MS` -/
def expirySkewSlackMs : UInt64 := 10000

/-- `DirectCandidate::is_expired` -/
def DirectCandidate.isExpired (cand : DirectCandidate) (nowUnixMs : UInt64) :
    Exec AnyError Bool := do
  let ttl := saturatingSub cand.expiresAtUnixMs cand.observedAtUnixMs
  let slack := min expirySkewSlackMs ttl
  return (← addU64 checks ttl slack) ≤ saturatingSub nowUnixMs cand.observedAtUnixMs

/-- `validate_candidate`, when the clock shows this time. -/
def validateCandidate (cand : DirectCandidate) (knownEpochs : List UInt64) (clock : SystemTime) :
    Exec AnyError Unit := do
  let expired ← cand.isExpired checks (unixMillis clock)
  ensure (expired = false) (.message s!"candidate expired at {cand.expiresAtUnixMs}")
  ensure (cand.networkEpoch ∈ knownEpochs)
    (.message s!"candidate network_epoch {cand.networkEpoch} is not currently known")

/-! ## Construction -/

/-- A candidate that the receiver vouches for, valid from now on. -/
def DirectCandidate.fresh (source : CandidateSource) (endpointId : EndpointId) (addr : SocketAddr)
    (ttl : Duration) (epoch : UInt64) (clock : SystemTime) : Exec AnyError DirectCandidate := do
  let nowMs := unixMillis clock
  return ⟨endpointId, addr, source, nowMs, ← addU64 checks nowMs (asU64 ttl.asMillis), epoch⟩

/-- `DirectCandidate::local` -/
def DirectCandidate.localCand := DirectCandidate.fresh checks .localAddr

/-- `DirectCandidate::manual` -/
def DirectCandidate.manual := DirectCandidate.fresh checks .manual

/-- What `discover_media` reads of the observation of a STUN server. -/
structure Discovery where
  observedAddr : SocketAddr
  observedAt : SystemTime
  deriving DecidableEq, Repr

/-- `cloudflare_stun::probe::discover_server` on the media endpoint, at each attempt. -/
abbrev DiscoverServer := ℕ → Text → Except AnyError Discovery

/-- The loop of `discover_media` over the servers that are left, at attempt `i`. -/
def discoverFrom (discover : DiscoverServer) (mediaId : EndpointId) (ttl : Duration)
    (epoch : UInt64) :
    ℕ → List Text → AnyError → Exec AnyError (List DirectCandidate)
  | _, [], lastError => .err (.context "same-socket media STUN discovery" lastError)
  | i, server :: servers, _ =>
    match discover i server with
    | .ok observation => do
      let since ← okOr observation.observedAt.sinceEpoch
        (.message "second time provided was later than self")
      let observedAt := asU64 since.asMillis
      return [⟨mediaId, observation.observedAddr, .cloudflareStun, observedAt,
        saturatingAdd observedAt (asU64 ttl.asMillis), epoch⟩]
    | .error error => discoverFrom discover mediaId ttl epoch (i + 1) servers error

/-- `EndpointPair::discover_media` -/
def discoverMedia (discover : DiscoverServer) (mediaId : EndpointId) (servers : List Text)
    (ttl : Duration) (epoch : UInt64) : Exec AnyError (List DirectCandidate) :=
  if servers = [] then .ok []
  else do
    ensure (ttl.isZero = false) (.message "STUN candidate TTL must be positive")
    discoverFrom discover mediaId ttl epoch 0 servers (.message "no STUN server succeeded")

/-! ## The rule of expiry -/

namespace DirectCandidate

/-- How long a candidate is valid. -/
def ttl (cand : DirectCandidate) : ℕ := cand.expiresAtUnixMs.toNat - cand.observedAtUnixMs.toNat

/-- The age from which a candidate counts as expired: its lifetime, and a slack for clocks
that differ. -/
def threshold (cand : DirectCandidate) : ℕ := cand.ttl + min 10000 cand.ttl

/-- The candidate has expired, by its own observation time. -/
def Stale (cand : DirectCandidate) (now : UInt64) : Prop :=
  cand.threshold ≤ now.toNat - cand.observedAtUnixMs.toNat

instance (cand : DirectCandidate) (now : UInt64) : Decidable (cand.Stale now) :=
  inferInstanceAs (Decidable (_ ≤ _))

/-- An expired candidate stays expired. -/
theorem Stale.mono {cand : DirectCandidate} {now later : UInt64} (h : cand.Stale now)
    (hle : now ≤ later) :
    cand.Stale later := by
  have := UInt64.le_iff_toNat_le.mp hle
  unfold Stale at h ⊢
  omega

variable {checks}

/-- The threshold as the code adds it up. -/
theorem isExpired_eq (checks : Bool) (cand : DirectCandidate) (now : UInt64) :
    ∃ ttl slack : UInt64, ttl.toNat + slack.toNat = cand.threshold ∧
      cand.isExpired checks now =
        (do return (← addU64 checks ttl slack) ≤ saturatingSub now cand.observedAtUnixMs) := by
  refine ⟨_, _, ?_, rfl⟩
  rw [min_toNat, saturatingSub_toNat]
  rfl

/-- Without an overflow the code follows the rule. -/
theorem isExpired_of_fits {cand : DirectCandidate} (h : cand.threshold < 2 ^ 64) (now : UInt64) :
    cand.isExpired checks now = .ok (decide (cand.Stale now)) := by
  obtain ⟨ttl, slack, hsum, heq⟩ := isExpired_eq checks cand now
  rw [← hsum] at h
  obtain ⟨sum, hadd, hsum'⟩ := addU64_exact (ε := AnyError) checks h
  rw [heq, hadd, Exec.ok_bind, Exec.pure_eq]
  refine congrArg Exec.ok (decide_eq_decide.mpr ?_)
  unfold Stale
  rw [UInt64.le_iff_toNat_le, saturatingSub_toNat, hsum', hsum]

/-- An overflow that is checked for panics. -/
theorem isExpired_panics {cand : DirectCandidate} (h : 2 ^ 64 ≤ cand.threshold) (now : UInt64) :
    cand.isExpired true now = .panic .overflow := by
  obtain ⟨ttl, slack, hsum, heq⟩ := isExpired_eq true cand now
  rw [heq, addU64_panic (by omega), Exec.panic_bind]

/-- An overflow that is not checked for lowers the threshold by 2 ^ 64. -/
theorem isExpired_wraps {cand : DirectCandidate} (h : 2 ^ 64 ≤ cand.threshold) (now : UInt64) :
    cand.isExpired false now =
      .ok (decide (cand.threshold - 2 ^ 64 ≤ now.toNat - cand.observedAtUnixMs.toNat)) := by
  obtain ⟨ttl, slack, hsum, heq⟩ := isExpired_eq false cand now
  obtain ⟨sum, hadd, hsum'⟩ := addU64_wrap (ε := AnyError) (a := ttl) (b := slack) (by omega)
  rw [heq, hadd, Exec.ok_bind, Exec.pure_eq]
  refine congrArg Exec.ok (decide_eq_decide.mpr ?_)
  rw [UInt64.le_iff_toNat_le, saturatingSub_toNat, hsum', hsum]

/-- A lifetime whose threshold overflows starts within ten seconds of the epoch. -/
theorem observedAt_lt {cand : DirectCandidate} (h : 2 ^ 64 ≤ cand.threshold) :
    cand.observedAtUnixMs.toNat < 10000 ∧ cand.threshold < 2 ^ 64 + 10000 := by
  have hlt := cand.expiresAtUnixMs.toNat_lt
  unfold threshold ttl at *
  omega

/-- The code follows the rule for every clock reading only if the threshold fits. -/
theorem fits_of_exact {cand : DirectCandidate}
    (h : ∀ now, cand.isExpired checks now = .ok (decide (cand.Stale now))) :
    cand.threshold < 2 ^ 64 := by
  by_contra hfits
  rw [Nat.not_lt] at hfits
  cases checks with
  | true =>
    have h0 := h 0
    rw [isExpired_panics hfits] at h0
    cases h0
  | false =>
    -- a reading between the wrapped threshold and the true one
    obtain ⟨hearly, hlate⟩ := observedAt_lt hfits
    have hnow := h 20000
    rw [isExpired_wraps hfits] at hnow
    have hread : (20000 : UInt64).toNat = 20000 := rfl
    have hdecide := Exec.ok.inj hnow
    rw [decide_eq_decide] at hdecide
    unfold Stale at hdecide
    omega

end DirectCandidate

variable {checks}

/-- A candidate that has expired is rejected, whatever the epochs. -/
theorem validateCandidate_expired {cand : DirectCandidate} {clock : SystemTime}
    (h : cand.isExpired checks (unixMillis clock) = .ok true) (knownEpochs : List UInt64) :
    validateCandidate checks cand knownEpochs clock =
      .err (.message s!"candidate expired at {cand.expiresAtUnixMs}") := by
  unfold validateCandidate
  rw [h, Exec.ok_bind, ensure_neg (by decide), Exec.err_bind]

/-- The expiry rule holds of a candidate at every clock reading. -/
structure ExpiryExact (checks : Bool) (cand : DirectCandidate) : Prop where
  exact : ∀ now, cand.isExpired checks now = .ok (decide (cand.Stale now))
  monotone : ∀ now later, now ≤ later → cand.isExpired checks now = .ok true →
    cand.isExpired checks later = .ok true
  rejected : ∀ clock knownEpochs, cand.Stale (unixMillis clock) →
    ∃ error, validateCandidate checks cand knownEpochs clock = .err error

/-- Expiry over all `u64` values: the code follows the rule exactly when the lifetime and
the slack add up without an overflow. -/
theorem expiryExact_iff (cand : DirectCandidate) :
    ExpiryExact checks cand ↔ cand.threshold < 2 ^ 64 := by
  constructor
  · exact fun h => DirectCandidate.fits_of_exact h.exact
  · intro hfits
    have hexact : ∀ now, cand.isExpired checks now = .ok (decide (cand.Stale now)) :=
      DirectCandidate.isExpired_of_fits hfits
    refine ⟨hexact, fun now later hle hnow => ?_, fun clock knownEpochs hstale => ?_⟩
    · rw [hexact] at hnow ⊢
      have hstale := of_decide_eq_true (Exec.ok.inj hnow)
      rw [decide_eq_true (hstale.mono hle)]
    · have hexpired := hexact (unixMillis clock)
      rw [decide_eq_true hstale] at hexpired
      exact ⟨_, validateCandidate_expired hexpired knownEpochs⟩

/-- A candidate that was observed at the epoch and never expires. -/
def foreverCandidate : DirectCandidate := ⟨0, .v4 ⟨0⟩ 443, .manual, 0, 18446744073709551615, 0⟩

/-- It panics, or it expires after ten seconds, when the rule says that it is fresh. -/
theorem not_expiryExact_forever :
    (foreverCandidate.isExpired true 0 = .panic .overflow ∧
      foreverCandidate.isExpired false 9999 = .ok true ∧ ¬ foreverCandidate.Stale 9999) ∧
    ¬ ExpiryExact true foreverCandidate ∧ ¬ ExpiryExact false foreverCandidate := by
  refine ⟨by decide, fun h => ?_, fun h => ?_⟩
  · have hzero := h.exact 0
    revert hzero
    decide
  · have hlater := h.exact 9999
    revert hlater
    decide

/-! ## What the constructors give -/

/-- The clock shows this many milliseconds since the epoch. -/
def Reads (clock : SystemTime) (millis : ℕ) : Prop :=
  ∃ since, clock.sinceEpoch = some since ∧ since.asMillis = millis

/-- The ways to build a candidate. -/
inductive Maker where
  | localCand (addr : SocketAddr)
  | manual (addr : SocketAddr)
  | discovered (discover : DiscoverServer) (servers : List Text)

/-- The candidates that are built; what a STUN server observes is dated by its observation. -/
def Maker.build (checks : Bool) (endpointId : EndpointId) (ttl : Duration) (epoch : UInt64)
    (clock : SystemTime) : Maker → Exec AnyError (List DirectCandidate)
  | .localCand addr =>
      do return [← DirectCandidate.localCand checks endpointId addr ttl epoch clock]
  | .manual addr => do return [← DirectCandidate.manual checks endpointId addr ttl epoch clock]
  | .discovered discover servers => discoverMedia discover endpointId servers ttl epoch

/-- Some server answers, and the first one that does so answers at this time. -/
def Maker.ObservesAt (clock : SystemTime) : Maker → Prop
  | .discovered discover servers =>
      ∃ before server after addr, servers = before ++ server :: after ∧
      (∀ i s, before[i]? = some s → ∃ error, discover i s = .error error) ∧
      discover before.length server = .ok ⟨addr, clock⟩
  | _ => True

/-- The expiry that a constructor computes. -/
def Maker.expiry (checks : Bool) (observedAt : UInt64) (ttl : Duration) :
    Maker → Exec AnyError UInt64
  | .discovered _ _ => .ok (saturatingAdd observedAt (asU64 ttl.asMillis))
  | _ => addU64 checks observedAt (asU64 ttl.asMillis)

/-- The loop passes the servers that fail. -/
theorem discoverFrom_append {discover : DiscoverServer} {before : List Text} {i : ℕ}
    (hbefore : ∀ j s, before[j]? = some s → ∃ error, discover (i + j) s = .error error)
    (mediaId : EndpointId) (ttl : Duration) (epoch : UInt64) (later : List Text)
    (lastError : AnyError) :
    ∃ lastError', discoverFrom discover mediaId ttl epoch i (before ++ later) lastError =
      discoverFrom discover mediaId ttl epoch (i + before.length) later lastError' := by
  induction before generalizing i lastError with
  | nil => exact ⟨lastError, rfl⟩
  | cons server before ih =>
    obtain ⟨error, herror⟩ := hbefore 0 server rfl
    rw [Nat.add_zero] at herror
    obtain ⟨lastError', hloop⟩ := ih (i := i + 1) (fun j s hs => by
      have h := hbefore (j + 1) s hs
      rwa [← Nat.add_assoc, Nat.add_right_comm] at h) error
    refine ⟨lastError', ?_⟩
    rw [List.cons_append, discoverFrom, herror, List.length_cons, ← Nat.add_assoc,
      Nat.add_right_comm]
    exact hloop

/-- A candidate that the receiver vouches for. -/
theorem fresh_eq (checks : Bool) (source : CandidateSource) (endpointId : EndpointId)
    (addr : SocketAddr) (ttl : Duration) (epoch : UInt64) (clock : SystemTime) :
    (do return [← DirectCandidate.fresh checks source endpointId addr ttl epoch clock]) = (do
      return [⟨endpointId, addr, source, unixMillis clock,
        ← addU64 (ε := AnyError) checks (unixMillis clock) (asU64 ttl.asMillis), epoch⟩]) := by
  unfold DirectCandidate.fresh
  dsimp only
  cases addU64 (ε := AnyError) checks (unixMillis clock) (asU64 ttl.asMillis) with
  | ok expiresAt => rfl
  | err error => rfl
  | panic cause => rfl

/-- Each constructor dates its candidate by the clock and adds the TTL in its own way. -/
theorem Maker.build_eq {maker : Maker} {clock : SystemTime} {millis : ℕ}
    (hobserves : maker.ObservesAt clock) (hreads : Reads clock millis) {ttl : Duration}
    (hpos : ttl.isZero = false) (checks : Bool) (endpointId : EndpointId) (epoch : UInt64) :
    ∃ addr source, maker.build checks endpointId ttl epoch clock = (do
      return [⟨endpointId, addr, source, asU64 millis, ← maker.expiry checks (asU64 millis) ttl,
        epoch⟩]) := by
  obtain ⟨since, hsince, rfl⟩ := hreads
  have hclock : unixMillis clock = asU64 since.asMillis := by
    unfold unixMillis
    rw [hsince]
    rfl
  cases maker with
  | localCand addr =>
    refine ⟨addr, .localAddr, ?_⟩
    rw [← hclock]
    exact fresh_eq checks .localAddr endpointId addr ttl epoch clock
  | manual addr =>
    refine ⟨addr, .manual, ?_⟩
    rw [← hclock]
    exact fresh_eq checks .manual endpointId addr ttl epoch clock
  | discovered discover servers =>
    obtain ⟨before, server, after, addr, rfl, hbefore, hserver⟩ := hobserves
    refine ⟨addr, .cloudflareStun, ?_⟩
    obtain ⟨lastError, hloop⟩ :=
      discoverFrom_append (i := 0) (by simpa using hbefore) endpointId ttl epoch
      (server :: after) (.message "no STUN server succeeded")
    rw [Nat.zero_add] at hloop
    unfold build discoverMedia
    simp only
    rw [if_neg (by simp), ensure_pos hpos, Exec.ok_bind, hloop, discoverFrom, hserver]
    simp only [hsince, okOr_some, Exec.ok_bind]
    rfl

/-! ## Lifetimes -/

/-- What a TTL is to give at a clock reading: every constructor adds it to the reading, so
that all of them agree; a shorter one does not expire later; and no candidate has expired
when it is built. -/
structure Consistent (checks : Bool) (clock : SystemTime) (millis : ℕ) (ttl : Duration) : Prop where
  exact : ∀ (maker : Maker) endpointId epoch, maker.ObservesAt clock →
    ∃ cand, maker.build checks endpointId ttl epoch clock = .ok [cand] ∧
      cand.observedAtUnixMs.toNat = millis ∧ cand.expiresAtUnixMs.toNat = millis + ttl.asMillis
  agree : ∀ (maker maker' : Maker) endpointId epoch cand cand', maker.ObservesAt clock →
    maker'.ObservesAt clock → maker.build checks endpointId ttl epoch clock = .ok [cand] →
    maker'.build checks endpointId ttl epoch clock = .ok [cand'] →
    cand.expiresAtUnixMs = cand'.expiresAtUnixMs
  monotone : ∀ (maker : Maker) endpointId epoch cand (shorter : Duration), maker.ObservesAt clock →
    maker.build checks endpointId ttl epoch clock = .ok [cand] → shorter ≤ ttl →
      shorter.isZero = false →
    ∃ cand', maker.build checks endpointId shorter epoch clock = .ok [cand'] ∧
      cand'.expiresAtUnixMs ≤ cand.expiresAtUnixMs
  alive : ∀ (maker : Maker) endpointId epoch cand, maker.ObservesAt clock →
    maker.build checks endpointId ttl epoch clock = .ok [cand] →
    cand.isExpired checks cand.observedAtUnixMs = .ok false

/-- The threshold of this lifetime does not overflow, or wraps around to more than zero. -/
def ThresholdFits (checks : Bool) (ttl : ℕ) : Prop :=
  ttl + min 10000 ttl < 2 ^ 64 ∨ checks = false ∧ ttl + min 10000 ttl ≠ 2 ^ 64

instance (checks : Bool) (ttl : ℕ) : Decidable (ThresholdFits checks ttl) :=
  inferInstanceAs (Decidable (_ ∨ _))

/-- When a candidate is alive at its own observation time. -/
theorem DirectCandidate.isExpired_observed (cand : DirectCandidate) :
    cand.isExpired checks cand.observedAtUnixMs = .ok false ↔
      0 < cand.ttl ∧ ThresholdFits checks cand.ttl := by
  have hthreshold : cand.threshold = cand.ttl + min 10000 cand.ttl := rfl
  unfold ThresholdFits
  rw [← hthreshold]
  rcases Nat.lt_or_ge cand.threshold (2 ^ 64) with hfits | hover
  · rw [isExpired_of_fits hfits, Exec.ok.injEq, decide_eq_false_iff_not]
    unfold Stale
    omega
  · cases checks with
    | true =>
      rw [isExpired_panics hover]
      simp only [reduceCtorEq, false_iff, Bool.true_eq_false, false_and, or_false]
      omega
    | false =>
      rw [isExpired_wraps hover, Exec.ok.injEq, decide_eq_false_iff_not]
      simp only [true_and]
      omega

/-- The sum that every constructor computes when nothing overflows. -/
theorem Maker.expiry_exact (checks : Bool) (maker : Maker) {millis : ℕ} {ttl : Duration}
    (h : millis + ttl.asMillis < 2 ^ 64) :
    ∃ expiresAt, maker.expiry checks (asU64 millis) ttl = .ok expiresAt ∧
      expiresAt.toNat = millis + ttl.asMillis := by
  have hmillis : (asU64 millis).toNat = millis := asU64_toNat_of_lt (by omega)
  have httl : (asU64 ttl.asMillis).toNat = ttl.asMillis := asU64_toNat_of_lt (by omega)
  have hadd := addU64_exact (ε := AnyError) checks (a := asU64 millis)
    (b := asU64 ttl.asMillis) (by omega)
  rw [hmillis, httl] at hadd
  cases maker with
  | localCand addr => exact hadd
  | manual addr => exact hadd
  | discovered discover servers =>
    refine ⟨_, rfl, ?_⟩
    rw [saturatingAdd_toNat, hmillis, httl]
    omega

/-- When no sum overflows, every constructor gives the sum. -/
theorem Maker.build_exact (checks : Bool) {maker : Maker} {clock : SystemTime} {millis : ℕ}
    (hobserves : maker.ObservesAt clock) (hreads : Reads clock millis) {ttl : Duration}
    (hpos : ttl.isZero = false) (h : millis + ttl.asMillis < 2 ^ 64) (endpointId : EndpointId)
    (epoch : UInt64) :
    ∃ cand, maker.build checks endpointId ttl epoch clock = .ok [cand] ∧
      cand.observedAtUnixMs.toNat = millis ∧
        cand.expiresAtUnixMs.toNat = millis + ttl.asMillis := by
  obtain ⟨addr, source, hbuild⟩ := Maker.build_eq hobserves hreads hpos checks endpointId epoch
  obtain ⟨expiresAt, hexpiry, hsum⟩ := maker.expiry_exact checks h
  rw [hexpiry] at hbuild
  exact ⟨_, hbuild, asU64_toNat_of_lt (by omega), hsum⟩

/-- Lifetimes are consistent exactly for a TTL of a millisecond or more that neither
overflows the clock nor, with its slack, the threshold. -/
theorem consistent_iff {clock : SystemTime} {millis : ℕ} (hreads : Reads clock millis)
    {ttl : Duration} (hpos : ttl.isZero = false) :
    Consistent checks clock millis ttl ↔
      0 < ttl.asMillis ∧ millis + ttl.asMillis < 2 ^ 64 ∧ ThresholdFits checks ttl.asMillis := by
  constructor
  · intro h
    obtain ⟨cand, hbuild, hobserved, hexpires⟩ := h.exact (.localCand (.v4 ⟨0⟩ 0)) 0 0 trivial
    have hlt := cand.expiresAtUnixMs.toNat_lt
    have httl : cand.ttl = ttl.asMillis := by
      unfold DirectCandidate.ttl
      omega
    have halive := (cand.isExpired_observed).mp
      (h.alive (.localCand (.v4 ⟨0⟩ 0)) 0 0 cand trivial hbuild)
    rw [httl] at halive
    exact ⟨halive.1, by omega, halive.2⟩
  · rintro ⟨hmilli, hfits, hthreshold⟩
    have hexact : ∀ (maker : Maker) endpointId epoch cand, maker.ObservesAt clock →
        maker.build checks endpointId ttl epoch clock = .ok [cand] →
        cand.observedAtUnixMs.toNat = millis ∧
          cand.expiresAtUnixMs.toNat = millis + ttl.asMillis := by
      intro maker endpointId epoch cand hobserves hbuild
      obtain ⟨cand', hbuild', hcand⟩ :=
        Maker.build_exact checks hobserves hreads hpos hfits endpointId epoch
      rw [hbuild] at hbuild'
      obtain rfl := List.singleton_inj.mp (Exec.ok.inj hbuild')
      exact hcand
    constructor
    · intro maker endpointId epoch hobserves
      exact Maker.build_exact checks hobserves hreads hpos hfits endpointId epoch
    · intro maker maker' endpointId epoch cand cand' hobserves hobserves' hbuild hbuild'
      apply UInt64.toNat_inj.mp
      rw [(hexact _ _ _ _ hobserves hbuild).2, (hexact _ _ _ _ hobserves' hbuild').2]
    · intro maker endpointId epoch cand shorter hobserves hbuild hle hshorter
      have hmono := Duration.asMillis_mono hle
      obtain ⟨cand', hbuild', -, hexpires'⟩ := Maker.build_exact checks hobserves hreads hshorter
        (by omega) endpointId epoch
      refine ⟨cand', hbuild', UInt64.le_iff_toNat_le.mpr ?_⟩
      have hexpires := (hexact _ _ _ _ hobserves hbuild).2
      omega
    · intro maker endpointId epoch cand hobserves hbuild
      obtain ⟨hobserved, hexpires⟩ := hexact _ _ _ _ hobserves hbuild
      have httl : cand.ttl = ttl.asMillis := by
        unfold DirectCandidate.ttl
        omega
      rw [DirectCandidate.isExpired_observed, httl]
      exact ⟨hmilli, hthreshold⟩

/-- A clock in the year 2027. -/
def sampleClock : SystemTime := ⟨1800000000, 0, Duration.zero.nanos_lt, by decide⟩

/-- A TTL of one minute. -/
theorem consistent_minute : Consistent true sampleClock 1800000000000 ⟨60, 0, by decide⟩ :=
  (consistent_iff ⟨_, rfl, by decide⟩ (by decide)).mpr (by decide)

/-- A TTL of half a millisecond has expired at once, and one of `u64::MAX` milliseconds
overflows. -/
theorem not_consistent_extremes :
    ¬ Consistent true sampleClock 1800000000000 ⟨0, 500000, by decide⟩ ∧
    ¬ Consistent false sampleClock 1800000000000 ⟨0, 500000, by decide⟩ ∧
    ¬ Consistent true sampleClock 1800000000000 (.fromMillis 18446744073709551615) ∧
    ¬ Consistent false sampleClock 1800000000000 (.fromMillis 18446744073709551615) := by
  refine ⟨fun h => ?_, fun h => ?_, fun h => ?_, fun h => ?_⟩
  · have halive := h.alive (.localCand (.v4 ⟨0⟩ 0)) 0 0 _ trivial rfl
    revert halive
    decide
  · have halive := h.alive (.localCand (.v4 ⟨0⟩ 0)) 0 0 _ trivial rfl
    revert halive
    decide
  · obtain ⟨cand, hbuild, -⟩ := h.exact (.localCand (.v4 ⟨0⟩ 0)) 0 0 trivial
    cases hbuild
  · obtain ⟨cand, -, -, hexpires⟩ := h.exact (.localCand (.v4 ⟨0⟩ 0)) 0 0 trivial
    have hlt := cand.expiresAtUnixMs.toNat_lt
    rw [Duration.asMillis_fromMillis] at hexpires
    have hmax : (18446744073709551615 : UInt64).toNat = 18446744073709551615 := rfl
    omega

end IrohExperiment.Media
