/-
# Synthetic frames (`media-separation/src/lib.rs`)

The frames of the synthetic stream on the wire, the complete frames of a byte string,
and the statistics that either side keeps of them.

A `WireFrame` is a header of sixteen bytes, with number, time and length, and a payload that
fits.  `frames_of_encodeAll` says that frames can be told from their bytes, and
`StreamStats.Counts` what it is for statistics to count a list of frames.
-/
import IrohExperiment.Media.Gate
import IrohExperiment.Rust.Stream

namespace IrohExperiment.Media

open Rust

/-! ## Frames -/

/-- `SyntheticConfig::HEADER_BYTES`: sequence number, time and payload length. -/
def headerBytes : ℕ := 4 + 8 + 2

/-- A frame on the wire; the length of its payload is a `u16`. -/
structure WireFrame where
  seq : UInt32
  sentAtUnixMs : UInt64
  payload : Bytes
  length_lt : payload.length < 2 ^ 16
  deriving DecidableEq, Repr

namespace WireFrame

/-- The fourteen bytes before the payload. -/
def header (f : WireFrame) : Bytes :=
  toBe 4 f.seq.toNat ++ toBe 8 f.sentAtUnixMs.toNat ++ toBe 2 f.payload.length

/-- The bytes of a frame. -/
def encode (f : WireFrame) : Bytes := f.header ++ f.payload

@[simp] theorem header_length (f : WireFrame) : f.header.length = headerBytes := by
  simp [header, headerBytes]

@[simp] theorem encode_length (f : WireFrame) :
    f.encode.length = headerBytes + f.payload.length := by
  simp [encode]

/-- The sequence number is read as it was written. -/
theorem header_seq (f : WireFrame) : beNat (f.header.take 4) = f.seq.toNat := by
  have htake : f.header.take 4 = toBe 4 f.seq.toNat := by
    unfold header
    rw [List.append_assoc, List.take_left' (toBe_length ..)]
  rw [htake, beNat_toBe_of_lt f.seq.toNat_lt]

/-- The length of the payload is read as it was written. -/
theorem header_payloadLen (f : WireFrame) : beNat (f.header.drop 12) = f.payload.length := by
  have hdrop : f.header.drop 12 = toBe 2 f.payload.length := by
    unfold header
    rw [List.drop_left' (by simp)]
  rw [hdrop, beNat_toBe_of_lt f.length_lt]

/-- The time of sending is read as it was written. -/
theorem header_sentAt (f : WireFrame) :
    beNat ((f.header.drop 4).take 8) = f.sentAtUnixMs.toNat := by
  have hmiddle : (f.header.drop 4).take 8 = toBe 8 f.sentAtUnixMs.toNat := by
    unfold header
    rw [List.append_assoc, List.drop_left' (toBe_length ..), List.take_left' (toBe_length ..)]
  rw [hmiddle, beNat_toBe_of_lt f.sentAtUnixMs.toNat_lt]

/-- A frame is known from its header and its payload. -/
theorem eq_of_header {f g : WireFrame} (hheader : f.header = g.header)
    (hpayload : f.payload = g.payload) :
    f = g := by
  have hseq : f.seq = g.seq := by
    apply UInt32.toNat_inj.mp
    rw [← header_seq, ← header_seq, hheader]
  have htime : f.sentAtUnixMs = g.sentAtUnixMs := by
    apply UInt64.toNat_inj.mp
    rw [← header_sentAt, ← header_sentAt, hheader]
  cases f
  cases g
  subst hseq htime hpayload
  rfl

/-- No frame is the beginning of another one. -/
theorem encode_append_inj {f g : WireFrame} {rest rest' : Bytes}
    (h : f.encode ++ rest = g.encode ++ rest') : f = g ∧ rest = rest' := by
  unfold encode at h
  rw [List.append_assoc, List.append_assoc] at h
  obtain ⟨hheader, hbody⟩ := List.append_inj h (by simp)
  have hlen : f.payload.length = g.payload.length := by
    rw [← header_payloadLen, ← header_payloadLen, hheader]
  obtain ⟨hpayload, hrest⟩ := List.append_inj hbody hlen
  exact ⟨eq_of_header hheader hpayload, hrest⟩

end WireFrame

/-- The bytes of some frames, one after the other. -/
def encodeAll (frames : List WireFrame) : Bytes := frames.flatMap WireFrame.encode

@[simp] theorem encodeAll_nil : encodeAll [] = [] := rfl

@[simp] theorem encodeAll_cons (f : WireFrame) (frames : List WireFrame) :
    encodeAll (f :: frames) = f.encode ++ encodeAll frames := rfl

@[simp] theorem encodeAll_append (frames later : List WireFrame) :
    encodeAll (frames ++ later) = encodeAll frames ++ encodeAll later := by
  unfold encodeAll
  exact List.flatMap_append

/-! ## The complete frames of a byte string -/

/-- Bytes are a number of their length. -/
theorem toBe_of_length {bytes : Bytes} {k : ℕ} (h : bytes.length = k) :
    toBe k (beNat bytes) = bytes := by
  rw [← h]
  exact toBe_beNat bytes

/-- Bytes that hold a header and the payload it announces begin with a frame. -/
theorem exists_frame {bytes : Bytes} (hheader : headerBytes ≤ bytes.length)
    (hpayload : beNat ((bytes.drop 12).take 2) ≤ (bytes.drop headerBytes).length) :
    ∃ f : WireFrame, f.encode <+: bytes := by
  have hfourteen : headerBytes = 14 := rfl
  have hseq : (bytes.take 4).length = 4 := by
    rw [List.length_take]
    omega
  have htime : ((bytes.drop 4).take 8).length = 8 := by
    rw [List.length_take, List.length_drop]
    omega
  have hlen : ((bytes.drop 12).take 2).length = 2 := by
    rw [List.length_take, List.length_drop]
    omega
  have hseq_lt : beNat (bytes.take 4) < 2 ^ 32 := (beNat_lt _).trans_eq (by rw [hseq]; rfl)
  have htime_lt : beNat ((bytes.drop 4).take 8) < 2 ^ 64 :=
    (beNat_lt _).trans_eq (by rw [htime]; rfl)
  have hlen_lt : beNat ((bytes.drop 12).take 2) < 2 ^ 16 :=
    (beNat_lt _).trans_eq (by rw [hlen]; rfl)
  have hpart : ((bytes.drop headerBytes).take (beNat ((bytes.drop 12).take 2))).length =
      beNat ((bytes.drop 12).take 2) := by
    rw [List.length_take]
    omega
  refine ⟨⟨UInt32.ofNat (beNat (bytes.take 4)), UInt64.ofNat (beNat ((bytes.drop 4).take 8)),
    (bytes.drop headerBytes).take (beNat ((bytes.drop 12).take 2)), by rw [hpart]; exact hlen_lt⟩,
    (bytes.drop headerBytes).drop (beNat ((bytes.drop 12).take 2)), ?_⟩
  unfold WireFrame.encode WireFrame.header
  simp only [hpart]
  rw [UInt32.toNat_ofNat', UInt64.toNat_ofNat', Nat.mod_eq_of_lt hseq_lt, Nat.mod_eq_of_lt htime_lt,
    toBe_of_length hseq, toBe_of_length htime, toBe_of_length hlen, List.append_assoc,
    List.take_append_drop]
  have hhead : bytes.take 4 ++ (bytes.drop 4).take 8 ++ (bytes.drop 12).take 2 =
      bytes.take headerBytes := by
    rw [← List.take_add, show 12 = 4 + 8 from rfl, ← List.take_add]
    rfl
  rw [hhead, List.take_append_drop]

/-- The bytes do not begin with a complete frame. -/
def Incomplete (bytes : Bytes) : Prop := ∀ f : WireFrame, ¬ f.encode <+: bytes

/-- The complete frames that the bytes begin with, all of them. -/
def CompleteFrames (frames : List WireFrame) (bytes : Bytes) : Prop :=
  ∃ tail, bytes = encodeAll frames ++ tail ∧ Incomplete tail

/-- Frames that bytes begin with agree with the frames whose encoding they begin. -/
theorem frames_of_bytes {frames whole : List WireFrame} {tail : Bytes}
    (h : encodeAll frames ++ tail <+: encodeAll whole) : frames <+: whole := by
  induction frames generalizing whole with
  | nil => exact List.nil_prefix
  | cons f frames ih =>
    obtain ⟨rest, hrest⟩ := h
    cases whole with
    | nil =>
      have hlen := congrArg List.length hrest
      simp [headerBytes] at hlen
    | cons g whole =>
      rw [encodeAll_cons, encodeAll_cons, List.append_assoc, List.append_assoc] at hrest
      obtain ⟨rfl, hbehind⟩ := WireFrame.encode_append_inj hrest
      rw [← List.append_assoc] at hbehind
      exact (List.prefix_cons_inj f).mpr (ih ⟨rest, hbehind⟩)

/-- Of two lists of frames, one is the front of the other if its bytes are. -/
theorem frames_of_encodeAll {frames whole : List WireFrame}
    (h : encodeAll frames <+: encodeAll whole) :
    frames <+: whole := by
  rw [← List.append_nil (encodeAll frames)] at h
  exact frames_of_bytes h

/-- Frames that bytes begin with are among the complete ones. -/
theorem CompleteFrames.prefix_of {frames known : List WireFrame} {bytes : Bytes}
    (h : CompleteFrames frames bytes) (hknown : encodeAll known <+: bytes) : known <+: frames := by
  obtain ⟨tail, rfl, hincomplete⟩ := h
  induction known generalizing frames with
  | nil => exact List.nil_prefix
  | cons f known ih =>
    obtain ⟨rest, hrest⟩ := hknown
    rw [encodeAll_cons, List.append_assoc] at hrest
    cases frames with
    | nil => exact absurd ⟨_, hrest⟩ (hincomplete f)
    | cons g frames =>
      rw [encodeAll_cons, List.append_assoc] at hrest
      obtain ⟨rfl, hbehind⟩ := WireFrame.encode_append_inj hrest
      exact (List.prefix_cons_inj f).mpr (ih ⟨rest, hbehind⟩)

/-! ## Statistics -/

/-- Statistics reported by whichever side ran the synthetic stream.  The counters are
unbounded; 64 bits hold what a stream can carry. -/
structure StreamStats where
  frames : ℕ := 0
  bytesOnWire : ℕ := 0
  payloadBytes : ℕ := 0
  firstFrameUnixMs : Option ℕ := none
  lastFrameUnixMs : Option ℕ := none
  stopReason : Option StopReason := none
  deriving DecidableEq, Repr

/-- One more frame, observed when the clock shows `now`. -/
def StreamStats.count (stats : StreamStats) (wireBytes payloadBytes now : ℕ) : StreamStats :=
  { stats with
    frames := stats.frames + 1
    bytesOnWire := stats.bytesOnWire + wireBytes
    payloadBytes := stats.payloadBytes + payloadBytes
    firstFrameUnixMs := stats.firstFrameUnixMs.or (some now)
    lastFrameUnixMs := some now }

/-- The statistics have counted these frames. -/
structure StreamStats.Counts (stats : StreamStats) (frames : List WireFrame) : Prop where
  frames_eq : stats.frames = frames.length
  bytesOnWire_eq : stats.bytesOnWire = (frames.map fun f => headerBytes + f.payload.length).sum
  payloadBytes_eq : stats.payloadBytes = (frames.map fun f => f.payload.length).sum

theorem counts_nil : StreamStats.Counts {} [] := ⟨rfl, rfl, rfl⟩

/-- One more frame is counted. -/
theorem StreamStats.Counts.concat {stats : StreamStats} {frames : List WireFrame}
    (h : stats.Counts frames) (f : WireFrame) (now : ℕ) :
    (stats.count (headerBytes + f.payload.length) f.payload.length now).Counts (frames ++ [f]) := by
  constructor
  · simp [count, h.frames_eq]
  · simp [count, h.bytesOnWire_eq]
  · simp [count, h.payloadBytes_eq]

/-- Why a stream stopped is not counted. -/
theorem StreamStats.Counts.stopReason {stats : StreamStats} {frames : List WireFrame}
    (h : stats.Counts frames) (reason : Option StopReason) :
    ({ stats with stopReason := reason } : StreamStats).Counts frames :=
  ⟨h.frames_eq, h.bytesOnWire_eq, h.payloadBytes_eq⟩

/-! ## Sequence numbers -/

/-- The frames are numbered 0, 1, 2, …, modulo 2 ^ 32. -/
def Numbered (frames : List WireFrame) : Prop :=
  ∀ i f, frames[i]? = some f → f.seq = UInt32.ofNat i

theorem numbered_nil : Numbered [] := by
  intro i f h
  cases h

/-- The next number is the count of the frames before. -/
theorem numbered_concat {frames : List WireFrame} {f : WireFrame} :
    Numbered (frames ++ [f]) ↔ Numbered frames ∧ f.seq = UInt32.ofNat frames.length := by
  constructor
  · intro h
    refine ⟨fun i g hg => h i g ?_, h frames.length f (by simp)⟩
    rw [List.getElem?_append_left (List.getElem?_eq_some_iff.mp hg).1, hg]
  · rintro ⟨h, hseq⟩ i g hg
    rcases Nat.lt_trichotomy i frames.length with hi | rfl | hi
    · rw [List.getElem?_append_left hi] at hg
      exact h i g hg
    · rw [List.getElem?_append_right (Nat.le_refl _), Nat.sub_self] at hg
      obtain rfl := Option.some.inj hg
      exact hseq
    · rw [List.getElem?_eq_none (by simp; omega)] at hg
      cases hg

/-- The front of what is numbered is numbered. -/
theorem Numbered.of_prefix {frames whole : List WireFrame} (h : Numbered whole)
    (hfront : frames <+: whole) : Numbered frames := by
  intro i f hf
  obtain ⟨rest, rfl⟩ := hfront
  refine h i f ?_
  rw [List.getElem?_append_left (List.getElem?_eq_some_iff.mp hf).1, hf]

/-- The sequence numbers wrap around. -/
theorem ofNat_succ (i : ℕ) : UInt32.ofNat (i + 1) = UInt32.ofNat i + 1 := by
  simp

end IrohExperiment.Media
