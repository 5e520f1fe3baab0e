/-
# Byte streams (`tokio::io`)

Asynchronous Rust that reads a byte stream as it arrives, chunk by chunk, or writes
one: the read and write operations of `tokio`, and what they do to the bytes of the
stream, however these are cut into chunks.

`readExact`, `readSome`, `readToEnd` and `writeAll`, each with a lemma that says what it
gives, in how many bytes and when it fails, for every way to cut the stream into chunks.
-/
import IrohExperiment.Rust.Exec

namespace IrohExperiment.Rust

variable {σ τ ε ε' α β : Type}

/-! ## Asynchronous computations -/

/-- What awaiting a future of type `Result<α, ε>` that works on a `σ` comes to. -/
inductive Outcome (σ ε α : Type) where
  | done (value : α) (state : σ)
  | failed (error : ε)
  | waits
  deriving DecidableEq, Repr

/-- A future of type `Result<α, ε>` that works on a `σ`. -/
structure Async (σ ε α : Type) where
  run : σ → Outcome σ ε α

namespace Async

/-- Goes on with the value, if there is one. -/
def bind (x : Async σ ε α) (f : α → Async σ ε β) : Async σ ε β where
  run s :=
    match x.run s with
    | .done a s' => (f a).run s'
    | .failed e => .failed e
    | .waits => .waits

instance : Monad (Async σ ε) where
  pure a := ⟨fun s => .done a s⟩
  bind := bind

/-- `Err(error)?` -/
def throw (error : ε) : Async σ ε α := ⟨fun _ => .failed error⟩

/-- `anyhow::ensure!` -/
def ensure (c : Prop) [Decidable c] (error : ε) : Async σ ε Unit :=
  if c then pure () else throw error

/-- `Result::map_err` -/
def mapErr (f : ε → ε') (x : Async σ ε α) : Async σ ε' α where
  run s :=
    match x.run s with
    | .done a s' => .done a s'
    | .failed e => .failed (f e)
    | .waits => .waits

/-- A computation on the first of two streams. -/
def onFst (x : Async σ ε α) : Async (σ × τ) ε α where
  run s :=
    match x.run s.1 with
    | .done a s' => .done a (s', s.2)
    | .failed e => .failed e
    | .waits => .waits

/-- A computation on the second of two streams. -/
def onSnd (x : Async τ ε α) : Async (σ × τ) ε α where
  run s :=
    match x.run s.2 with
    | .done a s' => .done a (s.1, s')
    | .failed e => .failed e
    | .waits => .waits

@[simp] theorem run_pure (a : α) (s : σ) : (pure a : Async σ ε α).run s = .done a s := rfl

@[simp] theorem run_throw (e : ε) (s : σ) : (throw e : Async σ ε α).run s = .failed e := rfl

theorem run_bind (x : Async σ ε α) (f : α → Async σ ε β) (s : σ) :
    (x >>= f).run s =
      match x.run s with
      | .done a s' => (f a).run s'
      | .failed e => .failed e
      | .waits => .waits :=
  rfl

theorem run_mapErr (f : ε → ε') (x : Async σ ε α) (s : σ) :
    (x.mapErr f).run s =
      match x.run s with
      | .done a s' => .done a s'
      | .failed e => .failed (f e)
      | .waits => .waits :=
  rfl

theorem run_onFst (x : Async σ ε α) (s : σ × τ) :
    x.onFst.run s =
      match x.run s.1 with
      | .done a s' => .done a (s', s.2)
      | .failed e => .failed e
      | .waits => .waits :=
  rfl

theorem run_onSnd (x : Async τ ε α) (s : σ × τ) :
    x.onSnd.run s =
      match x.run s.2 with
      | .done a s' => .done a (s.1, s')
      | .failed e => .failed e
      | .waits => .waits :=
  rfl

theorem bind_done {x : Async σ ε α} {f : α → Async σ ε β} {s s' : σ} {a : α}
    (h : x.run s = .done a s') :
    (x >>= f).run s = (f a).run s' := by
  rw [run_bind, h]

theorem bind_failed {x : Async σ ε α} {f : α → Async σ ε β} {s : σ} {e : ε}
    (h : x.run s = .failed e) :
    (x >>= f).run s = .failed e := by
  rw [run_bind, h]

/-- A sequence is done if its parts are, one after the other. -/
theorem bind_eq_done {x : Async σ ε α} {f : α → Async σ ε β} {s t : σ} {b : β} :
    (x >>= f).run s = .done b t ↔ ∃ a s', x.run s = .done a s' ∧ (f a).run s' = .done b t := by
  rw [run_bind]
  cases x.run s with
  | done a s' => simp
  | failed e => simp
  | waits => simp

/-- A sequence fails if its first part does, or the part after it. -/
theorem bind_eq_failed {x : Async σ ε α} {f : α → Async σ ε β} {s : σ} {e : ε} :
    (x >>= f).run s = .failed e ↔
      x.run s = .failed e ∨ ∃ a s', x.run s = .done a s' ∧ (f a).run s' = .failed e := by
  rw [run_bind]
  cases x.run s with
  | done a s' => simp
  | failed e => simp
  | waits => simp

theorem ensure_pos {c : Prop} [Decidable c] (h : c) (e : ε) (s : σ) :
    (ensure c e : Async σ ε Unit).run s = .done () s := by
  unfold ensure
  rw [if_pos h]
  rfl

theorem ensure_neg {c : Prop} [Decidable c] (h : ¬ c) (e : ε) (s : σ) :
    (ensure c e : Async σ ε Unit).run s = .failed e := by
  unfold ensure
  rw [if_neg h]
  rfl

theorem ensure_eq_done {c : Prop} [Decidable c] {e : ε} {s s' : σ} :
    (ensure c e : Async σ ε Unit).run s = .done () s' ↔ c ∧ s' = s := by
  by_cases h : c
  · rw [ensure_pos h]
    simp [h, eq_comm]
  · rw [ensure_neg h]
    simp [h]

theorem mapErr_eq_done {f : ε → ε'} {x : Async σ ε α} {s s' : σ} {a : α} :
    (x.mapErr f).run s = .done a s' ↔ x.run s = .done a s' := by
  rw [run_mapErr]
  cases x.run s <;> simp

theorem mapErr_eq_failed {f : ε → ε'} {x : Async σ ε α} {s : σ} {e' : ε'} :
    (x.mapErr f).run s = .failed e' ↔ ∃ e, x.run s = .failed e ∧ f e = e' := by
  rw [run_mapErr]
  cases x.run s <;> simp

theorem onFst_eq_done {x : Async σ ε α} {s s' : σ × τ} {a : α} :
    x.onFst.run s = .done a s' ↔ x.run s.1 = .done a s'.1 ∧ s'.2 = s.2 := by
  obtain ⟨s'₁, s'₂⟩ := s'
  rw [run_onFst]
  cases x.run s.1 with
  | done b t => simp [eq_comm, and_assoc]
  | failed e => simp
  | waits => simp

theorem onSnd_eq_done {x : Async τ ε α} {s s' : σ × τ} {a : α} :
    x.onSnd.run s = .done a s' ↔ x.run s.2 = .done a s'.2 ∧ s'.1 = s.1 := by
  obtain ⟨s'₁, s'₂⟩ := s'
  rw [run_onSnd]
  cases x.run s.2 with
  | done b t => simp [eq_comm, and_comm, and_assoc]
  | failed e => simp
  | waits => simp

end Async

/-! ## Streams -/

/-- `std::io::ErrorKind`, as far as it is asked for. -/
inductive ErrorKind where
  | unexpectedEof
  | brokenPipe
  | connectionReset
  | notConnected
  | other
  deriving DecidableEq, Repr

/-- Some bytes that arrive together. -/
structure Chunk where
  bytes : Bytes
  nonempty : bytes ≠ []
  deriving DecidableEq, Repr

/-- What comes after the last chunk: the end of the stream, an error, or nothing. -/
inductive Ending where
  | finished
  | failed (kind : ErrorKind)
  | silent
  deriving DecidableEq, Repr

/-- The reading end of a stream, with all that is still to arrive. -/
structure Source where
  chunks : List Chunk
  ending : Ending
  deriving DecidableEq, Repr

/-- The bytes that are still to arrive. -/
def Source.bytes (source : Source) : Bytes := source.chunks.flatMap Chunk.bytes

/-- How `AsyncReadExt::read_exact` fares when the stream has no more chunks. -/
def Ending.outcome : Ending → Outcome σ ErrorKind α
  | .finished => .failed .unexpectedEof
  | .failed kind => .failed kind
  | .silent => .waits

/-- The rest of a chunk of which `n` bytes have been taken. -/
def Chunk.rest (chunk : Chunk) (n : ℕ) (h : n < chunk.bytes.length) : Chunk :=
  ⟨chunk.bytes.drop n, by rw [ne_eq, List.drop_eq_nil_iff]; omega⟩

/-- The reads of `read_exact`, each from the next chunk, until `n` bytes are there. -/
def readChunks (ending : Ending) : List Chunk → ℕ → Outcome Source ErrorKind Bytes
  | chunks, 0 => .done [] ⟨chunks, ending⟩
  | [], _ + 1 => ending.outcome
  | chunk :: chunks, n + 1 =>
    if h : n + 1 < chunk.bytes.length then
      .done (chunk.bytes.take (n + 1)) ⟨chunk.rest (n + 1) h :: chunks, ending⟩
    else
      match readChunks ending chunks (n + 1 - chunk.bytes.length) with
      | .done bytes source => .done (chunk.bytes ++ bytes) source
      | .failed kind => .failed kind
      | .waits => .waits

/-- `AsyncReadExt::read_exact` into a buffer of `n` bytes. -/
def readExact (n : ℕ) : Async Source ErrorKind Bytes where
  run source := readChunks source.ending source.chunks n

/-- `AsyncReadExt::read_u8` -/
def readU8 : Async Source ErrorKind UInt8 := do
  return UInt8.ofNat (beNat (← readExact 1))

/-- `AsyncReadExt::read_u16` -/
def readU16 : Async Source ErrorKind UInt16 := do
  return UInt16.ofNat (beNat (← readExact 2))

/-- `AsyncReadExt::read_u32` -/
def readU32 : Async Source ErrorKind UInt32 := do
  return UInt32.ofNat (beNat (← readExact 4))

/-- `read`, into a buffer of some bytes: some of what has arrived, or the end of the stream. -/
def readSome (capacity : ℕ) : Async Source ErrorKind (Option Bytes) where
  run source :=
    match source.chunks, source.ending with
    | chunk :: chunks, ending =>
      if h : capacity < chunk.bytes.length then
        .done (some (chunk.bytes.take capacity)) ⟨chunk.rest capacity h :: chunks, ending⟩
      else .done (some chunk.bytes) ⟨chunks, ending⟩
    | [], .finished => .done none source
    | [], .failed kind => .failed kind
    | [], .silent => .waits

/-- Why `read_to_end` fails. -/
inductive ReadToEndError where
  | read (kind : ErrorKind)
  | tooLong
  deriving DecidableEq, Repr

/-- `read_to_end`: all that is left of the stream, unless it is longer than the limit. -/
def readToEnd (limit : ℕ) : Async Source ReadToEndError Bytes where
  run source :=
    if limit < source.bytes.length then .failed .tooLong
    else
      match source.ending with
      | .finished => .done source.bytes ⟨[], .finished⟩
      | .failed kind => .failed (.read kind)
      | .silent => .waits

/-- How a write or a flush fares. -/
inductive Fate where
  | succeeds
  | fails (kind : ErrorKind)
  | hangs
  deriving DecidableEq, Repr

/-- The writing end of a stream: what has been written, and how the next writes and
flushes fare; those beyond the list succeed. -/
structure Sink where
  written : Bytes
  fates : List Fate
  deriving DecidableEq, Repr

/-- `AsyncWriteExt::write_all` -/
def writeAll (bytes : Bytes) : Async Sink ErrorKind Unit where
  run sink :=
    match sink.fates with
    | [] => .done () ⟨sink.written ++ bytes, []⟩
    | .succeeds :: fates => .done () ⟨sink.written ++ bytes, fates⟩
    | .fails kind :: _ => .failed kind
    | .hangs :: _ => .waits

/-- `AsyncWriteExt::write_u32` -/
def writeU32 (n : UInt32) : Async Sink ErrorKind Unit := writeAll (toBe 4 n.toNat)

/-- `AsyncWriteExt::flush` -/
def flush : Async Sink ErrorKind Unit := writeAll []

/-! ## What is read -/

/-- The bytes of the chunks, however they are cut. -/
theorem readChunks_of_append (ending : Ending) {chunks : List Chunk} {head rest : Bytes}
    (hbytes : chunks.flatMap Chunk.bytes = head ++ rest) :
    ∃ source, readChunks ending chunks head.length = .done head source ∧
      source.bytes = rest ∧ source.ending = ending := by
  induction chunks generalizing head with
  | nil =>
    obtain ⟨rfl, rfl⟩ := List.append_eq_nil_iff.mp hbytes.symm
    exact ⟨⟨[], ending⟩, rfl, rfl, rfl⟩
  | cons chunk chunks ih =>
    cases head with
    | nil => exact ⟨⟨chunk :: chunks, ending⟩, rfl, hbytes, rfl⟩
    | cons byte head =>
      rw [List.flatMap_cons] at hbytes
      rw [List.length_cons, readChunks]
      by_cases hshort : head.length + 1 < chunk.bytes.length
      · -- the chunk holds more than what is asked for
        rw [dif_pos hshort]
        have htake : chunk.bytes.take (head.length + 1) = byte :: head := by
          have h := congrArg (List.take (head.length + 1)) hbytes
          rwa [List.take_append_of_le_length hshort.le, ← List.length_cons (a := byte),
            List.take_left] at h
        have hdrop : chunk.bytes.drop (head.length + 1) ++ chunks.flatMap Chunk.bytes = rest := by
          have h := congrArg (List.drop (head.length + 1)) hbytes
          rwa [List.drop_append_of_le_length hshort.le, ← List.length_cons (a := byte),
            List.drop_left] at h
        refine ⟨_, by rw [htake], ?_, rfl⟩
        unfold Source.bytes
        rw [List.flatMap_cons]
        exact hdrop
      · -- the chunk is taken whole
        rw [dif_neg hshort]
        have hle : chunk.bytes.length ≤ (byte :: head).length := by
          rw [List.length_cons]
          omega
        obtain ⟨tail, htail⟩ : chunk.bytes <+: byte :: head :=
          List.prefix_of_prefix_length_le ⟨_, hbytes⟩ (List.prefix_append _ _) hle
        rw [← htail, List.append_assoc] at hbytes
        obtain ⟨source, hread, hrest, hending⟩ := ih (List.append_cancel_left hbytes)
        have hlen : head.length + 1 - chunk.bytes.length = tail.length := by
          rw [← List.length_cons (a := byte), ← htail, List.length_append, Nat.add_sub_cancel_left]
        rw [hlen, hread]
        exact ⟨source, by rw [← htail], hrest, hending⟩

/-- If there are too few bytes, the end of the stream decides. -/
theorem readChunks_of_lt (ending : Ending) {chunks : List Chunk} {n : ℕ}
    (hlen : (chunks.flatMap Chunk.bytes).length < n) :
    readChunks ending chunks n = ending.outcome := by
  induction chunks generalizing n with
  | nil =>
    cases n with
    | zero => exact absurd hlen (Nat.not_lt_zero _)
    | succ n => rfl
  | cons chunk chunks ih =>
    rw [List.flatMap_cons, List.length_append] at hlen
    cases n with
    | zero => exact absurd hlen (Nat.not_lt_zero _)
    | succ n =>
      rw [readChunks, dif_neg (by omega), ih (by omega)]
      cases ending <;> rfl

/-- `read_exact` gives the next bytes of the stream, however they are cut into chunks. -/
theorem readExact_done {source : Source} {head rest : Bytes} (hbytes : source.bytes = head ++ rest)
    {n : ℕ} (hn : n = head.length) :
    ∃ source', (readExact n).run source = .done head source' ∧ source'.bytes = rest ∧
      source'.ending = source.ending := by
  rw [hn]
  exact readChunks_of_append source.ending hbytes

theorem readExact_short {source : Source} {n : ℕ} (hlen : source.bytes.length < n) :
    (readExact n).run source = source.ending.outcome :=
  readChunks_of_lt source.ending hlen

/-- What `read_exact` gives is what the stream begins with. -/
theorem readExact_eq_done {source source' : Source} {n : ℕ} {head : Bytes}
    (h : (readExact n).run source = .done head source') :
    head.length = n ∧ source.bytes = head ++ source'.bytes ∧ source'.ending = source.ending := by
  rcases Nat.lt_or_ge source.bytes.length n with hshort | hle
  · rw [readExact_short hshort] at h
    cases hending : source.ending with
    | finished => rw [hending] at h; cases h
    | failed kind => rw [hending] at h; cases h
    | silent => rw [hending] at h; cases h
  · obtain ⟨source₁, hread, hrest, hending⟩ := readExact_done
      (List.take_append_drop n source.bytes).symm (n := n)
        (by rw [List.length_take, Nat.min_eq_left hle])
    rw [hread] at h
    obtain ⟨rfl, rfl⟩ := Outcome.done.inj h
    exact ⟨by rw [List.length_take, Nat.min_eq_left hle],
      by rw [hrest, List.take_append_drop], hending⟩

/-- `read_exact` only fails at the end of a stream that is too short. -/
theorem readExact_eq_failed {source : Source} {n : ℕ} {kind : ErrorKind}
    (h : (readExact n).run source = .failed kind) :
    source.bytes.length < n ∧ (source.ending = .finished ∨ source.ending = .failed kind) := by
  rcases Nat.lt_or_ge source.bytes.length n with hshort | hle
  · refine ⟨hshort, ?_⟩
    rw [readExact_short hshort] at h
    cases hending : source.ending with
    | finished => exact .inl rfl
    | failed kind' =>
      rw [hending] at h
      cases h
      exact .inr rfl
    | silent =>
      rw [hending] at h
      cases h
  · obtain ⟨source', hread, -⟩ := readExact_done (List.take_append_drop n source.bytes).symm
      (n := n) (by rw [List.length_take, Nat.min_eq_left hle])
    rw [hread] at h
    cases h

/-- `read_exact` succeeds where enough has arrived. -/
theorem readExact_enough {source : Source} {n : ℕ} (hle : n ≤ source.bytes.length) :
    ∃ bytes source', (readExact n).run source = .done bytes source' := by
  obtain ⟨source', hread, -⟩ := readExact_done (List.take_append_drop n source.bytes).symm
    (n := n) (by rw [List.length_take, Nat.min_eq_left hle])
  exact ⟨_, source', hread⟩

/-- A `u8` is read back. -/
theorem readU8_done {source : Source} {byte : UInt8} {rest : Bytes}
    (hbytes : source.bytes = byte :: rest) :
    ∃ source', readU8.run source = .done byte source' ∧ source'.bytes = rest ∧
      source'.ending = source.ending := by
  obtain ⟨source', hread, hrest, hending⟩ := readExact_done
    (show source.bytes = [byte] ++ rest from hbytes) (n := 1) rfl
  refine ⟨source', ?_, hrest, hending⟩
  have hvalue : UInt8.ofNat (beNat [byte]) = byte := by simp [beNat]
  unfold readU8
  rw [Async.bind_done hread, hvalue]
  rfl

/-- A `u16` is read back. -/
theorem readU16_done {source : Source} {n : UInt16} {rest : Bytes}
    (hbytes : source.bytes = toBe 2 n.toNat ++ rest) :
    ∃ source', readU16.run source = .done n source' ∧ source'.bytes = rest ∧
      source'.ending = source.ending := by
  obtain ⟨source', hread, hrest, hending⟩ := readExact_done hbytes (n := 2) (toBe_length ..).symm
  refine ⟨source', ?_, hrest, hending⟩
  unfold readU16
  rw [Async.bind_done hread, beNat_toBe_of_lt n.toNat_lt, UInt16.ofNat_toNat]
  rfl

/-- A `u8` that is read is the first byte. -/
theorem readU8_eq_done {source source' : Source} {byte : UInt8}
    (h : readU8.run source = .done byte source') :
    source.bytes = byte :: source'.bytes ∧ source'.ending = source.ending := by
  unfold readU8 at h
  obtain ⟨head, source₁, hread, hrest⟩ := Async.bind_eq_done.mp h
  obtain ⟨rfl, rfl⟩ := Outcome.done.inj hrest
  obtain ⟨hlen, hbytes, hending⟩ := readExact_eq_done hread
  obtain ⟨b, rfl⟩ := List.length_eq_one_iff.mp hlen
  refine ⟨?_, hending⟩
  rw [hbytes]
  simp [beNat]

/-- A `u16` that is read is spelt by the first two bytes. -/
theorem readU16_eq_done {source source' : Source} {n : UInt16}
    (h : readU16.run source = .done n source') :
    source.bytes = toBe 2 n.toNat ++ source'.bytes ∧ source'.ending = source.ending := by
  unfold readU16 at h
  obtain ⟨head, source₁, hread, hrest⟩ := Async.bind_eq_done.mp h
  obtain ⟨rfl, rfl⟩ := Outcome.done.inj hrest
  obtain ⟨hlen, hbytes, hending⟩ := readExact_eq_done hread
  have hlt : beNat head < 2 ^ 16 := (beNat_lt head).trans_eq (by rw [hlen]; rfl)
  refine ⟨?_, hending⟩
  rw [UInt16.toNat_ofNat', Nat.mod_eq_of_lt hlt, ← hlen, toBe_beNat]
  exact hbytes

/-- A `u32` is read back. -/
theorem readU32_done {source : Source} {n : UInt32} {rest : Bytes}
    (hbytes : source.bytes = toBe 4 n.toNat ++ rest) :
    ∃ source', readU32.run source = .done n source' ∧ source'.bytes = rest ∧
      source'.ending = source.ending := by
  obtain ⟨source', hread, hrest, hending⟩ := readExact_done hbytes (n := 4) (toBe_length ..).symm
  refine ⟨source', ?_, hrest, hending⟩
  unfold readU32
  rw [Async.bind_done hread, beNat_toBe_of_lt n.toNat_lt, UInt32.ofNat_toNat]
  rfl

/-- What a read has taken was at the front of the stream; it is nothing only at a clean end. -/
theorem readSome_eq_done {capacity : ℕ} {source source' : Source} {part : Option Bytes}
    (h : (readSome capacity).run source = .done part source') :
    source'.ending = source.ending ∧
      match part with
      | some bytes => source.bytes = bytes ++ source'.bytes ∧ (0 < capacity → bytes ≠ []) ∧
          bytes.length ≤ capacity
      | none => source.bytes = [] ∧ source.ending = .finished ∧ source' = source := by
  obtain ⟨chunks, ending⟩ := source
  unfold readSome at h
  cases chunks with
  | nil =>
    cases ending with
    | finished =>
      cases h
      exact ⟨rfl, rfl, rfl, rfl⟩
    | failed kind => cases h
    | silent => cases h
  | cons chunk chunks =>
    simp only at h
    split_ifs at h with hcut <;> cases h
    · refine ⟨rfl, ?_, fun hpos hnil => ?_, List.length_take_le _ _⟩
      · simp only [Source.bytes, List.flatMap_cons, Chunk.rest]
        rw [← List.append_assoc, List.take_append_drop]
      · have := congrArg List.length hnil
        rw [List.length_take, List.length_nil] at this
        omega
    · exact ⟨rfl, by simp [Source.bytes], fun _ => chunk.nonempty, Nat.le_of_not_lt hcut⟩

/-- A read only fails as its stream does. -/
theorem readSome_eq_failed {capacity : ℕ} {source : Source} {kind : ErrorKind}
    (h : (readSome capacity).run source = .failed kind) : source.ending = .failed kind := by
  obtain ⟨chunks, ending⟩ := source
  unfold readSome at h
  cases chunks with
  | nil =>
    cases ending with
    | failed kind' =>
      cases h
      rfl
    | finished | silent => cases h
  | cons chunk chunks =>
    simp only at h
    split_ifs at h

/-- Where something has arrived, a read takes some of it. -/
theorem readSome_nonempty (capacity : ℕ) {source : Source} (h : source.bytes ≠ []) :
    ∃ bytes source', (readSome capacity).run source = .done (some bytes) source' := by
  obtain ⟨chunks, ending⟩ := source
  cases chunks with
  | nil => exact absurd rfl h
  | cons chunk chunks =>
    unfold readSome
    simp only
    split_ifs with hcut
    · exact ⟨_, _, rfl⟩
    · exact ⟨_, _, rfl⟩

theorem readToEnd_eq_done {limit : ℕ} {source source' : Source} {bytes : Bytes} :
    (readToEnd limit).run source = .done bytes source' ↔
      source.bytes.length ≤ limit ∧ source.ending = .finished ∧ bytes = source.bytes ∧
        source' = ⟨[], .finished⟩ := by
  unfold readToEnd
  by_cases hlimit : limit < source.bytes.length
  · simp [hlimit]
  · cases hending : source.ending <;> simp [hlimit, hending, Nat.le_of_not_lt hlimit, eq_comm]

/-! ## What is written -/

theorem writeAll_eq_done {bytes : Bytes} {sink sink' : Sink}
    (h : (writeAll bytes).run sink = .done () sink') : sink'.written = sink.written ++ bytes := by
  obtain ⟨written, fates⟩ := sink
  cases fates with
  | nil =>
    cases h
    rfl
  | cons fate fates =>
    cases fate with
    | succeeds =>
      cases h
      rfl
    | fails kind => cases h
    | hangs => cases h

/-- A stream whose writes succeed. -/
theorem writeAll_healthy {sink : Sink} (h : sink.fates = []) (bytes : Bytes) :
    (writeAll bytes).run sink = .done () ⟨sink.written ++ bytes, []⟩ := by
  obtain ⟨written, fates⟩ := sink
  cases h
  rfl

end IrohExperiment.Rust
