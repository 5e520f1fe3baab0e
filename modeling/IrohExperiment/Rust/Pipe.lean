/-
# One stream, with both of its ends

A reliable stream from the one who writes it to the one who reads it.  A stream carries the
proof that it is in order, so what has been brought to the reader never has to be compared with
what has been written.

`Pipe.write`, `carry`, `ends` and `leave` are all that can happen to a stream, each with an
iff lemma that says when it can happen and what it changes.  `Through` is a stream that has
come to its end with these bytes, which is what `read_to_end` finds (`through_of_finished`).
-/
import IrohExperiment.Rust.Parties

namespace IrohExperiment.Rust

/-- What has been written, how the writer has left the stream, and what the reader's side of it
has been brought. -/
@[ext]
structure Pipe where
  written : Bytes
  writer : WriterEnd
  link : Link
  ordered : InOrder link written writer
  deriving DecidableEq

/-! ## What keeps a stream in order -/

variable {link : Link} {sent : Bytes} {writer : WriterEnd}

/-- Bytes that are written come behind all that were written before. -/
theorem InOrder.write (h : InOrder link sent writer) (hwriting : writer = .writing)
    (bytes : Bytes) : InOrder link (sent ++ bytes) .writing := by
  refine ⟨h.brought.trans (List.prefix_append _ _), fun hending => ?_, h.failed⟩
  cases hwriting.symm.trans (h.finished hending).1

/-- A writer that finishes leaves what is in flight as it is. -/
theorem InOrder.leave (h : InOrder link sent writer) : InOrder link sent .finished :=
  ⟨h.brought, fun hending => ⟨rfl, (h.finished hending).2⟩, h.failed⟩

/-- What is brought is the next of what was written. -/
theorem InOrder.carry {bytes : Bytes} (hfront : link.brought ++ bytes <+: sent) :
    InOrder ⟨link.brought ++ bytes, .silent⟩ sent writer :=
  ⟨hfront, fun hending => (by cases hending), fun _ hending => (by cases hending)⟩

/-- A stream ends behind the last byte, or fails. -/
theorem InOrder.ends (h : InOrder link sent writer) {ending : Ending}
    (hfinished : ending = .finished → writer = .finished ∧ link.brought = sent)
    (hfailed : ending ≠ .failed .unexpectedEof) : InOrder ⟨link.brought, ending⟩ sent writer := by
  refine ⟨h.brought, hfinished, fun kind hending => ?_⟩
  rintro rfl
  exact hfailed hending

namespace Pipe

/-! ## What happens to a stream -/

/-- Nothing has been written. -/
def empty : Pipe := ⟨[], .writing, .idle, inOrder_idle _ _⟩

/-- Some bytes are written; at most `window` may be on the way. -/
def write (window : ℕ) (bytes : Bytes) (p : Pipe) : Option Pipe :=
  if h : p.writer = .writing ∧ (p.written ++ bytes).length ≤ p.link.brought.length + window then
    some ⟨p.written ++ bytes, .writing, p.link, p.ordered.write h.1 bytes⟩
  else none

/-- The writer finishes the stream or is dropped: both end it where it is. -/
def leave (p : Pipe) : Pipe := ⟨p.written, .finished, p.link, p.ordered.leave⟩

/-- Some of what is on the way is brought. -/
def carry (chunk : Chunk) (p : Pipe) : Option Pipe :=
  if h : p.link.ending = .silent ∧ p.link.brought ++ chunk.bytes <+: p.written then
    some ⟨p.written, p.writer, ⟨p.link.brought ++ chunk.bytes, .silent⟩, .carry h.2⟩
  else none

/-- The end of the stream is brought, or the stream fails. -/
def ends (ending : Ending) (p : Pipe) : Option Pipe :=
  if h : p.link.ending = .silent ∧ ending ≠ .failed .unexpectedEof ∧
      (ending = .finished → p.writer = .finished ∧ p.link.brought = p.written) then
    some ⟨p.written, p.writer, ⟨p.link.brought, ending⟩, p.ordered.ends h.2.2 h.2.1⟩
  else none

/-- The stream is through: all of it has been brought, and its end. -/
def Through (p : Pipe) (bytes : Bytes) : Prop := p.link = ⟨bytes, .finished⟩

instance (p : Pipe) (bytes : Bytes) : Decidable (p.Through bytes) :=
  inferInstanceAs (Decidable (_ = _))

/-! ## What each of it does -/

variable {p q : Pipe} {window : ℕ} {bytes : Bytes} {chunk : Chunk} {ending : Ending}

/-- A write needs a writer that still writes, and room in the window. -/
theorem write_eq_some : p.write window bytes = some q ↔
    p.writer = .writing ∧ (p.written ++ bytes).length ≤ p.link.brought.length + window ∧
      q.written = p.written ++ bytes ∧ q.writer = .writing ∧ q.link = p.link := by
  unfold write
  constructor
  · intro h
    split_ifs at h with hopen
    obtain rfl := Option.some.inj h
    exact ⟨hopen.1, hopen.2, rfl, rfl, rfl⟩
  · rintro ⟨hwriting, hfits, hwritten, hwriter, hlink⟩
    rw [dif_pos ⟨hwriting, hfits⟩]
    exact congrArg some (Pipe.ext hwritten.symm hwriter.symm hlink.symm)

/-- Bytes are brought in order, as long as the stream has not ended. -/
theorem carry_eq_some : p.carry chunk = some q ↔
    p.link.ending = .silent ∧ p.link.brought ++ chunk.bytes <+: p.written ∧
      q.written = p.written ∧ q.writer = p.writer ∧
      q.link = ⟨p.link.brought ++ chunk.bytes, .silent⟩ := by
  unfold carry
  constructor
  · intro h
    split_ifs at h with hopen
    obtain rfl := Option.some.inj h
    exact ⟨hopen.1, hopen.2, rfl, rfl, rfl⟩
  · rintro ⟨hsilent, hfront, hwritten, hwriter, hlink⟩
    rw [dif_pos ⟨hsilent, hfront⟩]
    exact congrArg some (Pipe.ext hwritten.symm hwriter.symm hlink.symm)

/-- A stream ends once, and finished only behind all that was written. -/
theorem ends_eq_some : p.ends ending = some q ↔
    p.link.ending = .silent ∧ ending ≠ .failed .unexpectedEof ∧
      (ending = .finished → p.writer = .finished ∧ p.link.brought = p.written) ∧
      q.written = p.written ∧ q.writer = p.writer ∧ q.link = ⟨p.link.brought, ending⟩ := by
  unfold ends
  constructor
  · intro h
    split_ifs at h with hopen
    obtain rfl := Option.some.inj h
    exact ⟨hopen.1, hopen.2.1, hopen.2.2, rfl, rfl, rfl⟩
  · rintro ⟨hsilent, hfailed, hfinished, hwritten, hwriter, hlink⟩
    rw [dif_pos ⟨hsilent, hfailed, hfinished⟩]
    exact congrArg some (Pipe.ext hwritten.symm hwriter.symm hlink.symm)

@[simp] theorem leave_written (p : Pipe) : p.leave.written = p.written := rfl

@[simp] theorem leave_link (p : Pipe) : p.leave.link = p.link := rfl

@[simp] theorem leave_writer (p : Pipe) : p.leave.writer = .finished := rfl

/-- What is through is what has been written. -/
theorem Through.written (h : p.Through bytes) : p.writer = .finished ∧ p.written = bytes := by
  have hlink : p.link = ⟨bytes, .finished⟩ := h
  obtain ⟨hwriter, hall⟩ := p.ordered.finished (by rw [hlink])
  rw [hlink] at hall
  exact ⟨hwriter, hall.symm⟩

/-- Where the end has been brought, all of it has. -/
theorem through_of_finished (hended : p.link.ending = .finished) (hwritten : p.written = bytes) :
    p.Through bytes := by
  obtain ⟨-, hall⟩ := p.ordered.finished hended
  show p.link = ⟨bytes, .finished⟩
  rw [← hended, ← hwritten, ← hall]

theorem Through.of_link (h : p.Through bytes) (hlink : q.link = p.link) : q.Through bytes :=
  hlink.trans h

/-- What has come through has come to its end. -/
theorem Through.finished (h : p.Through bytes) : p.link.ending = .finished := by
  rw [show p.link = ⟨bytes, .finished⟩ from h]

/-- A stream that is through is brought nothing more. -/
theorem Through.not_silent (h : p.Through bytes) : p.link.ending ≠ .silent := by
  rw [h.finished]
  exact fun heq => by cases heq

end Pipe

/-! ## Reading a stream to its end -/

/-- A link as a source to read from. -/
def Link.source (link : Link) : Source :=
  ⟨if h : link.brought = [] then [] else [⟨link.brought, h⟩], link.ending⟩

theorem Link.source_bytes (link : Link) : link.source.bytes = link.brought := by
  unfold Link.source Source.bytes
  split_ifs with h
  · exact h.symm
  · exact List.append_nil _

/-- `read_to_end` fails if there is too much, or if the stream fails. -/
theorem readToEnd_eq_failed {limit : ℕ} {source : Source} {error : ReadToEndError}
    (h : (readToEnd limit).run source = .failed error) :
    error = .tooLong ∧ limit < source.bytes.length ∨
      ∃ kind, error = .read kind ∧ source.ending = .failed kind := by
  unfold readToEnd at h
  simp only at h
  split_ifs at h with hlimit
  · exact .inl ⟨(Outcome.failed.inj h).symm, hlimit⟩
  · split at h
    · cases h
    · next kind hending => exact .inr ⟨kind, (Outcome.failed.inj h).symm, hending⟩
    · cases h

end IrohExperiment.Rust
