/-
# The baseline dialer (`baseline/src/bin/dialer.rs`)

`transfer`: a task that writes the run-id header and the payload chunk by chunk, and beside it
the loop that reads the echo and compares it, on one bidirectional stream.

`Dialer.step` is one step of the task, of the loop, or of the code that waits for both.  The
invariant `Dials` says what has been sent and verified in every stage, whatever the dialer
is answered (`dials_run`); `dialParty_lawful` makes the dialer one end of a pair of streams.
-/
import IrohExperiment.Rust.Parties
import IrohExperiment.Rust.Text

namespace IrohExperiment.Baseline

open Rust History

/-! ## The wire -/

/-- `CHUNK_BYTES` -/
def chunkBytes : ℕ := 64 * 1024

/-- `TEST_PAYLOAD_BYTES` -/
def testPayloadBytes : ℕ := 10 * 1024 * 1024

/-- `RUN_ID_MAX_BYTES` -/
def runIdMaxBytes : ℕ := 1024

/-- `n.to_le_bytes()`, on four bytes. -/
def toLe32 (n : ℕ) : Bytes := (toBe 4 n).reverse

/-- `u32::from_le_bytes` -/
def fromLe32 (bytes : Bytes) : ℕ := beNat bytes.reverse

@[simp] theorem toLe32_length (n : ℕ) : (toLe32 n).length = 4 := by
  simp [toLe32]

theorem fromLe32_toLe32 {n : ℕ} (h : n < 2 ^ 32) : fromLe32 (toLe32 n) = n := by
  unfold fromLe32 toLe32
  rw [List.reverse_reverse, beNat_toBe_of_lt h]

/-- `[u32 LE run-id length][run id]` -/
def runHeader (runId : Text) : Bytes := toLe32 (utf8 runId).length ++ utf8 runId

/-- All that the dialer writes. -/
def wire (runId : Text) (payload : Bytes) : Bytes := runHeader runId ++ payload

/-! ## The state of the dialer -/

/-- Why the transfer has failed. -/
inductive DialFailure where
  | openBi (error : ErrorKind)
  | echoRead (error : ErrorKind)
  | echoMismatch (offset : ℕ)
  | send (error : ErrorKind)
  deriving DecidableEq, Repr

/-- `failure_reason` of the dialer's row; `describe` spells an error. -/
def DialFailure.reason (describe : ErrorKind → String) : DialFailure → String
  | .openBi error => s!"open_bi failed: {describe error}"
  | .echoRead error => s!"echo read failed: {describe error}"
  | .echoMismatch offset => s!"echo mismatch at offset {offset}"
  | .send error => s!"send failed: {describe error}"

/-- The task that writes: what is left of the current chunk, and of the wire behind it. -/
inductive SendTask where
  | unspawned
  | writing (current rest : Bytes)
  | finished
  | failed (error : ErrorKind)
  | aborted
  deriving DecidableEq, Repr

/-- Where the dialer is: it opens the stream, reads the echo, waits for the task, or is done. -/
inductive DialPhase where
  | opening
  | reading
  | joining
  | done (failure : Option DialFailure)
  deriving DecidableEq, Repr

/-- The state of the dialer; `sent` is what its stream has accepted. -/
structure Dialer where
  source : Source
  sent : Bytes
  task : SendTask
  echoed : ℕ
  phase : DialPhase
  deriving DecidableEq, Repr

/-- What can happen to the dialer's two tasks. -/
inductive DialEvent where
  | opened
  | openFails (error : ErrorKind)
  | accept (count : ℕ)
  | nextChunk
  | writeFails (error : ErrorKind)
  | read
  | join
  deriving DecidableEq, Repr

namespace Dialer

def start : Dialer := ⟨⟨[], .silent⟩, [], .unspawned, 0, .opening⟩

/-- The task starts on the wire, and the loop beside it. -/
def opened (wire : Bytes) (d : Dialer) : Dialer :=
  { d with task := .writing (wire.take chunkBytes) (wire.drop chunkBytes), phase := .reading }

/-- A failure of the loop: a task that still writes is aborted. -/
def fail (d : Dialer) (failure : DialFailure) : Dialer :=
  { d with
    task := match d.task with
      | .writing _ _ => .aborted
      | task => task
    phase := .done (some failure) }

/-- One turn of the loop that reads the echo. -/
def read (wire : Bytes) (d : Dialer) : Option Dialer :=
  if d.echoed < wire.length then
    let n := min chunkBytes (wire.length - d.echoed)
    match (readExact n).run d.source with
    | .done bytes source =>
      if bytes = (wire.drop d.echoed).take n then
        some { d with source := source, echoed := d.echoed + n }
      else some ({ d with source := source }.fail (.echoMismatch d.echoed))
    | .failed error => some (d.fail (.echoRead error))
    | .waits => none
  else some { d with phase := .joining }

/-- The task is waited for. -/
def join (d : Dialer) : Option Dialer :=
  match d.task with
  | .finished => some { d with phase := .done none }
  | .failed error => some { d with phase := .done (some (.send error)) }
  | _ => none

/-- The task goes on with the next chunk, or finishes the stream behind the last. -/
def nextChunk (d : Dialer) (rest : Bytes) : Dialer :=
  { d with
    task :=
      if rest = [] then .finished else .writing (rest.take chunkBytes) (rest.drop chunkBytes) }

/-- One step; `none` where the event cannot happen. -/
def step (wire : Bytes) (event : DialEvent) (d : Dialer) : Option Dialer :=
  match event with
  | .opened => if d.phase = .opening ∧ d.task = .unspawned then some (d.opened wire) else none
  | .openFails error =>
    if d.phase = .opening then some { d with phase := .done (some (.openBi error)) } else none
  | .accept count =>
    match d.task with
    | .writing current rest =>
      if 0 < count ∧ count ≤ current.length then
        some { d with
          sent := d.sent ++ current.take count
          task := .writing (current.drop count) rest }
      else none
    | _ => none
  | .nextChunk =>
    match d.task with
    | .writing [] rest => some (d.nextChunk rest)
    | _ => none
  | .writeFails error =>
    match d.task with
    | .writing _ _ => some { d with task := .failed error }
    | _ => none
  | .read => if d.phase = .reading then d.read wire else none
  | .join => if d.phase = .joining then d.join else none

/-- How the dialer has left its stream: an aborted task drops it, which finishes it. -/
def writer (d : Dialer) : WriterEnd :=
  match d.task with
  | .unspawned | .writing _ _ => .writing
  | .finished | .aborted => .finished
  | .failed _ => .broken

end Dialer

/-- The dialer, as a party. -/
def dialParty (wire : Bytes) : Party Dialer DialEvent where
  own := Dialer.step wire
  deliver chunk d := { d with source := ⟨d.source.chunks ++ [chunk], d.source.ending⟩ }
  finish ending d := { d with source := ⟨d.source.chunks, ending⟩ }
  sent d := d.sent
  writer := Dialer.writer

/-! ## What holds of the dialer, whatever it is answered -/

/-- What the dialer has written is a front part of the wire, and what it has verified a front
part of the answer; it only reports a mismatch with an answer that differs from the wire. -/
structure Dials (wire : Bytes) (a : Attached Dialer) : Prop where
  ending : a.state.source.ending = a.link.ending
  unspawned : a.state.task = .unspawned → a.state.sent = [] ∧
    (a.state.phase = .opening ∨ ∃ failure, a.state.phase = .done (some failure))
  writing : ∀ current rest, a.state.task = .writing current rest →
    a.state.sent ++ (current ++ rest) = wire
  finished : a.state.task = .finished → a.state.sent = wire
  front : a.state.sent <+: wire
  verified : a.state.echoed ≤ wire.length ∧ wire.take a.state.echoed <+: a.link.brought
  reading : a.state.phase = .opening ∨ a.state.phase = .reading →
    a.link.brought = wire.take a.state.echoed ++ a.state.source.bytes
  mismatch : ∀ offset, a.state.phase = .done (some (.echoMismatch offset)) →
    ¬ a.link.brought <+: wire
  joining : a.state.phase = .joining → a.state.echoed = wire.length
  done : a.state.phase = .done none → a.state.task = .finished ∧ a.state.echoed = wire.length
  opening : a.state.phase = .opening → a.state.task = .unspawned
  aborted : a.state.task = .aborted → ∃ failure, a.state.phase = .done (some failure)

variable {wire : Bytes} {a a' : Attached Dialer}

theorem dials_start : Dials wire ⟨.start, .idle⟩ where
  ending := rfl
  unspawned _ := ⟨rfl, .inl rfl⟩
  writing _ _ h := by cases h
  finished h := by cases h
  front := List.nil_prefix
  verified := ⟨Nat.zero_le _, List.nil_prefix⟩
  reading _ := rfl
  mismatch _ h := by cases h
  joining h := by cases h
  done h := by cases h
  opening _ := rfl
  aborted h := by cases h

/-- A step of the task alone. -/
theorem Dials.task (h : Dials wire a) {current rest : Bytes}
    (htask : a.state.task = .writing current rest) {sent : Bytes} {task : SendTask}
    (hunspawned : task ≠ .unspawned) (haborted : task ≠ .aborted)
    (hwriting : ∀ current rest, task = .writing current rest → sent ++ (current ++ rest) = wire)
    (hfinished : task = .finished → sent = wire) (hfront : sent <+: wire) :
    Dials wire ⟨{ a.state with sent := sent, task := task }, a.link⟩ := by
  refine ⟨h.ending, fun hs => absurd hs hunspawned, hwriting, hfinished, hfront, h.verified,
    h.reading, h.mismatch, h.joining, fun hs => ?_, fun hs => ?_, fun hs => absurd hs haborted⟩
  · have := (h.done hs).1
    rw [htask] at this
    cases this
  · have := h.opening hs
    rw [htask] at this
    cases this

/-- The loop gives up. -/
theorem Dials.fail (h : Dials wire a) (source : Source) (hending : source.ending = a.link.ending)
    {failure : DialFailure}
    (hmismatch : ∀ offset, failure = .echoMismatch offset → ¬ a.link.brought <+: wire) :
    Dials wire ⟨{ a.state with source := source }.fail failure, a.link⟩ := by
  have htask : ∀ task, ({ a.state with source := source }.fail failure).task = task →
      task = .aborted ∨ a.state.task = task := by
    rintro task rfl
    unfold Dialer.fail
    cases hs : a.state.task with
    | writing current rest => exact .inl rfl
    | _ => exact .inr rfl
  refine ⟨hending, fun hs => ?_, fun _ _ hs => ?_, fun hs => ?_, h.front, h.verified, fun hs => ?_,
    fun offset hs => ?_, fun hs => ?_, fun hs => ?_, fun hs => ?_, fun _ => ⟨failure, rfl⟩⟩
  · exact ⟨(h.unspawned ((htask _ hs).resolve_left (fun heq => by cases heq))).1, .inr ⟨_, rfl⟩⟩
  · exact h.writing _ _ ((htask _ hs).resolve_left (fun heq => by cases heq))
  · exact h.finished ((htask _ hs).resolve_left (fun heq => by cases heq))
  · rcases hs with hs | hs <;> cases hs
  · obtain rfl : failure = .echoMismatch offset := Option.some.inj (DialPhase.done.inj hs)
    exact hmismatch offset rfl
  all_goals cases hs

theorem Dials.read (h : Dials wire a) (hphase : a.state.phase = .reading) {d : Dialer}
    (hread : a.state.read wire = some d) : Dials wire ⟨d, a.link⟩ := by
  obtain ⟨hle, hverified⟩ := h.verified
  unfold Dialer.read at hread
  split_ifs at hread with hmore
  · simp only at hread
    cases hrun : (readExact (min chunkBytes (wire.length - a.state.echoed))).run a.state.source with
    | done bytes source =>
      obtain ⟨hlen, hbytes, hending⟩ := readExact_eq_done hrun
      have hbrought := h.reading (.inr hphase)
      simp only [hrun] at hread
      split_ifs at hread with hsame <;> obtain rfl := Option.some.inj hread
      · have htake : wire.take (a.state.echoed + min chunkBytes (wire.length - a.state.echoed)) =
            wire.take a.state.echoed ++ bytes := by
          rw [List.take_add, hsame]
        have hnext : a.link.brought = wire.take (a.state.echoed +
            min chunkBytes (wire.length - a.state.echoed)) ++ source.bytes := by
          rw [hbrought, hbytes, htake, List.append_assoc]
        refine ⟨hending.trans h.ending, h.unspawned, h.writing, h.finished, h.front,
          ⟨?_, ⟨source.bytes, hnext.symm⟩⟩, fun _ => hnext, fun _ hs => ?_, fun hs => ?_,
          fun hs => ?_, fun hs => ?_, h.aborted⟩
        · show a.state.echoed + min chunkBytes (wire.length - a.state.echoed) ≤ wire.length
          omega
        all_goals exact absurd (hphase.symm.trans hs) (fun heq => by cases heq)
      · refine h.fail _ (hending.trans h.ending) fun _ _ hfront => hsame ?_
        -- the answer differs from the wire within this chunk
        rw [hbrought, hbytes] at hfront
        obtain ⟨rest, hrest⟩ := hfront
        have hdrop := congrArg (List.drop a.state.echoed) hrest
        rw [List.append_assoc, List.drop_left' (by simp [hle]), List.append_assoc] at hdrop
        rw [← hdrop, ← hlen, List.take_left]
    | failed error =>
      simp only [hrun] at hread
      obtain rfl := Option.some.inj hread
      exact h.fail a.state.source h.ending (fun _ hs => by cases hs)
    | waits =>
      simp only [hrun] at hread
      cases hread
  · obtain rfl := Option.some.inj hread
    have hspawned : a.state.task ≠ .unspawned := fun hs => by
      rcases (h.unspawned hs).2 with hopening | ⟨failure, hfailed⟩
      · cases hphase.symm.trans hopening
      · cases hphase.symm.trans hfailed
    refine ⟨h.ending, fun hs => absurd hs hspawned, h.writing, h.finished, h.front, h.verified,
      fun hs => ?_, fun _ hs => ?_, fun _ => Nat.le_antisymm hle (Nat.le_of_not_lt hmore),
      fun hs => ?_,
      fun hs => ?_, fun hs => ?_⟩
    · rcases hs with hs | hs <;> cases hs
    · cases hs
    · cases hs
    · cases hs
    · obtain ⟨failure, hfailed⟩ := h.aborted hs
      rw [hphase] at hfailed
      cases hfailed

/-- When the stream is open, the send task begins with the first chunk. -/
theorem Dials.opened (h : Dials wire a) (hphase : a.state.phase = .opening)
    (htask : a.state.task = .unspawned) : Dials wire ⟨a.state.opened wire, a.link⟩ := by
  have hsent := (h.unspawned htask).1
  refine ⟨h.ending, fun hs => ?_, fun current rest hs => ?_, fun hs => ?_, h.front, h.verified,
    fun _ => h.reading (.inl hphase), fun _ hs => ?_, fun hs => ?_, fun hs => ?_, fun hs => ?_,
    fun hs => ?_⟩
  · cases hs
  · cases hs
    show a.state.sent ++ _ = wire
    rw [hsent, List.nil_append, List.take_append_drop]
  all_goals cases hs

/-- A dialer that gives up before it reads, or after it has read everything. -/
theorem Dials.stop (h : Dials wire a) {failure : DialFailure}
    (hmismatch : ∀ offset, failure ≠ .echoMismatch offset) :
    Dials wire ⟨{ a.state with phase := .done (some failure) }, a.link⟩ := by
  refine ⟨h.ending, fun hs => ⟨(h.unspawned hs).1, .inr ⟨_, rfl⟩⟩, h.writing, h.finished,
    h.front, h.verified, fun hs => ?_, fun offset hs => ?_, fun hs => ?_, fun hs => ?_,
    fun hs => ?_, fun _ => ⟨_, rfl⟩⟩
  · rcases hs with hs | hs <;> cases hs
  · cases hs
    exact absurd rfl (hmismatch offset)
  all_goals cases hs

/-- The send task goes on to the next chunk, or is over. -/
theorem Dials.nextChunk (h : Dials wire a) {rest : Bytes}
    (htask : a.state.task = .writing [] rest) :
    Dials wire ⟨a.state.nextChunk rest, a.link⟩ := by
  have hall := h.writing [] rest htask
  rw [List.nil_append] at hall
  unfold Dialer.nextChunk
  split_ifs with hrest
  · rw [hrest, List.append_nil] at hall
    exact h.task htask (fun hs => by cases hs) (fun hs => by cases hs)
      (fun _ _ hs => by cases hs) (fun _ => hall) h.front
  · refine h.task htask (fun hs => by cases hs) (fun hs => by cases hs) (fun _ _ hs => ?_)
      (fun hs => by cases hs) h.front
    cases hs
    rw [List.take_append_drop]
    exact hall

/-- The send task and the loop have both ended. -/
theorem Dials.join (h : Dials wire a) (hphase : a.state.phase = .joining) {d : Dialer}
    (hjoin : a.state.join = some d) : Dials wire ⟨d, a.link⟩ := by
  have hechoed := h.joining hphase
  unfold Dialer.join at hjoin
  split at hjoin
  · next htask =>
    obtain rfl := Option.some.inj hjoin
    refine ⟨h.ending, fun hs => ?_, h.writing, h.finished, h.front, h.verified, fun hs => ?_,
      fun _ hs => ?_, fun hs => ?_, fun _ => ⟨htask, hechoed⟩, fun hs => ?_, fun hs => ?_⟩
    · cases htask.symm.trans hs
    · rcases hs with hs | hs <;> cases hs
    · cases hs
    · cases hs
    · cases hs
    · cases htask.symm.trans hs
  · obtain rfl := Option.some.inj hjoin
    exact h.stop (fun _ hs => by cases hs)
  · cases hjoin

/-- One step of the dialer. -/
theorem Dials.own (h : Dials wire a) {event : DialEvent} {d : Dialer}
    (hstep : Dialer.step wire event a.state = some d) : Dials wire ⟨d, a.link⟩ := by
  unfold Dialer.step at hstep
  cases event with
  | opened =>
    obtain ⟨⟨hphase, htask⟩, rfl⟩ := of_guarded hstep
    exact h.opened hphase htask
  | openFails error =>
    obtain ⟨-, rfl⟩ := of_guarded hstep
    exact h.stop (fun _ hs => by cases hs)
  | accept count =>
    cases htask : a.state.task with
    | writing current rest =>
      simp only [htask] at hstep
      obtain ⟨-, rfl⟩ := of_guarded hstep
      have hall : a.state.sent ++ current.take count ++ (current.drop count ++ rest) = wire := by
        rw [List.append_assoc, ← List.append_assoc (current.take count), List.take_append_drop]
        exact h.writing current rest htask
      refine h.task htask (fun hs => by cases hs) (fun hs => by cases hs) (fun _ _ hs => ?_)
        (fun hs => by cases hs) ⟨_, hall⟩
      cases hs
      exact hall
    | _ =>
      simp only [htask] at hstep
      cases hstep
  | nextChunk =>
    simp only at hstep
    split at hstep
    · next rest htask =>
      obtain rfl := Option.some.inj hstep
      exact h.nextChunk htask
    · cases hstep
  | writeFails error =>
    cases htask : a.state.task with
    | writing current rest =>
      simp only [htask] at hstep
      obtain rfl := Option.some.inj hstep
      exact h.task htask (fun hs => by cases hs) (fun hs => by cases hs)
        (fun _ _ hs => by cases hs) (fun hs => by cases hs) h.front
    | _ =>
      simp only [htask] at hstep
      cases hstep
  | read =>
    simp only at hstep
    split_ifs at hstep with hphase
    exact h.read hphase hstep
  | join =>
    simp only at hstep
    split_ifs at hstep with hphase
    exact h.join hphase hstep

/-- It holds after every run, whatever the answer. -/
theorem dials_run {moves : List (Move DialEvent)}
    (hrun : run (dialParty wire).step ⟨.start, .idle⟩ moves = some a) : Dials wire a := by
  refine run_induct (P := fun _ a => Dials wire a) dials_start ?_ hrun
  rintro moves a move ⟨d, link⟩ - h hstep
  cases move with
  | own event =>
    obtain ⟨hown, rfl⟩ := Party.own_of_step hstep
    exact h.own hown
  | carry chunk =>
    obtain ⟨hsilent, heq⟩ := Party.carry_of_step hstep
    rw [heq]
    refine ⟨h.ending.trans hsilent, h.unspawned, h.writing, h.finished, h.front,
      ⟨h.verified.1, h.verified.2.trans (List.prefix_append _ _)⟩, fun hs => ?_,
      fun offset hs => ?_, h.joining, h.done, h.opening, h.aborted⟩
    · show a.link.brought ++ chunk.bytes = _
      rw [h.reading hs]
      simp [dialParty, Source.bytes]
    · exact fun hfront => h.mismatch offset hs ((List.prefix_append _ _).trans hfront)
  | finish ending =>
    obtain ⟨-, heq⟩ := Party.finish_of_step hstep
    rw [heq]
    exact ⟨rfl, h.unspawned, h.writing, h.finished, h.front, h.verified, h.reading, h.mismatch,
      h.joining, h.done, h.opening, h.aborted⟩

/-- Giving up leaves what has been sent alone, and a task that is over. -/
theorem Dialer.fail_kept (d : Dialer) (failure : DialFailure) :
    (d.fail failure).sent = d.sent ∧
      (d.writer = .finished → (d.fail failure).writer = .finished) ∧
      ∀ error, (d.fail failure).task = .failed error → d.task = .failed error := by
  unfold Dialer.fail Dialer.writer
  cases d.task <;> simp

/-- So does a read. -/
theorem Dialer.read_kept {d d' : Dialer} (hread : d.read wire = some d') :
    d'.sent = d.sent ∧ (d.writer = .finished → d'.writer = .finished) ∧
      ∀ error, d'.task = .failed error → d.task = .failed error := by
  unfold Dialer.read at hread
  split_ifs at hread
  · simp only at hread
    split at hread
    · next source _ =>
      split_ifs at hread <;> obtain rfl := Option.some.inj hread
      · exact ⟨rfl, id, fun _ => id⟩
      · exact Dialer.fail_kept { d with source := source } _
    · obtain rfl := Option.some.inj hread
      exact Dialer.fail_kept d _
    · cases hread
  · obtain rfl := Option.some.inj hread
    exact ⟨rfl, id, fun _ => id⟩

theorem Dialer.step_sent {event : DialEvent} {d d' : Dialer}
    (hstep : Dialer.step wire event d = some d') : d.sent <+: d'.sent := by
  unfold Dialer.step at hstep
  cases event with
  | opened | openFails =>
    obtain ⟨-, rfl⟩ := of_guarded hstep
    exact List.prefix_rfl
  | accept count =>
    simp only at hstep
    split at hstep
    · obtain ⟨-, rfl⟩ := of_guarded hstep
      exact List.prefix_append _ _
    · cases hstep
  | nextChunk | writeFails =>
    simp only at hstep
    split at hstep <;> cases hstep
    exact List.prefix_rfl
  | read =>
    simp only at hstep
    split_ifs at hstep
    rw [(Dialer.read_kept hstep).1]
  | join =>
    simp only at hstep
    split_ifs at hstep
    unfold Dialer.join at hstep
    split at hstep <;> cases hstep <;> exact List.prefix_rfl

theorem Dialer.step_finished {event : DialEvent} {d d' : Dialer}
    (hstep : Dialer.step wire event d = some d') (hfinished : d.writer = .finished) :
    d'.writer = .finished ∧ d'.sent = d.sent := by
  have htask : d.task = .finished ∨ d.task = .aborted := by
    unfold Dialer.writer at hfinished
    cases htask : d.task <;> simp [htask] at hfinished ⊢
  unfold Dialer.step at hstep
  cases event with
  | opened =>
    obtain ⟨⟨-, hunspawned⟩, rfl⟩ := of_guarded hstep
    rcases htask with htask | htask <;> rw [hunspawned] at htask <;> cases htask
  | openFails =>
    obtain ⟨-, rfl⟩ := of_guarded hstep
    exact ⟨hfinished, rfl⟩
  | accept | nextChunk | writeFails =>
    rcases htask with htask | htask <;> simp only [htask] at hstep <;> cases hstep
  | read =>
    simp only at hstep
    split_ifs at hstep
    obtain ⟨hsent, hwriter, -⟩ := Dialer.read_kept hstep
    exact ⟨hwriter hfinished, hsent⟩
  | join =>
    simp only at hstep
    split_ifs at hstep
    unfold Dialer.join at hstep
    split at hstep <;> cases hstep <;> exact ⟨hfinished, rfl⟩

theorem dialParty_lawful (wire : Bytes) : (dialParty wire).Lawful where
  own_sent := Dialer.step_sent
  own_finished := Dialer.step_finished
  deliver_sent _ _ := rfl
  deliver_writer _ _ := rfl
  finish_sent _ _ := rfl
  finish_writer _ _ := rfl

end IrohExperiment.Baseline
