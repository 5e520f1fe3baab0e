/-
# The number of frames received (`media-separation/src/lib.rs`)

The loop returns, beside its statistics, the number of the frames that it has received.
It takes this from the sequence number that it expects next, which has 32 bits and wraps
around, while the statistics count on.

The main result is `receive_frame_count`: on every path out of `receive_synthetic` the two
counts agree if fewer than 2 ^ 32 frames were accepted.  `receive_frame_count_wraps` is a
run of 2 ^ 32 frames, on which the number returned is zero.
-/
import IrohExperiment.Media.Truncation

namespace IrohExperiment.Media

open Rust History

/-! ## The frames accepted in a run -/

/-- The frame that the loop accepts in a step, if it does: the one in the first message, if
it has the expected sequence number. -/
def Reception.accepts (c : Reception) : ReceiveEvent → List Frame
  | .recv =>
    match c.queue with
    | .ok (some frame) :: _ =>
        if c.phase = .selecting ∧ frame.seq = c.expectedSeq then [frame] else []
    | _ => []
  | _ => []

/-- The frames that the loop accepts in a run, in order. -/
def acceptedFrames : Reception → List ReceiveEvent → List Frame
  | _, [] => []
  | c, event :: events =>
    c.accepts event ++
      match c.step event with
      | some c' => acceptedFrames c' events
      | none => []

theorem acceptedFrames_cons {c c' : Reception} {event : ReceiveEvent}
    (hstep : c.step event = some c') (events : List ReceiveEvent) :
    acceptedFrames c (event :: events) = c.accepts event ++ acceptedFrames c' events := by
  rw [acceptedFrames, hstep]

/-! ## What the loop keeps -/

/-- After so many frames: the sequence number expected next, the statistics, and what the
loop returns if it has done so. -/
structure Tallied (c : Reception) (n : ℕ) : Prop where
  expected : c.expectedSeq = UInt32.ofNat n
  counted : c.stats.frames = n
  returned : ∀ stats k, c.phase = .returned (.ok (stats, k)) → stats.frames = n ∧ k = n % 2 ^ 32

theorem tallied_start (gate : MediaGate) (seen : ℕ) : Tallied (Reception.start gate seen) 0 :=
  ⟨rfl, rfl, fun _ _ hphase => by cases hphase⟩

variable {c c' : Reception} {n : ℕ}

/-- A step that neither counts nor returns. -/
theorem Tallied.keep (h : Tallied c n) (hexpected : c'.expectedSeq = c.expectedSeq)
    (hstats : c'.stats = c.stats)
    (hphase : ∀ result, c'.phase = .returned (.ok result) → c.phase = .returned (.ok result)) :
    Tallied c' n :=
  ⟨hexpected.trans h.expected, hstats ▸ h.counted,
    fun stats k hend => h.returned stats k (hphase _ hend)⟩

/-- Every return hands out the expected sequence number, as a number. -/
theorem Tallied.finish (h : Tallied c n) : Tallied c.finish n := by
  refine ⟨h.expected, h.counted, ?_⟩
  intro stats k hphase
  obtain ⟨rfl, rfl⟩ := Prod.mk.inj (Except.ok.inj (Phase.returned.inj hphase))
  refine ⟨h.counted, ?_⟩
  rw [h.expected, UInt32.toNat_ofNat']

/-- The loop takes a message. -/
theorem Tallied.recv (h : Tallied c n) (hphase : c.phase = .selecting) {msg : Message}
    {queue : List Message} (hqueue : c.queue = msg :: queue) :
    Tallied (Reception.receive { c with queue := queue } msg) (n + (c.accepts .recv).length) := by
  match msg, hqueue with
  | .error kind, hqueue =>
    have hnone : c.accepts .recv = [] := by simp only [Reception.accepts, hqueue]
    rw [hnone]
    exact h.keep rfl rfl fun _ hend => by cases hend
  | .ok none, hqueue =>
    have hnone : c.accepts .recv = [] := by simp only [Reception.accepts, hqueue]
    rw [hnone]
    exact Tallied.finish ⟨h.expected, h.counted, h.returned⟩
  | .ok (some frame), hqueue =>
    by_cases hseq : frame.seq = c.expectedSeq
    · have hone : c.accepts .recv = [frame] := by
        simp only [Reception.accepts, hqueue, hphase, hseq, and_self, if_true]
      rw [hone, Reception.receive_expected (c := { c with queue := queue }) hseq]
      refine ⟨?_, ?_, fun _ _ hend => by cases hend⟩
      · show c.expectedSeq + 1 = UInt32.ofNat (n + 1)
        rw [h.expected, ofNat_succ]
      · show c.stats.frames + 1 = n + 1
        rw [h.counted]
    · have hnone : c.accepts .recv = [] := by
        simp only [Reception.accepts, hqueue, hseq, and_false, if_false]
      rw [hnone, Reception.receive_unexpected (c := { c with queue := queue }) hseq]
      exact h.keep rfl rfl fun _ hend => by cases hend

/-- What is kept in one step. -/
theorem Tallied.step (h : Tallied c n) {event : ReceiveEvent} (hstep : c.step event = some c') :
    Tallied c' (n + (c.accepts event).length) := by
  have look : Tallied c.look n := ⟨h.expected, h.counted, h.returned⟩
  cases receives_of_step hstep with
  | deliver => exact h.keep rfl rfl fun _ => id
  | finish => exact h.keep rfl rfl fun _ => id
  | signal => exact h.keep rfl rfl fun _ => id
  | read now _ result =>
    obtain ⟨hphase, hstats, hexpected, -⟩ := read_kept result
    exact h.keep hexpected hstats fun _ hend => hphase ▸ hend
  | send _ result =>
    obtain ⟨hstats, hexpected⟩ := send_kept result
    refine h.keep hexpected hstats fun _ hend => ?_
    unfold Reception.send at result
    split_ifs at result <;> cases result <;> exact hend
  | turnStopped => exact look.finish
  | turn => exact h.keep rfl rfl fun _ hend => by cases hend
  | recv phase queued => exact h.recv phase queued
  | closed _ empty =>
    have hnone : c.accepts .recv = [] := by simp only [Reception.accepts, empty]
    rw [hnone]
    exact h.finish
  | changedStopped => exact look.finish
  | changed => exact h.keep rfl rfl fun _ hend => by cases hend
  | settle => exact look.finish
  | timeout => exact h.keep rfl rfl fun _ hend => by cases hend

/-- What is kept in a run. -/
theorem Tallied.run {events : List ReceiveEvent} (h : Tallied c n)
    (hrun : run (fun event c => c.step event) c events = some c') :
    Tallied c' (n + (acceptedFrames c events).length) := by
  induction events generalizing c n with
  | nil =>
    obtain rfl := Option.some.inj hrun
    exact h
  | cons event events ih =>
    obtain ⟨m, hstep, hrest⟩ := run_cons.mp hrun
    rw [acceptedFrames_cons hstep, List.length_append, ← Nat.add_assoc]
    exact ih (h.step hstep) hrest

/-! ## What is returned -/

/-- The number that the loop returns is the number of accepted frames modulo 2 ^ 32, and
so the one in the statistics exactly if these are fewer than 2 ^ 32; if the 64 bits of the
statistics wrap around too, exactly if they are fewer than that modulo 2 ^ 64. -/
theorem receive_frame_count {gate : MediaGate} {seen : ℕ} {events : List ReceiveEvent}
    (hrun : receiveRun gate seen events = some c) {stats : StreamStats} {n : ℕ}
    (hreturned : c.phase = .returned (.ok (stats, n))) :
    stats.frames = (acceptedFrames (.start gate seen) events).length ∧
    n = (acceptedFrames (.start gate seen) events).length % 2 ^ 32 ∧
    (n = stats.frames ↔ (acceptedFrames (.start gate seen) events).length < 2 ^ 32) ∧
    (n = stats.frames % 2 ^ 64 ↔
      (acceptedFrames (.start gate seen) events).length % 2 ^ 64 < 2 ^ 32) := by
  have htallied := (tallied_start gate seen).run hrun
  rw [Nat.zero_add] at htallied
  obtain ⟨hframes, hn⟩ := htallied.returned stats n hreturned
  refine ⟨hframes, hn, ?_, ?_⟩ <;> rw [hframes, hn] <;> omega

/-- One frame, after which the sender ends the stream. -/
def oneFrame : List ReceiveEvent :=
  [.deliver ⟨sampleFrame.encode, by decide⟩, .finish .finished, .turn, .read 3, .send, .recv, .turn,
    .read 4, .send, .recv]

/-- The number of one frame. -/
theorem receive_frame_count_one :
    ∃ c stats, receiveRun .new 0 oneFrame = some c ∧ c.phase = .returned (.ok (stats, 1)) ∧
      stats.frames = 1 := by
  have hsome : (receiveRun .new 0 oneFrame).isSome = true := by decide +kernel
  obtain ⟨c, hrun⟩ := Option.isSome_iff_exists.mp hsome
  have hphase : (receiveRun .new 0 oneFrame).map Reception.phase =
      some (.returned (.ok (⟨1, 16, 2, some 3, some 3, none⟩, 1))) := by decide +kernel
  rw [hrun] at hphase
  have hreturned := Option.some.inj hphase
  have haccepted : (acceptedFrames (.start .new 0) oneFrame).length = 1 := by decide +kernel
  have hcount := (receive_frame_count hrun hreturned).1
  exact ⟨c, _, hrun, hreturned, hcount.trans haccepted⟩

/-! ## A stream that is too long -/

/-- The next frame, without payload. -/
def emptyFrame (n : ℕ) : WireFrame := ⟨UInt32.ofNat n, 0, [], nextFrame.length_lt⟩

/-- The reader reads a frame. -/
theorem step_read {now : ℕ} {frame : Option Frame} {source : Source} (hreader : c.reader = .reading)
    (hread : (readFrameSynced now).run c.source = .done frame source) :
    c.step (.read now) = some { c with source := source, reader := .sending (.ok frame) } := by
  show (if c.reader = .reading then c.read now else none) = _
  rw [if_pos hreader, Reception.read, hread]

/-- The loop is about to look at the gate, with nothing under way. -/
structure Resting (c : Reception) (n : ℕ) : Prop where
  phase : c.phase = .turning
  reader : c.reader = .reading
  queue : c.queue = []
  bytes : c.source.bytes = []
  ending : c.source.ending = .silent
  gate : c.gate.state.isStopped = false
  tallied : Tallied c n

theorem resting_start : Resting (.start .new 0) 0 :=
  ⟨rfl, rfl, rfl, rfl, rfl, rfl, tallied_start .new 0⟩

/-- One more frame comes through. -/
theorem Resting.next (h : Resting c n) :
    ∃ events c', run (fun event c => c.step event) c events = some c' ∧ Resting c' (n + 1) := by
  have hne : (emptyFrame n).encode ≠ [] := by
    intro hnil
    have hlen := (emptyFrame n).encode_length
    rw [hnil] at hlen
    cases hlen
  -- the next frame arrives, is read, queued and counted
  let c₁ : Reception :=
    { c with source := ⟨c.source.chunks ++ [⟨(emptyFrame n).encode, hne⟩], .silent⟩ }
  have hdeliver : c.step (.deliver ⟨(emptyFrame n).encode, hne⟩) = some c₁ := if_pos h.ending
  have hbytes : c₁.source.bytes = (emptyFrame n).encode ++ [] := by
    show Source.bytes ⟨c.source.chunks ++ [⟨(emptyFrame n).encode, hne⟩], .silent⟩ = _
    have hbefore := h.bytes
    simp only [Source.bytes, List.flatMap_append, List.flatMap_singleton] at hbefore ⊢
    rw [hbefore, List.append_nil, List.nil_append]
  obtain ⟨source, hread, hrest, hending⟩ := readFrameSynced_frame hbytes 0
  have hturn : c₁.step .turn = some { c₁.look with phase := .selecting } := by
    show (if c.phase ≠ .turning then none else if c.gate.state.isStopped then _ else _) = _
    rw [if_neg (not_not.mpr h.phase), h.gate]
    rfl
  let frame : Frame := ⟨(emptyFrame n).seq, headerBytes + 0, 0, 0⟩
  let c₂ : Reception := { c₁.look with
    phase := .selecting, source := source, reader := .sending (.ok (some frame)) }
  have hread₂ : Reception.step (.read 0) { c₁.look with phase := .selecting } = some c₂ :=
    step_read (c := { c₁.look with phase := .selecting }) h.reader hread
  let c₃ : Reception := { c₂ with queue := [.ok (some frame)], reader := .reading }
  have hsend : c₂.step .send = some c₃ := by
    show Reception.send c₂ (.ok (some frame)) = _
    have hqueue : c₂.queue = [] := h.queue
    simp only [Reception.send, hqueue]
    show some (c₂.sent (.ok (some frame))) = some c₃
    simp only [Reception.sent, hqueue]
    rfl
  have hseq : frame.seq = c₃.expectedSeq := h.tallied.expected.symm
  let c₄ : Reception := { c₃ with
    queue := []
    expectedSeq := c₃.expectedSeq + 1
    stats := c₃.stats.count frame.wireBytes frame.payloadBytes frame.arrivedUnixMs
    phase := .turning }
  have hrecv : c₃.step .recv = some c₄ :=
    congrArg some (Reception.receive_expected (c := { c₃ with queue := [] }) hseq)
  have hrun : run (fun event c => c.step event) c
      [.deliver ⟨(emptyFrame n).encode, hne⟩, .turn, .read 0, .send, .recv] = some c₄ :=
    run_cons.mpr ⟨_, hdeliver, run_cons.mpr ⟨_, hturn, run_cons.mpr ⟨_, hread₂,
      run_cons.mpr ⟨_, hsend, run_cons.mpr ⟨_, hrecv, rfl⟩⟩⟩⟩⟩
  refine ⟨_, c₄, hrun, rfl, rfl, rfl, hrest, hending, h.gate, ?_, ?_, ?_⟩
  · show c.expectedSeq + 1 = UInt32.ofNat (n + 1)
    rw [h.tallied.expected, ofNat_succ]
  · show c.stats.frames + 1 = n + 1
    rw [h.tallied.counted]
  · intro stats k hend
    cases hend

/-- As many frames as one likes come through. -/
theorem exists_resting (n : ℕ) :
    ∃ events c, receiveRun .new 0 events = some c ∧ Resting c n := by
  induction n with
  | zero => exact ⟨[], _, rfl, resting_start⟩
  | succ n ih =>
    obtain ⟨events, c, hrun, hresting⟩ := ih
    obtain ⟨later, c', hlater, hresting'⟩ := hresting.next
    exact ⟨events ++ later, c', run_append_eq_some.mpr ⟨c, hrun, hlater⟩, hresting'⟩

/-- If the connection is closed after 2 ^ 32 frames, the loop returns that it has received
none. -/
theorem receive_frame_count_wraps :
    ¬ ∀ gate seen events c stats n, receiveRun gate seen events = some c →
      c.phase = .returned (.ok (stats, n)) → n = stats.frames := by
  intro hall
  obtain ⟨events, c, hrun, hresting⟩ := exists_resting (2 ^ 32)
  -- the connection is closed, and the loop looks at the gate
  let closed : Reception := { c with gate := c.gate.stop .connectionClosed }
  have hsignal : c.step (.signal .connectionClosed 0) = some closed := by
    show some { c with gate := c.gate.apply .connectionClosed 0 } = some closed
    unfold MediaGate.apply
    rw [hresting.gate]
    rfl
  have hturn : closed.step .turn = some closed.look.finish := by
    show (if c.phase ≠ .turning then none else _) = _
    rw [if_neg (not_not.mpr hresting.phase)]
    rfl
  have hend : receiveRun .new 0 (events ++ [.signal .connectionClosed 0, .turn]) =
      some closed.look.finish :=
    run_append_eq_some.mpr ⟨c, hrun, run_cons.mpr ⟨_, hsignal, run_cons.mpr ⟨_, hturn, rfl⟩⟩⟩
  have hsame := hall _ _ _ _ _ _ hend rfl
  have hexpected : c.expectedSeq.toNat = 0 := by
    rw [hresting.tallied.expected, UInt32.toNat_ofNat']
    exact Nat.mod_self _
  have hframes := hresting.tallied.counted
  change c.expectedSeq.toNat = c.stats.frames at hsame
  rw [hexpected, hframes] at hsame
  omega

end IrohExperiment.Media
