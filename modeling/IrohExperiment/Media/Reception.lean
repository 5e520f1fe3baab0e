/-
# Reception of the synthetic stream (`media-separation/src/lib.rs`)

What the receiver has counted, in any order of deliveries, reads, sends, gate changes and
turns of the loop: first the frames that stand between the wire and the statistics, then
what holds when nothing is left to do.

The invariant `Sound` follows the bytes: what is counted, what waits in the channel, what
the reader holds and what is left of the stream make up the wire.  The main result is
`receive_counts`, which says what is counted, and that everything is where the gate stays
open.
-/
import IrohExperiment.Media.Receiver

namespace IrohExperiment.Media

open Rust History

/-! ## The steps -/

/-- The steps of the receiver, with the state after each. -/
inductive Receives (c : Reception) : ReceiveEvent → Reception → Prop where
  | deliver (chunk : Chunk) (silent : c.source.ending = .silent) :
      Receives c (.deliver chunk) { c with source := ⟨c.source.chunks ++ [chunk], .silent⟩ }
  | finish (ending : Ending) (silent : c.source.ending = .silent) :
      Receives c (.finish ending) { c with source := ⟨c.source.chunks, ending⟩ }
  | signal (signal : PathSignal) (now : ℕ) :
      Receives c (.signal signal now) { c with gate := c.gate.apply signal now }
  | read {c' : Reception} (now : ℕ) (reading : c.reader = .reading)
      (result : c.read now = some c') :
      Receives c (.read now) c'
  | send {c' : Reception} {msg : Message} (sending : c.reader = .sending msg)
      (result : c.send msg = some c') : Receives c .send c'
  | turnStopped (phase : c.phase = .turning) (stopped : c.gate.state.isStopped = true) :
      Receives c .turn c.look.finish
  | turn (phase : c.phase = .turning) : Receives c .turn { c.look with phase := .selecting }
  | recv {msg : Message} {queue : List Message} (phase : c.phase = .selecting)
      (queued : c.queue = msg :: queue) :
      Receives c .recv (Reception.receive { c with queue := queue } msg)
  | closed (phase : c.phase = .selecting) (empty : c.queue = []) (gone : c.reader = .gone) :
      Receives c .recv c.finish
  | changedStopped (phase : c.phase = .selecting) (stopped : c.gate.state.isStopped = true) :
      Receives c .changed c.look.finish
  | changed (phase : c.phase = .selecting) : Receives c .changed { c.look with phase := .turning }
  | settle (phase : c.phase = .settling) (stopped : c.gate.state.isStopped = true) :
      Receives c .settle c.look.finish
  | timeout (phase : c.phase = .settling) :
      Receives c .timeout { c with phase := .returned (.error .readFailed) }

/-- Every step is one of these. -/
theorem receives_of_step {c c' : Reception} {event : ReceiveEvent}
    (hstep : c.step event = some c') :
    Receives c event c' := by
  unfold Reception.step at hstep
  cases event with
  | deliver chunk =>
    obtain ⟨hsilent, rfl⟩ := of_guarded hstep
    exact .deliver chunk hsilent
  | finish ending =>
    obtain ⟨hsilent, rfl⟩ := of_guarded hstep
    exact .finish ending hsilent
  | signal signal now =>
    obtain rfl := Option.some.inj hstep
    exact .signal signal now
  | read now =>
    simp only at hstep
    split_ifs at hstep with hreading
    exact .read now hreading hstep
  | send =>
    cases hreader : c.reader with
    | sending msg =>
      simp only [hreader] at hstep
      exact .send hreader hstep
    | _ =>
      simp only [hreader] at hstep
      cases hstep
  | turn =>
    simp only at hstep
    split_ifs at hstep with hphase hstopped <;> obtain rfl := Option.some.inj hstep
    · exact .turnStopped (not_not.mp hphase) hstopped
    · exact .turn (not_not.mp hphase)
  | recv =>
    simp only at hstep
    split_ifs at hstep with hphase
    unfold Reception.recv at hstep
    cases hqueue : c.queue with
    | nil =>
      rw [hqueue] at hstep
      obtain ⟨hgone, rfl⟩ := of_guarded hstep
      exact .closed hphase hqueue hgone
    | cons msg queue =>
      rw [hqueue] at hstep
      obtain rfl := Option.some.inj hstep
      exact .recv hphase hqueue
  | changed =>
    simp only at hstep
    split_ifs at hstep with hphase hstopped <;> obtain rfl := Option.some.inj hstep
    · exact .changedStopped (not_not.mp (not_or.mp hphase).1) hstopped
    · exact .changed (not_not.mp (not_or.mp hphase).1)
  | settle =>
    obtain ⟨⟨hphase, hstopped⟩, rfl⟩ := of_guarded hstep
    exact .settle hphase hstopped
  | timeout =>
    obtain ⟨⟨hphase, -⟩, rfl⟩ := of_guarded hstep
    exact .timeout hphase

/-- Bytes are delivered with a chunk only. -/
theorem ReceiveEvent.bytes_of_quiet {event : ReceiveEvent}
    (hquiet : ∀ chunk, event ≠ .deliver chunk) :
    event.bytes = [] := by
  cases event with
  | deliver chunk => exact absurd rfl (hquiet chunk)
  | _ => rfl

/-! ## Reading a frame -/

/-- A frame at the front of the stream is read. -/
theorem readFrameSynced_frame {source : Source} {f : WireFrame} {rest : Bytes}
    (hbytes : source.bytes = f.encode ++ rest) (now : ℕ) :
    ∃ source', (readFrameSynced now).run source =
        .done (some ⟨f.seq, headerBytes + f.payload.length, f.payload.length, now⟩) source' ∧
      source'.bytes = rest ∧ source'.ending = source.ending := by
  unfold WireFrame.encode at hbytes
  rw [List.append_assoc] at hbytes
  obtain ⟨source₁, hheader, hbytes₁, hending₁⟩ := readExact_done hbytes f.header_length.symm
  have hlen : beNat ((f.header.drop 12).take 2) = f.payload.length := by
    rw [List.take_of_length_le (by simp [headerBytes]), f.header_payloadLen]
  obtain ⟨source₂, hpayload, hbytes₂, hending₂⟩ := readExact_done hbytes₁ hlen
  refine ⟨source₂, ?_, hbytes₂, hending₂.trans hending₁⟩
  rw [run_readFrameSynced, hheader]
  show (readPayload f.header now).run source₁ = _
  unfold readPayload
  rw [Async.bind_done hpayload, hlen, f.header_seq, UInt32.ofNat_toNat]
  rfl

/-- A stream that ends within a payload: its ending decides. -/
theorem readFrameSynced_payload {source : Source} (h : Incomplete source.bytes)
    (hheader : headerBytes ≤ source.bytes.length) (now : ℕ) :
    (readFrameSynced now).run source = source.ending.outcome := by
  have hpayload : (source.bytes.drop headerBytes).length <
      beNat ((source.bytes.drop 12).take 2) := by
    by_contra hle
    obtain ⟨f, hf⟩ := exists_frame hheader (Nat.le_of_not_lt hle)
    exact h f hf
  obtain ⟨source₁, hread, hbytes₁, hending₁⟩ :=
    readExact_done (List.take_append_drop headerBytes source.bytes).symm
      (n := headerBytes) (by rw [List.length_take, Nat.min_eq_left hheader])
  have hlen : ((source.bytes.take headerBytes).drop 12).take 2 = (source.bytes.drop 12).take 2 := by
    rw [List.drop_take, List.take_take]
    rfl
  have hshort : source₁.bytes.length <
      beNat (((source.bytes.take headerBytes).drop 12).take 2) := by
    rw [hlen, hbytes₁]
    exact hpayload
  have hfails := readExact_short hshort
  rw [hending₁] at hfails
  rw [run_readFrameSynced, hread]
  show (readPayload _ now).run source₁ = _
  unfold readPayload
  rw [Async.run_bind, hfails]
  cases source.ending <;> rfl

/-- Bytes without a complete frame at their front: the reader waits, or ends. -/
theorem readFrameSynced_incomplete {source : Source} (h : Incomplete source.bytes) (now : ℕ) :
    (readFrameSynced now).run source = .waits ∨
    source.ending ≠ .silent ∧
      ((∃ source', (readFrameSynced now).run source = .done none source' ∧
          source'.ending = source.ending) ∨
        ∃ kind, (readFrameSynced now).run source = .failed kind) := by
  rcases Nat.lt_or_ge source.bytes.length headerBytes with hshort | hheader
  · -- the stream ends within the header
    rw [run_readFrameSynced, readExact_short hshort]
    cases hending : source.ending with
    | finished => exact .inr ⟨by decide, .inl ⟨⟨[], .finished⟩, rfl, rfl⟩⟩
    | failed kind =>
      refine .inr ⟨fun heq => (by cases heq), ?_⟩
      by_cases hkind : kind = .unexpectedEof
      · subst hkind
        exact .inl ⟨⟨[], .failed .unexpectedEof⟩, rfl, rfl⟩
      · right
        refine ⟨kind, ?_⟩
        cases kind <;> first | rfl | exact absurd rfl hkind
    | silent => exact .inl rfl
  · -- the stream ends within the payload
    rw [readFrameSynced_payload h hheader]
    cases hending : source.ending with
    | finished => exact .inr ⟨by decide, .inr ⟨.unexpectedEof, rfl⟩⟩
    | failed kind => exact .inr ⟨fun heq => (by cases heq), .inr ⟨kind, rfl⟩⟩
    | silent => exact .inl rfl

/-! ## Between the wire and the statistics -/

/-- The message brings a frame to the loop. -/
def Carries (msg : Message) (f : WireFrame) : Prop :=
  ∃ now, msg = .ok (some ⟨f.seq, headerBytes + f.payload.length, f.payload.length, now⟩)

/-- The message is the last one of the reader. -/
def IsLast (msg : Message) : Prop := ∀ frame, msg ≠ .ok (some frame)

/-- The messages that the loop has still to receive. -/
def Reception.pending (c : Reception) : List Message :=
  c.queue ++ match c.reader with
    | .sending msg => [msg]
    | _ => []

/-- Nothing is left to count: the stream has ended, and its last bytes are no frame. -/
def Dry (c : Reception) (frames : List WireFrame) (tail : Bytes) : Prop :=
  frames = [] ∧ Incomplete tail ∧ c.source.ending ≠ .silent

/-- What stands between the loop and the bytes that the reader has not read: frames in
messages, and behind them the stream, or the message that it has ended. -/
inductive Underway (c : Reception) (frames : List WireFrame) (tail : Bytes) : Prop where
  | live (reader : c.reader ≠ .gone) (carried : List.Forall₂ Carries c.pending frames)
      (unread : c.source.bytes = tail)
  | ended (reader : c.reader ≠ .reading) (msgs : List Message) (last : Message)
      (pending : c.pending = msgs ++ [last]) (carried : List.Forall₂ Carries msgs frames)
      (isLast : IsLast last) (incomplete : Incomplete tail) (ending : c.source.ending ≠ .silent)

/-- What a state of the loop says about the frames that it has not counted. -/
def Standing (c : Reception) (frames : List WireFrame) (tail : Bytes) : Prop :=
  match c.phase with
  | .turning | .selecting => Underway c frames tail
  | .settling => Dry c frames tail
  | .returned (.ok (stats, n)) =>
    stats = c.stats ∧ n = c.expectedSeq.toNat ∧ (c.gate.state.isStopped = true ∨ Dry c frames tail)
  | .returned (.error (.discontinuity got expected)) =>
    expected = c.expectedSeq ∧ got ≠ expected ∧ ∃ f later, frames = f :: later ∧ got = f.seq
  | .returned (.error .readFailed) => Dry c frames tail

/-- The bytes delivered are the frames counted, the frames not counted, and a rest. -/
structure Sound (bytes : Bytes) (c : Reception) (counted frames : List WireFrame) (tail : Bytes) :
    Prop where
  bytes_eq : bytes = encodeAll counted ++ (encodeAll frames ++ tail)
  numbered : Numbered counted
  expected : c.expectedSeq = UInt32.ofNat counted.length
  counts : c.stats.Counts counted
  standing : Standing c frames tail

theorem sound_start (gate : MediaGate) (seen : ℕ) : Sound [] (Reception.start gate seen) [] [] [] :=
  ⟨rfl, numbered_nil, rfl, counts_nil, .live Reader.noConfusion .nil rfl⟩

/-! ## One step -/

variable {c c' : Reception} {counted frames : List WireFrame} {bytes tail : Bytes}

/-- A step of the world or of the reader: the loop stands where it stood. -/
theorem Standing.map (h : Standing c frames tail) {frames' : List WireFrame} {tail' : Bytes}
    (hphase : c'.phase = c.phase) (hstats : c'.stats = c.stats)
    (hexpected : c'.expectedSeq = c.expectedSeq)
    (hgate : c.gate.state.isStopped = true → c'.gate.state.isStopped = true)
    (hunderway : c.isReturned = false → Underway c frames tail → Underway c' frames' tail')
    (hdry : Dry c frames tail → Dry c' frames' tail')
    (hhead : ∀ f later, frames = f :: later → ∃ later', frames' = f :: later') :
    Standing c' frames' tail' := by
  unfold Standing at h ⊢
  rw [hphase, hstats, hexpected]
  cases hc : c.phase with
  | turning =>
    rw [hc] at h
    exact hunderway (by unfold Reception.isReturned; rw [hc]) h
  | selecting =>
    rw [hc] at h
    exact hunderway (by unfold Reception.isReturned; rw [hc]) h
  | settling =>
    rw [hc] at h
    exact hdry h
  | returned result =>
    rw [hc] at h
    match result, h with
    | .ok (stats, n), ⟨hs, hn, hend⟩ => exact ⟨hs, hn, hend.imp hgate hdry⟩
    | .error (.discontinuity got expected), ⟨he, hne, f, later, hframes, hf⟩ =>
      obtain ⟨later', hlater'⟩ := hhead f later hframes
      exact ⟨he, hne, f, later', hlater', hf⟩
    | .error .readFailed, h => exact hdry h

/-- More bytes are delivered. -/
theorem Standing.deliver (h : Standing c frames tail) (hsilent : c.source.ending = .silent)
    (chunk : Chunk) :
    Standing { c with source := ⟨c.source.chunks ++ [chunk], .silent⟩ } frames
      (tail ++ chunk.bytes) := by
  refine h.map rfl rfl rfl id (fun _ hunder => ?_) (fun hdry => absurd hsilent hdry.2.2)
    (fun f later hframes => ⟨later, hframes⟩)
  cases hunder with
  | live reader carried unread =>
    refine .live reader carried ?_
    rw [← unread]
    simp [Source.bytes]
  | ended reader msgs last pending carried isLast incomplete ending => exact absurd hsilent ending

/-- The stream ends. -/
theorem Standing.finish (h : Standing c frames tail) (hsilent : c.source.ending = .silent)
    (ending : Ending) :
    Standing { c with source := ⟨c.source.chunks, ending⟩ } frames tail := by
  refine h.map rfl rfl rfl id (fun _ hunder => ?_) (fun hdry => absurd hsilent hdry.2.2)
    (fun f later hframes => ⟨later, hframes⟩)
  cases hunder with
  | live reader carried unread => exact .live reader carried unread
  | ended reader msgs last pending carried isLast incomplete ending => exact absurd hsilent ending

/-- The gate is fed. -/
theorem Standing.signal (h : Standing c frames tail) (signal : PathSignal) (now : ℕ) :
    Standing { c with gate := c.gate.apply signal now } frames tail := by
  refine h.map rfl rfl rfl (fun hstopped => isStopped_apply hstopped signal now)
    (fun _ hunder => ?_) id
    (fun f later hframes => ⟨later, hframes⟩)
  cases hunder with
  | live reader carried unread => exact .live reader carried unread
  | ended reader msgs last pending carried isLast incomplete ending =>
    exact .ended reader msgs last pending carried isLast incomplete ending

/-- The reader reads what the stream begins with. -/
theorem Underway.read (h : Underway c frames tail) (hreading : c.reader = .reading) {now : ℕ}
    (hread : c.read now = some c') :
    ∃ frames' tail', encodeAll frames ++ tail = encodeAll frames' ++ tail' ∧
      (∃ more, frames' = frames ++ more) ∧ Underway c' frames' tail' := by
  cases h with
  | ended reader => exact absurd hreading reader
  | live reader carried unread =>
    have hpending : c.pending = c.queue := by
      unfold Reception.pending
      rw [hreading]
      simp
    rw [hpending] at carried
    unfold Reception.read at hread
    by_cases hframe : ∃ f : WireFrame, f.encode <+: c.source.bytes
    · -- a complete frame
      obtain ⟨f, rest, hrest⟩ := hframe
      obtain ⟨source, hrun, hbytes, -⟩ := readFrameSynced_frame hrest.symm now
      rw [hrun] at hread
      obtain rfl := Option.some.inj hread
      refine ⟨frames ++ [f], rest, ?_, ⟨[f], rfl⟩, .live Reader.noConfusion ?_ hbytes⟩
      · rw [← unread, ← hrest]
        simp
      · exact List.rel_append carried (.cons ⟨now, rfl⟩ .nil)
    · -- the stream ends before the frame is complete
      have hincomplete : Incomplete c.source.bytes := fun f hf => hframe ⟨f, hf⟩
      refine ⟨frames, tail, rfl, ⟨[], (List.append_nil _).symm⟩, ?_⟩
      rw [unread] at hincomplete
      rcases readFrameSynced_incomplete (unread ▸ hincomplete) now with
        hrun | ⟨hending, ⟨source, hrun, hsource⟩ | ⟨kind, hrun⟩⟩
      · rw [hrun] at hread
        cases hread
      · rw [hrun] at hread
        obtain rfl := Option.some.inj hread
        exact .ended Reader.noConfusion c.queue (.ok none) rfl carried
          (fun frame heq => by cases heq)
          hincomplete (by rw [hsource]; exact hending)
      · rw [hrun] at hread
        obtain rfl := Option.some.inj hread
        exact .ended Reader.noConfusion c.queue (.error kind) rfl carried
          (fun frame heq => by cases heq) hincomplete hending

/-- Reading leaves the end of the stream as it is. -/
theorem read_ending {now : ℕ} (hread : c.read now = some c') :
    c'.source.ending = c.source.ending := by
  unfold Reception.read at hread
  by_cases hframe : ∃ f : WireFrame, f.encode <+: c.source.bytes
  · obtain ⟨f, rest, hrest⟩ := hframe
    obtain ⟨source, hrun, -, hending⟩ := readFrameSynced_frame hrest.symm now
    rw [hrun] at hread
    obtain rfl := Option.some.inj hread
    exact hending
  · rcases readFrameSynced_incomplete (fun f hf => hframe ⟨f, hf⟩) now with
      hrun | ⟨-, ⟨source, hrun, hsource⟩ | ⟨kind, hrun⟩⟩
    · rw [hrun] at hread
      cases hread
    · rw [hrun] at hread
      obtain rfl := Option.some.inj hread
      exact hsource
    · rw [hrun] at hread
      obtain rfl := Option.some.inj hread
      rfl

/-- Reading is no business of the loop. -/
theorem read_kept {now : ℕ} (hread : c.read now = some c') :
    c'.phase = c.phase ∧ c'.stats = c.stats ∧ c'.expectedSeq = c.expectedSeq ∧
      c'.gate = c.gate := by
  unfold Reception.read at hread
  split at hread <;> cases hread <;> exact ⟨rfl, rfl, rfl, rfl⟩

/-- Where nothing is left to count, nothing is found. -/
theorem Dry.read (h : Dry c frames tail) (hending : c'.source.ending = c.source.ending)
    {frames' : List WireFrame} {tail' : Bytes}
    (hsame : encodeAll frames ++ tail = encodeAll frames' ++ tail') : Dry c' frames' tail' := by
  obtain ⟨rfl, hincomplete, hsilent⟩ := h
  cases frames' with
  | nil =>
    obtain rfl : tail = tail' := hsame
    exact ⟨rfl, hincomplete, by rwa [hending]⟩
  | cons f later =>
    rw [encodeAll_nil, List.nil_append, encodeAll_cons, List.append_assoc] at hsame
    exact absurd ⟨_, hsame.symm⟩ (hincomplete f)

/-- A read of the reader task. -/
theorem Standing.read (h : Standing c frames tail) (hreading : c.reader = .reading) {now : ℕ}
    (hread : c.read now = some c') :
    ∃ frames' tail', encodeAll frames ++ tail = encodeAll frames' ++ tail' ∧
      Standing c' frames' tail' := by
  have hending := read_ending hread
  obtain ⟨hphase, hstats, hexpected, hgate⟩ := read_kept hread
  by_cases hunder : Underway c frames tail
  · obtain ⟨frames', tail', hsame, ⟨more, rfl⟩, hunder'⟩ := hunder.read hreading hread
    refine ⟨frames ++ more, tail', hsame, h.map hphase hstats hexpected (by rw [hgate]; exact id)
      (fun _ _ => hunder') (fun hdry => hdry.read hending hsame) ?_⟩
    rintro f later rfl
    exact ⟨later ++ more, rfl⟩
  · exact ⟨frames, tail, rfl, h.map hphase hstats hexpected (by rw [hgate]; exact id)
      (fun _ hunder' => absurd hunder' hunder) (fun hdry => hdry.read hending rfl)
      (fun f later hframes => ⟨later, hframes⟩)⟩

/-- The last message brings the last frame. -/
theorem exists_of_forall₂_concat {msgs : List Message} {msg : Message} {frames : List WireFrame}
    (h : List.Forall₂ Carries (msgs ++ [msg]) frames) : ∃ f, Carries msg f := by
  induction msgs generalizing frames with
  | nil =>
    cases h with
    | cons hcarries _ => exact ⟨_, hcarries⟩
  | cons m msgs ih =>
    cases h with
    | cons _ hrest => exact ih hrest

/-- What the reader sends was already on its way. -/
theorem Underway.sent (h : Underway c frames tail) {msg : Message}
    (hsending : c.reader = .sending msg) :
    Underway (c.sent msg) frames tail := by
  have hpending : (c.sent msg).pending = c.queue ++ [msg] := by
    unfold Reception.pending Reception.sent
    cases msg with
    | error kind => simp
    | ok frame => cases frame <;> simp
  have hbefore : c.pending = c.queue ++ [msg] := by
    unfold Reception.pending
    rw [hsending]
  cases h with
  | live reader carried unread =>
    rw [hbefore] at carried
    have hmsg : ∃ frame, msg = .ok (some frame) := by
      obtain ⟨f, now, hmsg⟩ := exists_of_forall₂_concat carried
      exact ⟨_, hmsg⟩
    obtain ⟨frame, rfl⟩ := hmsg
    exact .live Reader.noConfusion (by rw [hpending]; exact carried) unread
  | ended reader msgs last pending carried isLast incomplete ending =>
    obtain ⟨rfl, hlast⟩ := List.append_inj' (hbefore.symm.trans pending) rfl
    obtain rfl := List.singleton_inj.mp hlast
    refine .ended ?_ c.queue msg hpending carried isLast incomplete ending
    cases msg with
    | error kind => exact Reader.noConfusion
    | ok frame =>
      cases frame with
      | none => exact Reader.noConfusion
      | some frame => exact absurd rfl (isLast frame)

/-- A send of the reader task. -/
theorem Standing.send (h : Standing c frames tail) {msg : Message}
    (hsending : c.reader = .sending msg) (hsend : c.send msg = some c') :
    Standing c' frames tail := by
  unfold Reception.send at hsend
  split_ifs at hsend with hreturned hroom
  · -- the loop has dropped the channel
    obtain rfl := Option.some.inj hsend
    refine h.map rfl rfl rfl id (fun hnot => ?_) id (fun f later hframes => ⟨later, hframes⟩)
    rw [hreturned] at hnot
    cases hnot
  · obtain rfl := Option.some.inj hsend
    exact h.map rfl rfl rfl id (fun _ hunder => hunder.sent hsending) id
      (fun f later hframes => ⟨later, hframes⟩)

/-- Nor is sending. -/
theorem send_kept {msg : Message} (hsend : c.send msg = some c') :
    c'.stats = c.stats ∧ c'.expectedSeq = c.expectedSeq := by
  unfold Reception.send at hsend
  split_ifs at hsend <;> cases hsend <;> exact ⟨rfl, rfl⟩

/-- A step that leaves what has been counted. -/
theorem Sound.keep (h : Sound bytes c counted frames tail) {frames' : List WireFrame}
    {tail' : Bytes} (hstanding : Standing c' frames' tail')
    (hexpected : c'.expectedSeq = c.expectedSeq) (hcounts : c'.stats.Counts counted)
    (hsame : encodeAll frames ++ tail = encodeAll frames' ++ tail') :
    Sound bytes c' counted frames' tail' :=
  ⟨by rw [h.bytes_eq, hsame], h.numbered, hexpected.trans h.expected, hcounts, hstanding⟩

theorem standing_finish (hend : c.gate.state.isStopped = true ∨ Dry c frames tail) :
    Standing c.finish frames tail := by
  unfold Standing Reception.finish
  exact ⟨rfl, rfl, hend⟩

/-- As long as the loop runs, what it has not counted is under way. -/
theorem standing_loop (hphase : c.phase = .turning ∨ c.phase = .selecting) :
    Standing c frames tail ↔ Underway c frames tail := by
  unfold Standing
  rcases hphase with hphase | hphase <;> rw [hphase]

theorem standing_settling (hphase : c.phase = .settling) :
    Standing c frames tail ↔ Dry c frames tail := by
  unfold Standing
  rw [hphase]

theorem standing_readFailed (hphase : c.phase = .returned (.error .readFailed)) :
    Standing c frames tail ↔ Dry c frames tail := by
  unfold Standing
  rw [hphase]

/-- The loop returns because the gate is stopped, or because nothing is left. -/
theorem Sound.finish (h : Sound bytes c counted frames tail)
    (hend : c.gate.state.isStopped = true ∨ Dry c frames tail) :
    Sound bytes c.finish counted frames tail :=
  h.keep (standing_finish hend) rfl (h.counts.stopReason _) rfl

/-- What the loop does at the gate leaves what is under way. -/
theorem Underway.look (h : Underway c frames tail) (phase : Phase) :
    Underway { c.look with phase := phase } frames tail := by
  cases h with
  | live reader carried unread => exact .live reader carried unread
  | ended reader msgs last pending carried isLast incomplete ending =>
    exact .ended reader msgs last pending carried isLast incomplete ending

theorem Sound.look (h : Sound bytes c counted frames tail) :
    Sound bytes c.look counted frames tail := by
  refine h.keep (h.standing.map rfl rfl rfl id (fun _ hunder => hunder.look _) id ?_) rfl
    h.counts rfl
  exact fun f later hframes => ⟨later, hframes⟩

/-- What the loop takes from the channel is the next frame, or the end. -/
theorem Underway.recv (h : Underway c frames tail) {msg : Message} {queue : List Message}
    (hqueue : c.queue = msg :: queue) :
    (∃ f later, frames = f :: later ∧ Carries msg f ∧
      Underway { c with queue := queue } later tail) ∨
    IsLast msg ∧ Dry c frames tail := by
  cases h with
  | live reader carried unread =>
    have hpending : c.pending = msg :: ({ c with queue := queue } : Reception).pending := by
      unfold Reception.pending
      rw [hqueue]
      rfl
    rw [hpending] at carried
    cases carried with
    | cons hcarries hlater => exact .inl ⟨_, _, rfl, hcarries, .live reader hlater unread⟩
  | ended reader msgs last pending carried isLast incomplete ending =>
    have hpending : c.pending = msg :: ({ c with queue := queue } : Reception).pending := by
      unfold Reception.pending
      rw [hqueue]
      rfl
    rw [hpending] at pending
    cases msgs with
    | nil =>
      cases carried
      obtain ⟨rfl, -⟩ := List.cons_eq_cons.mp pending
      exact .inr ⟨isLast, rfl, incomplete, ending⟩
    | cons m msgs =>
      obtain ⟨rfl, hrest⟩ := List.cons_eq_cons.mp pending
      cases carried with
      | cons hcarries hlater =>
        exact .inl ⟨_, _, rfl, hcarries,
          .ended reader msgs last hrest hlater isLast incomplete ending⟩

/-- While something is under way, the channel does not close. -/
theorem Underway.reader_ne_gone (h : Underway c frames tail) (hqueue : c.queue = []) :
    c.reader ≠ .gone := by
  intro hgone
  cases h with
  | live reader carried unread => exact reader hgone
  | ended reader msgs last pending carried isLast incomplete ending =>
    unfold Reception.pending at pending
    rw [hqueue, hgone] at pending
    have hlen := congrArg List.length pending
    simp at hlen

/-- The loop receives a message. -/
theorem Sound.recv (h : Sound bytes c counted frames tail) (hphase : c.phase = .selecting)
    {msg : Message} {queue : List Message} (hqueue : c.queue = msg :: queue) :
    ∃ counted' frames',
      Sound bytes (Reception.receive { c with queue := queue } msg) counted' frames' tail := by
  have hunder : Underway c frames tail := (standing_loop (.inr hphase)).mp h.standing
  rcases hunder.recv hqueue with ⟨f, later, rfl, ⟨now, rfl⟩, hlater⟩ | ⟨hlast, hdry⟩
  · by_cases hseq : f.seq = c.expectedSeq
    · -- the next frame is counted
      rw [Reception.receive_expected hseq]
      refine ⟨counted ++ [f], later, ?_, ?_, ?_, h.counts.concat f now, ?_⟩
      · rw [h.bytes_eq, encodeAll_append, encodeAll_cons, encodeAll_cons]
        simp
      · exact numbered_concat.mpr ⟨h.numbered, hseq.trans h.expected⟩
      · show c.expectedSeq + 1 = _
        rw [h.expected, List.length_append, List.length_singleton, ofNat_succ]
      · cases hlater with
        | live reader carried unread => exact .live reader carried unread
        | ended reader msgs last pending carried isLast incomplete ending =>
          exact .ended reader msgs last pending carried isLast incomplete ending
    · -- a wrong sequence number
      rw [Reception.receive_unexpected hseq]
      refine ⟨counted, f :: later, h.keep ?_ rfl h.counts rfl⟩
      unfold Standing
      exact ⟨rfl, hseq, f, later, rfl, rfl⟩
  · cases msg with
    | error kind =>
      exact ⟨counted, frames, h.keep ((standing_settling rfl).mpr hdry) rfl h.counts rfl⟩
    | ok frame =>
      cases frame with
      | none => exact ⟨counted, frames,
          h.keep (standing_finish (.inr hdry)) rfl (h.counts.stopReason _) rfl⟩
      | some frame => exact absurd rfl (hlast frame)

/-- A step in which nothing is delivered. -/
theorem Sound.step_quiet (h : Sound bytes c counted frames tail) {event : ReceiveEvent}
    (hquiet : ∀ chunk, event ≠ .deliver chunk) (hstep : Receives c event c') :
    ∃ counted' frames' tail', Sound bytes c' counted' frames' tail' := by
  cases hstep with
  | deliver chunk => exact absurd rfl (hquiet chunk)
  | finish ending silent =>
    exact ⟨counted, frames, tail, h.keep (h.standing.finish silent ending) rfl h.counts rfl⟩
  | signal signal now =>
    exact ⟨counted, frames, tail, h.keep (h.standing.signal signal now) rfl h.counts rfl⟩
  | read now reading result =>
    obtain ⟨-, hstats, hexpected, -⟩ := read_kept result
    obtain ⟨frames', tail', hsame, hstanding⟩ := h.standing.read reading result
    exact ⟨counted, frames', tail',
      h.keep hstanding hexpected (by rw [hstats]; exact h.counts) hsame⟩
  | send sending result =>
    obtain ⟨hstats, hexpected⟩ := send_kept result
    exact ⟨counted, frames, tail, h.keep (h.standing.send sending result) hexpected
      (by rw [hstats]; exact h.counts) rfl⟩
  | turnStopped _ stopped => exact ⟨counted, frames, tail, h.look.finish (.inl stopped)⟩
  | turn phase =>
    have hunder := (standing_loop (.inl phase)).mp h.standing
    exact ⟨counted, frames, tail,
      h.keep ((standing_loop (.inr rfl)).mpr (hunder.look .selecting)) rfl h.counts rfl⟩
  | recv phase queued =>
    obtain ⟨counted', frames', hsound⟩ := h.recv phase queued
    exact ⟨counted', frames', tail, hsound⟩
  | closed phase empty gone =>
    have hunder := (standing_loop (.inr phase)).mp h.standing
    exact absurd gone (hunder.reader_ne_gone empty)
  | changedStopped _ stopped => exact ⟨counted, frames, tail, h.look.finish (.inl stopped)⟩
  | changed phase =>
    have hunder := (standing_loop (.inr phase)).mp h.standing
    exact ⟨counted, frames, tail,
      h.keep ((standing_loop (.inl rfl)).mpr (hunder.look .turning)) rfl h.counts rfl⟩
  | settle _ stopped => exact ⟨counted, frames, tail, h.look.finish (.inl stopped)⟩
  | timeout phase =>
    have hdry := (standing_settling phase).mp h.standing
    exact ⟨counted, frames, tail, h.keep ((standing_readFailed rfl).mpr hdry) rfl h.counts rfl⟩

/-- What has been delivered is accounted for after every step. -/
theorem Sound.step (h : Sound bytes c counted frames tail) {event : ReceiveEvent}
    (hstep : c.step event = some c') :
    ∃ counted' frames' tail', Sound (bytes ++ event.bytes) c' counted' frames' tail' := by
  have hreceives := receives_of_step hstep
  by_cases hdeliver : ∃ chunk, event = .deliver chunk
  · obtain ⟨chunk, rfl⟩ := hdeliver
    cases hreceives with
    | deliver _ silent =>
      refine ⟨counted, frames, tail ++ chunk.bytes, ?_, h.numbered, h.expected, h.counts,
        h.standing.deliver silent chunk⟩
      rw [h.bytes_eq]
      simp [ReceiveEvent.bytes]
  · have hquiet : ∀ chunk, event ≠ .deliver chunk := fun chunk heq => hdeliver ⟨chunk, heq⟩
    rw [ReceiveEvent.bytes_of_quiet hquiet, List.append_nil]
    exact h.step_quiet hquiet hreceives

/-- What has been delivered is accounted for after every run. -/
theorem sound_run {gate : MediaGate} {seen : ℕ} {events : List ReceiveEvent}
    (hrun : receiveRun gate seen events = some c) :
    ∃ counted frames tail, Sound (delivered events) c counted frames tail := by
  refine run_induct (P := fun events c => ∃ counted frames tail, Sound (delivered events) c counted
    frames tail)
    ⟨[], [], [], sound_start gate seen⟩ ?_ hrun
  rintro events c event c' - ⟨counted, frames, tail, h⟩ hstep
  have hdelivered : delivered (events ++ [event]) = delivered events ++ event.bytes := by
    simp [delivered]
  rw [hdelivered]
  exact h.step hstep

/-! ## When nothing is left to do -/

/-- A reader that waits has no complete frame before it. -/
theorem incomplete_of_waits {now : ℕ} (hread : c.read now = none) : Incomplete c.source.bytes := by
  intro f hf
  obtain ⟨rest, hrest⟩ := hf
  obtain ⟨source, hrun, -, -⟩ := readFrameSynced_frame hrest.symm now
  unfold Reception.read at hread
  rw [hrun] at hread
  cases hread

/-- When no task can go on, the channel is empty and the reader waits for bytes. -/
theorem Underway.idle (h : Underway c frames tail) (hphase : c.phase = .selecting)
    (hquiet : c.Quiescent) : c.queue = [] ∧ c.reader = .reading := by
  have hqueue : c.queue = [] := by
    have hrecv := hquiet .recv rfl
    simp only [Reception.step, if_pos hphase, Reception.recv] at hrecv
    cases hq : c.queue with
    | nil => rfl
    | cons msg queue =>
      rw [hq] at hrecv
      cases hrecv
  refine ⟨hqueue, ?_⟩
  cases hreader : c.reader with
  | reading => rfl
  | sending msg =>
    have hsend := hquiet .send rfl
    simp only [Reception.step, hreader, Reception.send, Reception.isReturned, hphase,
      hqueue] at hsend
    cases hsend
  | gone => exact absurd hreader (h.reader_ne_gone hqueue)

/-- What is under way when no task can go on. -/
theorem Underway.quiescent (h : Underway c frames tail) (hphase : c.phase = .selecting)
    (hquiet : c.Quiescent) : frames = [] ∧ Incomplete tail := by
  obtain ⟨hqueue, hreading⟩ := h.idle hphase hquiet
  have hread := hquiet (.read 0) rfl
  simp only [Reception.step, if_pos hreading] at hread
  cases h with
  | live reader carried unread =>
    unfold Reception.pending at carried
    rw [hqueue, hreading] at carried
    cases carried
    exact ⟨rfl, unread ▸ incomplete_of_waits hread⟩
  | ended reader => exact absurd hreading reader

/-- When no task can go on and the gate is not stopped, every complete frame has been
counted, or the first that has not been has a wrong sequence number. -/
theorem Sound.quiescent (h : Sound bytes c counted frames tail) (hquiet : c.Quiescent)
    (hopen : c.gate.state.isStopped = false) :
    frames = [] ∧ Incomplete tail ∨
    ∃ f later, frames = f :: later ∧ f.seq ≠ UInt32.ofNat counted.length ∧
      c.phase = .returned (.error (.discontinuity f.seq (UInt32.ofNat counted.length))) := by
  have hstanding := h.standing
  cases hphase : c.phase with
  | turning =>
    have hturn := hquiet .turn rfl
    simp only [Reception.step, hphase, hopen] at hturn
    cases hturn
  | selecting =>
    exact .inl (((standing_loop (.inr hphase)).mp hstanding).quiescent hphase hquiet)
  | settling =>
    obtain ⟨hnone, hincomplete, -⟩ := (standing_settling hphase).mp hstanding
    exact .inl ⟨hnone, hincomplete⟩
  | returned result =>
    unfold Standing at hstanding
    rw [hphase] at hstanding
    match result, hstanding with
    | .ok _, ⟨_, _, hend⟩ =>
      rcases hend with hstopped | ⟨hnone, hincomplete, -⟩
      · rw [hopen] at hstopped
        cases hstopped
      · exact .inl ⟨hnone, hincomplete⟩
    | .error (.discontinuity _ _), ⟨hexpected, hne, f, later, hframes, hgot⟩ =>
      subst hexpected hgot
      rw [h.expected] at hne ⊢
      exact .inr ⟨f, later, hframes, hne, rfl⟩
    | .error .readFailed, ⟨hnone, hincomplete, _⟩ => exact .inl ⟨hnone, hincomplete⟩

/-- The frame that comes next. -/
theorem Sound.next_on_wire {f : WireFrame} {later : List WireFrame}
    (h : Sound bytes c counted (f :: later) tail) : encodeAll (counted ++ [f]) <+: bytes := by
  refine ⟨encodeAll later ++ tail, ?_⟩
  rw [h.bytes_eq]
  simp

/-- Two lists of frames that the same bytes begin with. -/
theorem frames_comparable {frames₁ frames₂ : List WireFrame} (h₁ : encodeAll frames₁ <+: bytes)
    (h₂ : encodeAll frames₂ <+: bytes) : frames₁ <+: frames₂ ∨ frames₂ <+: frames₁ := by
  rcases List.prefix_or_prefix_of_prefix h₁ h₂ with h | h
  · exact .inl (frames_of_encodeAll h)
  · exact .inr (frames_of_encodeAll h)

/-- The receiver against the bytes that have been delivered, in every order of steps. -/
theorem receive_counts {gate : MediaGate} {seen : ℕ} {events : List ReceiveEvent}
    (hrun : receiveRun gate seen events = some c) :
    (∀ frames, Numbered frames → delivered events <+: encodeAll frames →
      (∃ counted, counted <+: frames ∧ encodeAll counted <+: delivered events ∧
        c.stats.Counts counted ∧
        ∀ stats n, c.phase = .returned (.ok (stats, n)) → stats = c.stats ∧
          n = counted.length % 2 ^ 32) ∧
      (c.Quiescent → c.gate.state.isStopped = false →
        ∃ counted, counted <+: frames ∧ CompleteFrames counted (delivered events) ∧
          c.stats.Counts counted)) ∧
    (∀ good bad, Numbered good → bad.seq ≠ UInt32.ofNat good.length →
      encodeAll (good ++ [bad]) <+: delivered events →
      (∃ counted, counted <+: good ∧ c.stats.Counts counted) ∧
      (c.Quiescent → c.gate.state.isStopped = false →
        c.phase = .returned (.error (.discontinuity bad.seq (UInt32.ofNat good.length))) ∧
          c.stats.Counts good)) := by
  obtain ⟨counted, rest, tail, h⟩ := sound_run hrun
  have hcounted : encodeAll counted <+: delivered events := ⟨_, h.bytes_eq.symm⟩
  constructor
  · intro frames hnumbered hdelivered
    have hfront : counted <+: frames := frames_of_bytes (h.bytes_eq ▸ hdelivered)
    refine ⟨⟨counted, hfront, hcounted, h.counts, ?_⟩, ?_⟩
    · intro stats n hphase
      have hstanding := h.standing
      unfold Standing at hstanding
      rw [hphase] at hstanding
      obtain ⟨hstats, hn, -⟩ := hstanding
      refine ⟨hstats, ?_⟩
      rw [hn, h.expected, UInt32.toNat_ofNat']
    · intro hquiet hopen
      rcases h.quiescent hquiet hopen with ⟨rfl, hincomplete⟩ | ⟨f, later, rfl, hne, -⟩
      · exact ⟨counted, hfront, ⟨tail, h.bytes_eq, hincomplete⟩, h.counts⟩
      · -- the next frame is numbered too
        have hnext : counted ++ [f] <+: frames :=
          frames_of_encodeAll (h.next_on_wire.trans hdelivered)
        exact absurd (numbered_concat.mp (hnumbered.of_prefix hnext)).2 hne
  · intro good bad hgood hbad hdelivered
    -- the bad frame is out of number, so what is counted ends before it
    have hnot : ¬ Numbered (good ++ [bad]) := fun hnumbered => hbad (numbered_concat.mp hnumbered).2
    have hfront : counted <+: good := by
      rcases frames_comparable hcounted hdelivered with hle | hge
      · rcases List.prefix_concat_iff.mp hle with rfl | hle
        · exact absurd h.numbered hnot
        · exact hle
      · exact absurd (h.numbered.of_prefix hge) hnot
    refine ⟨⟨counted, hfront, h.counts⟩, ?_⟩
    intro hquiet hopen
    rcases h.quiescent hquiet hopen with ⟨rfl, hincomplete⟩ | ⟨f, later, rfl, hne, hphase⟩
    · have hcomplete : CompleteFrames counted (delivered events) := ⟨tail, h.bytes_eq, hincomplete⟩
      exact absurd (h.numbered.of_prefix (hcomplete.prefix_of hdelivered)) hnot
    -- the frame that stopped the loop is the bad one
    · rcases frames_comparable h.next_on_wire hdelivered with hle | hge
      · rcases List.prefix_concat_iff.mp hle with heq | hle
        · obtain ⟨rfl, hlast⟩ := List.append_inj' heq rfl
          obtain rfl := List.singleton_inj.mp hlast
          exact ⟨hphase, h.counts⟩
        · exact absurd (numbered_concat.mp (hgood.of_prefix hle)).2 hne
      · rcases List.prefix_concat_iff.mp hge with heq | hge
        · obtain ⟨rfl, hlast⟩ := List.append_inj' heq rfl
          obtain rfl := List.singleton_inj.mp hlast
          exact ⟨hphase, h.counts⟩
        · exact absurd (h.numbered.of_prefix hge) hnot

/-- A frame with two bytes of payload. -/
def sampleFrame : WireFrame := ⟨0, 1, [7, 8], by decide⟩

def nextFrame : WireFrame := ⟨1, 2, [], by decide⟩

/-- A frame in two chunks, the second with the beginning of another frame. -/
def sampleEvents : List ReceiveEvent :=
  [.deliver ⟨sampleFrame.encode.take 5, by decide⟩, .turn,
    .deliver ⟨sampleFrame.encode.drop 5 ++ [0, 0], by decide⟩, .read 3, .send, .recv, .turn]

def sampleEnd : Reception :=
  ⟨⟨[⟨[0, 0], by decide⟩], .silent⟩, .reading, [], .new, 0, 1,
    { frames := 1, bytesOnWire := 16, payloadBytes := 2, firstFrameUnixMs := some 3,
      lastFrameUnixMs := some 3 }, .selecting⟩

theorem sampleEnd_run : receiveRun .new 0 sampleEvents = some sampleEnd := by decide +kernel

theorem sampleEnd_quiescent : sampleEnd.Quiescent := by
  intro event htask
  cases event with
  | read now => rfl
  | send => rfl
  | turn => rfl
  | recv => rfl
  | changed => rfl
  | settle => rfl
  | _ => cases htask

theorem numbered_sample : Numbered [sampleFrame, nextFrame] := by
  intro i f h
  match i, h with
  | 0, h => cases h; rfl
  | 1, h => cases h; rfl

/-- The frame that is complete is counted. -/
theorem receive_counts_two_chunks :
    ∃ counted, counted <+: [sampleFrame, nextFrame] ∧
      CompleteFrames counted (delivered sampleEvents) ∧ sampleEnd.stats.Counts counted :=
  ((receive_counts sampleEnd_run).1 _ numbered_sample (by decide)).2 sampleEnd_quiescent rfl

end IrohExperiment.Media
