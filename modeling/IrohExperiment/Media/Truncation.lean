/-
# The end of the synthetic stream (`media-separation/src/lib.rs`)

What the receiver makes of a stream that ends: the bytes behind the last whole frame
decide whether the end is reported as clean or as a failed read, for the frames read one
after the other and for the receiver under every order of its steps.

The main result is `endReported_iff`: the receiver reports how its stream ended exactly if
the bytes behind the last whole frame are none or a whole header at least.
`not_endReported_two_bytes` is a stream cut two bytes into a header, which passes for a
clean end.
-/
import IrohExperiment.Media.Reception

namespace IrohExperiment.Media

open Rust History

/-! ## Whole frames and what is behind them -/

/-- The bytes are whole frames. -/
def Whole (bytes : Bytes) : Prop := ∃ frames, bytes = encodeAll frames

/-- The bytes end inside a header: one to thirteen bytes behind the last whole frame. -/
def CutInHeader (bytes : Bytes) : Prop :=
  ∃ frames tail, bytes = encodeAll frames ++ tail ∧ tail ≠ [] ∧ tail.length < headerBytes

/-- Less than a header is no frame. -/
theorem incomplete_of_short {tail : Bytes} (h : tail.length < headerBytes) : Incomplete tail := by
  intro f hf
  have hle := hf.length_le
  rw [WireFrame.encode_length] at hle
  omega

/-- Some frames, and what is behind them. -/
theorem exists_completeFrames (bytes : Bytes) : ∃ frames, CompleteFrames frames bytes := by
  induction hn : bytes.length using Nat.strong_induction_on generalizing bytes with
  | _ n ih =>
    by_cases hframe : ∃ f : WireFrame, f.encode <+: bytes
    · obtain ⟨f, rest, rfl⟩ := hframe
      have hlt : rest.length < n := by
        rw [← hn, List.length_append, WireFrame.encode_length]
        unfold headerBytes
        omega
      obtain ⟨frames, tail, rfl, hincomplete⟩ := ih _ hlt rest rfl
      exact ⟨f :: frames, tail, by simp, hincomplete⟩
    · exact ⟨[], bytes, rfl, fun f hf => hframe ⟨f, hf⟩⟩

/-- There is one way to cut bytes into whole frames and a rest. -/
theorem completeFrames_unique {frames frames' : List WireFrame} {tail tail' : Bytes}
    (h : Incomplete tail) (h' : Incomplete tail')
    (heq : encodeAll frames ++ tail = encodeAll frames' ++ tail') :
    frames = frames' ∧ tail = tail' := by
  have hle : frames <+: frames' :=
    CompleteFrames.prefix_of ⟨tail', rfl, h'⟩ ⟨tail, heq⟩
  have hge : frames' <+: frames :=
    CompleteFrames.prefix_of ⟨tail, rfl, h⟩ ⟨tail', heq.symm⟩
  obtain rfl := hle.eq_of_length_le hge.length_le
  exact ⟨rfl, List.append_cancel_left heq⟩

/-- Bytes are whole frames if nothing is behind these. -/
theorem whole_iff {frames : List WireFrame} {tail : Bytes} (h : Incomplete tail) :
    Whole (encodeAll frames ++ tail) ↔ tail = [] := by
  constructor
  · rintro ⟨frames', heq⟩
    have hnil : Incomplete [] := incomplete_of_short (by decide)
    rw [← List.append_nil (encodeAll frames')] at heq
    exact (completeFrames_unique h hnil heq).2
  · rintro rfl
    exact ⟨frames, List.append_nil _⟩

theorem cutInHeader_iff {frames : List WireFrame} {tail : Bytes} (h : Incomplete tail) :
    CutInHeader (encodeAll frames ++ tail) ↔ tail ≠ [] ∧ tail.length < headerBytes := by
  constructor
  · rintro ⟨frames', tail', heq, hne, hshort⟩
    obtain ⟨-, rfl⟩ := completeFrames_unique h (incomplete_of_short hshort) heq
    exact ⟨hne, hshort⟩
  · exact fun ⟨hne, hshort⟩ => ⟨frames, tail, rfl, hne, hshort⟩

/-! ## Frame after frame -/

/-- `read_frame_synced` until the stream ends, for at most so many frames. -/
def readFrames (clock : ℕ → ℕ) : ℕ → Source → Option (Except ErrorKind (List Frame))
  | 0, _ => none
  | fuel + 1, source =>
    match (readFrameSynced (clock fuel)).run source with
    | .done (some frame) source => (readFrames clock fuel source).map (Except.map (frame :: ·))
    | .done none _ => some (.ok [])
    | .failed kind => some (.error kind)
    | .waits => none

/-- Where the stream ends decides between a clean end and a failed read. -/
theorem readFrameSynced_end {source : Source} (hincomplete : Incomplete source.bytes)
    (hending : source.ending = .finished) (now : ℕ) :
    if source.bytes.length < headerBytes then
      (readFrameSynced now).run source = .done none ⟨[], .finished⟩
    else (readFrameSynced now).run source = .failed .unexpectedEof := by
  split_ifs with hshort
  · rw [run_readFrameSynced, readExact_short hshort, hending]
    rfl
  · rw [readFrameSynced_payload hincomplete (Nat.le_of_not_lt hshort), hending]
    rfl

/-- The frames are read, and then the end. -/
theorem readFrames_eq (clock : ℕ → ℕ) {fuel : ℕ} {source : Source} {frames : List WireFrame}
    {tail : Bytes} (hbytes : source.bytes = encodeAll frames ++ tail)
    (hincomplete : Incomplete tail) (hending : source.ending = .finished)
    (hfuel : frames.length < fuel) :
    if tail.length < headerBytes then ∃ parsed, readFrames clock fuel source = some (.ok parsed)
    else readFrames clock fuel source = some (.error .unexpectedEof) := by
  induction frames generalizing fuel source with
  | nil =>
    obtain ⟨fuel, rfl⟩ := Nat.exists_eq_add_of_lt hfuel
    have hend := readFrameSynced_end (hbytes ▸ hincomplete) hending (clock (0 + fuel))
    rw [hbytes] at hend
    rw [List.length_nil, readFrames]
    split_ifs with hshort
    · rw [encodeAll_nil, List.nil_append, if_pos hshort] at hend
      rw [hend]
      exact ⟨[], rfl⟩
    · rw [encodeAll_nil, List.nil_append, if_neg hshort] at hend
      rw [hend]
  | cons f frames ih =>
    obtain ⟨fuel, rfl⟩ := Nat.exists_eq_add_of_lt hfuel
    rw [encodeAll_cons, List.append_assoc] at hbytes
    obtain ⟨source', hrun, hrest, hending'⟩ :=
      readFrameSynced_frame hbytes (clock ((f :: frames).length + fuel))
    have hlen : frames.length < (f :: frames).length + fuel := by
      rw [List.length_cons]
      omega
    have hrec := ih hrest (hending'.trans hending) hlen
    rw [readFrames, hrun]
    split_ifs at hrec ⊢ with hshort
    · obtain ⟨parsed, hparsed⟩ := hrec
      simp only [hparsed]
      exact ⟨_, rfl⟩
    · simp only [hrec]
      rfl

/-! ## What the receiver says of the end -/

/-- The last message of the reader is right: `clean` if it brings a clean end, `cut` if it
brings an error. -/
def Message.Fits (msg : Message) (clean cut : Prop) : Prop :=
  match msg with
  | .ok (some _) => True
  | .ok none => clean
  | .error _ => cut

theorem Message.Fits.mono {msg : Message} {clean cut clean' cut' : Prop}
    (h : Message.Fits msg clean cut) (hclean : clean → clean') (hcut : cut → cut') :
    Message.Fits msg clean' cut' := by
  match msg, h with
  | .ok (some _), _ => trivial
  | .ok none, h => exact hclean h
  | .error _, h => exact hcut h

/-- The loop still looks for messages. -/
def Reception.Running (c : Reception) : Prop := c.phase = .turning ∨ c.phase = .selecting

/-- Every message on its way is right, and so is what the loop has made of the last one. -/
structure Tells (c : Reception) (clean cut : Prop) : Prop where
  pending : c.Running → ∀ msg ∈ c.pending, Message.Fits msg clean cut
  phase : match c.phase with
    | .settling | .returned (.error .readFailed) => cut
    | .returned (.ok _) => c.gate.state.isStopped = true ∨ clean
    | _ => True

variable {c c' : Reception} {clean cut : Prop}

theorem tells_start (gate : MediaGate) (seen : ℕ) : Tells (Reception.start gate seen) clean cut :=
  ⟨fun _ _ hmsg => absurd hmsg List.not_mem_nil, trivial⟩

/-- A step that the loop takes no part in. -/
theorem Tells.keep (h : Tells c clean cut) {clean' cut' : Prop} (hclean : clean → clean')
    (hcut : cut → cut') (hpending : c.Running → ∀ msg ∈ c'.pending, msg ∈ c.pending ∨
      Message.Fits msg clean' cut')
    (hphase : c'.phase = c.phase)
    (hgate : c.gate.state.isStopped = true → c'.gate.state.isStopped = true) :
    Tells c' clean' cut' := by
  refine ⟨fun hrunning msg hmsg => ?_, ?_⟩
  · have hbefore : c.Running := by
      unfold Reception.Running at hrunning ⊢
      rwa [hphase] at hrunning
    rcases hpending hbefore msg hmsg with hold | hfits
    · exact (h.pending hbefore msg hold).mono hclean hcut
    · exact hfits
  · have hstands := h.phase
    rw [hphase]
    match c.phase, hstands with
    | .turning, _ => trivial
    | .selecting, _ => trivial
    | .settling, hstands => exact hcut hstands
    | .returned (.ok _), hstands => exact hstands.imp hgate hclean
    | .returned (.error .readFailed), hstands => exact hcut hstands
    | .returned (.error (.discontinuity _ _)), _ => trivial

/-- The loop goes on, at a point where nothing is said of the end. -/
theorem Tells.loop (h : Tells c clean cut) (hrunning : c.Running)
    (hpending : c'.pending = c.pending) (hphase : c'.Running) : Tells c' clean cut := by
  refine ⟨fun _ => by rw [hpending]; exact h.pending hrunning, ?_⟩
  rcases hphase with hphase | hphase
  · rw [hphase]
    trivial
  · rw [hphase]
    trivial

/-- The loop returns its statistics. -/
theorem tells_finish (hend : c.gate.state.isStopped = true ∨ clean) :
    Tells c.finish clean cut := by
  refine ⟨fun hrunning => ?_, hend⟩
  rcases hrunning with hphase | hphase
  · cases hphase
  · cases hphase

theorem Tells.look (h : Tells c clean cut) : Tells c.look clean cut := ⟨h.pending, h.phase⟩

/-- What the reader finds is right, if nothing is left to come. -/
theorem Tells.read (h : Tells c clean cut) {now : ℕ} (hread : c.read now = some c')
    (hend : c.Running → Incomplete c.source.bytes → c.source.ending ≠ .silent →
      (∀ source, (readFrameSynced now).run c.source = .done none source → clean) ∧
      (∀ kind, (readFrameSynced now).run c.source = .failed kind → cut)) : Tells c' clean cut := by
  obtain ⟨hphase, -, -, hgate⟩ := read_kept hread
  refine h.keep id id (fun hrunning msg hmsg => ?_) hphase (by rw [hgate]; exact id)
  unfold Reception.read at hread
  by_cases hframe : ∃ f : WireFrame, f.encode <+: c.source.bytes
  · obtain ⟨f, rest, hrest⟩ := hframe
    obtain ⟨source, hrun, -, -⟩ := readFrameSynced_frame hrest.symm now
    rw [hrun] at hread
    obtain rfl := Option.some.inj hread
    rcases List.mem_append.mp hmsg with hold | hnew
    · exact .inl (List.mem_append_left _ hold)
    · obtain rfl := List.mem_singleton.mp hnew
      exact .inr trivial
  · have hincomplete : Incomplete c.source.bytes := fun f hf => hframe ⟨f, hf⟩
    rcases readFrameSynced_incomplete hincomplete now with
      hrun | ⟨hsilent, ⟨source, hrun, -⟩ | ⟨kind, hrun⟩⟩
    · rw [hrun] at hread
      cases hread
    · have hclean := (hend hrunning hincomplete hsilent).1 source hrun
      rw [hrun] at hread
      obtain rfl := Option.some.inj hread
      rcases List.mem_append.mp hmsg with hold | hnew
      · exact .inl (List.mem_append_left _ hold)
      · obtain rfl := List.mem_singleton.mp hnew
        exact .inr hclean
    · have hcut := (hend hrunning hincomplete hsilent).2 kind hrun
      rw [hrun] at hread
      obtain rfl := Option.some.inj hread
      rcases List.mem_append.mp hmsg with hold | hnew
      · exact .inl (List.mem_append_left _ hold)
      · obtain rfl := List.mem_singleton.mp hnew
        exact .inr hcut

/-- A message that is sent was on its way before. -/
theorem Tells.send (h : Tells c clean cut) {msg : Message} (hreader : c.reader = .sending msg)
    (hsend : c.send msg = some c') : Tells c' clean cut := by
  have hpending : c.pending = c.queue ++ [msg] := by
    unfold Reception.pending
    rw [hreader]
  unfold Reception.send at hsend
  split_ifs at hsend with hreturned hroom
  · obtain rfl := Option.some.inj hsend
    refine h.keep id id (fun _ m hm => .inl ?_) rfl id
    rw [hpending]
    exact List.mem_append_left _ (by simpa [Reception.pending] using hm)
  · obtain rfl := Option.some.inj hsend
    refine h.keep id id (fun _ m hm => .inl ?_) rfl id
    rw [hpending]
    unfold Reception.pending Reception.sent at hm
    match msg, hm with
    | .ok (some _), hm => simpa using hm
    | .ok none, hm => simpa using hm
    | .error _, hm => simpa using hm

/-- The loop makes of a message what it says. -/
theorem Tells.recv (h : Tells c clean cut) (hphase : c.phase = .selecting) {msg : Message}
    {queue : List Message} (hqueue : c.queue = msg :: queue) :
    Tells (Reception.receive { c with queue := queue } msg) clean cut := by
  have hpending : c.pending = msg :: ({ c with queue := queue } : Reception).pending := by
    unfold Reception.pending
    rw [hqueue]
    rfl
  have hall := h.pending (.inr hphase)
  have hmsg : Message.Fits msg clean cut := hall msg (hpending ▸ List.mem_cons_self)
  have hrest : ∀ m ∈ ({ c with queue := queue } : Reception).pending, Message.Fits m clean cut :=
    fun m hm => hall m (hpending ▸ List.mem_cons_of_mem _ hm)
  match msg, hmsg with
  | .ok none, hclean => exact tells_finish (.inr hclean)
  | .error _, hcut =>
    refine ⟨fun hrunning => ?_, hcut⟩
    rcases hrunning with hphase | hphase
    · cases hphase
    · cases hphase
  | .ok (some frame), _ =>
    by_cases hseq : frame.seq = c.expectedSeq
    · rw [Reception.receive_expected (c := { c with queue := queue }) hseq]
      exact ⟨fun _ => hrest, trivial⟩
    · rw [Reception.receive_unexpected (c := { c with queue := queue }) hseq]
      refine ⟨fun hrunning => ?_, trivial⟩
      rcases hrunning with hphase | hphase
      · cases hphase
      · cases hphase

/-- What a clean end says of the bytes, once the stream has ended. -/
def SaysClean (ending : Ending) (bytes : Bytes) : Prop :=
  match ending with
  | .silent => False
  | .finished => ∃ frames tail, bytes = encodeAll frames ++ tail ∧ tail.length < headerBytes
  | .failed _ => True

/-- What an error says of the bytes, once the stream has ended. -/
def SaysCut (ending : Ending) (bytes : Bytes) : Prop :=
  match ending with
  | .silent => False
  | .finished =>
      ∃ frames tail, bytes = encodeAll frames ++ tail ∧ Incomplete tail ∧ headerBytes ≤ tail.length
  | .failed _ => True

/-- The receiver tells how the bytes that have been delivered end. -/
def TellsEnd (bytes : Bytes) (c : Reception) : Prop :=
  Tells c (SaysClean c.source.ending bytes) (SaysCut c.source.ending bytes)

variable {bytes tail : Bytes} {counted frames : List WireFrame}

/-- A read tells how the stream ends. -/
theorem TellsEnd.read (h : TellsEnd bytes c) (hsound : Sound bytes c counted frames tail)
    (hreading : c.reader = .reading) {now : ℕ} (hread : c.read now = some c') :
    TellsEnd bytes c' := by
  unfold TellsEnd
  rw [read_ending hread]
  refine Tells.read h hread fun hrunning hincomplete hsilent => ?_
  have hbytes : ∃ frames, bytes = encodeAll frames ++ c.source.bytes := by
    cases (standing_loop hrunning).mp hsound.standing with
    | live reader carried unread =>
      refine ⟨counted ++ frames, ?_⟩
      rw [hsound.bytes_eq, unread]
      simp
    | ended reader => exact absurd hreading reader
  obtain ⟨all, hall⟩ := hbytes
  cases hending : c.source.ending with
  | silent => exact absurd hending hsilent
  | failed kind => exact ⟨fun _ _ => trivial, fun _ _ => trivial⟩
  | finished =>
    have hend := readFrameSynced_end hincomplete hending now
    split_ifs at hend with hshort
    · refine ⟨fun _ _ => ⟨all, _, hall, hshort⟩, fun kind hfailed => ?_⟩
      rw [hend] at hfailed
      cases hfailed
    · refine ⟨fun source hdone => ?_,
        fun _ _ => ⟨all, _, hall, hincomplete, Nat.le_of_not_lt hshort⟩⟩
      rw [hend] at hdone
      cases hdone

/-- A step in which nothing is delivered. -/
theorem TellsEnd.step_quiet (h : TellsEnd bytes c) (hsound : Sound bytes c counted frames tail)
    {event : ReceiveEvent} (hquiet : ∀ chunk, event ≠ .deliver chunk)
    (hstep : Receives c event c') : TellsEnd bytes c' := by
  cases hstep with
  | deliver chunk => exact absurd rfl (hquiet chunk)
  | finish ending silent =>
    unfold TellsEnd at h ⊢
    rw [silent] at h
    exact h.keep False.elim False.elim (fun _ msg hmsg => .inl hmsg) rfl id
  | signal signal now =>
    exact Tells.keep h id id (fun _ msg hmsg => .inl hmsg) rfl
      (fun hstopped => isStopped_apply hstopped signal now)
  | read now reading result => exact h.read hsound reading result
  | send sending result =>
    have hsource : c'.source = c.source := by
      simp only [Reception.send] at result
      split_ifs at result <;> cases result <;> rfl
    unfold TellsEnd
    rw [hsource]
    exact Tells.send h sending result
  | turnStopped _ stopped => exact tells_finish (.inl stopped)
  | turn phase => exact Tells.loop h (.inl phase) rfl (.inr rfl)
  | @recv msg queue phase queued =>
    have hsource : (Reception.receive { c with queue := queue } msg).source = c.source := by
      unfold Reception.receive
      split
      · rfl
      · split_ifs <;> rfl
      · rfl
    unfold TellsEnd
    rw [hsource]
    exact Tells.recv h phase queued
  | closed phase empty gone =>
    have hunder := (standing_loop (.inr phase)).mp hsound.standing
    exact absurd gone (hunder.reader_ne_gone empty)
  | changedStopped _ stopped => exact tells_finish (.inl stopped)
  | changed phase => exact Tells.loop h (.inr phase) rfl (.inl rfl)
  | settle _ stopped => exact tells_finish (.inl stopped)
  | timeout phase =>
    have hcut := Tells.phase h
    rw [phase] at hcut
    refine ⟨fun hrunning => ?_, hcut⟩
    rcases hrunning with hrunning | hrunning
    · cases hrunning
    · cases hrunning

/-- What the receiver tells stays right in every step. -/
theorem TellsEnd.step (h : TellsEnd bytes c) (hsound : Sound bytes c counted frames tail)
    {event : ReceiveEvent} (hstep : c.step event = some c') :
    TellsEnd (bytes ++ event.bytes) c' := by
  have hreceives := receives_of_step hstep
  by_cases hdeliver : ∃ chunk, event = .deliver chunk
  · -- nothing has been said yet
    obtain ⟨chunk, rfl⟩ := hdeliver
    cases hreceives with
    | deliver _ silent =>
      unfold TellsEnd at h ⊢
      rw [silent] at h
      exact h.keep False.elim False.elim (fun _ msg hmsg => .inl hmsg) rfl id
  · have hquiet : ∀ chunk, event ≠ .deliver chunk := fun chunk heq => hdeliver ⟨chunk, heq⟩
    rw [ReceiveEvent.bytes_of_quiet hquiet, List.append_nil]
    exact h.step_quiet hsound hquiet hreceives

/-- What the receiver tells is right after every run. -/
theorem tellsEnd_run {gate : MediaGate} {seen : ℕ} {events : List ReceiveEvent}
    (hrun : receiveRun gate seen events = some c) : TellsEnd (delivered events) c := by
  refine run_induct (P := fun events c => TellsEnd (delivered events) c)
    (tells_start gate seen) ?_ hrun
  intro events c event c' hbefore h hstep
  have hdelivered : delivered (events ++ [event]) = delivered events ++ event.bytes := by
    simp [delivered]
  obtain ⟨counted, frames, tail, hsound⟩ := sound_run hbefore
  rw [hdelivered]
  exact h.step hsound hstep

/-! ## Clean ends and failed reads -/

/-- A receiver that has nothing left to do at the end of the stream has returned, or is
about to give up waiting for the gate after an abrupt cut. -/
theorem Sound.returned_or_settling (h : Sound bytes c counted frames tail) (hquiet : c.Quiescent)
    (hopen : c.gate.state.isStopped = false) (hending : c.source.ending = .finished) :
    (∃ result, c.phase = .returned result) ∨ c.phase = .settling := by
  cases hphase : c.phase with
  | returned result => exact .inl ⟨result, rfl⟩
  | settling => exact .inr rfl
  | turning =>
    have hturn := hquiet .turn rfl
    simp only [Reception.step, hphase, hopen] at hturn
    cases hturn
  | selecting =>
    -- the reader would go on, to the next frame or to the end
    obtain ⟨-, hreading⟩ := ((standing_loop (.inr hphase)).mp h.standing).idle hphase hquiet
    have hread := hquiet (.read 0) rfl
    simp only [Reception.step, if_pos hreading] at hread
    have hend := readFrameSynced_end (incomplete_of_waits hread) hending 0
    unfold Reception.read at hread
    split_ifs at hend with hshort
    · rw [hend] at hread
      cases hread
    · rw [hend] at hread
      cases hread

/-- What is reported of a stream of these bytes: frame after frame, and by the receiver while
its gate is open. -/
structure EndReported (bytes : Bytes) : Prop where
  read : ∀ (clock : ℕ → ℕ) (source : Source) (fuel : ℕ), source.bytes = bytes →
    source.ending = .finished →
    bytes.length < fuel →
    (Whole bytes → ∃ frames, readFrames clock fuel source = some (.ok frames)) ∧
    (¬ Whole bytes → ∃ kind, readFrames clock fuel source = some (.error kind))
  received : ∀ (gate : MediaGate) (seen : ℕ) (events : List ReceiveEvent) (c : Reception) result,
    receiveRun gate seen events = some c → delivered events = bytes → c.source.ending = .finished →
    c.gate.state.isStopped = false → c.phase = .returned result →
    ((∃ stats n, result = .ok (stats, n)) ↔ ∃ frames, Numbered frames ∧ bytes = encodeAll frames) ∧
    (∀ frames, CompleteFrames frames bytes → Numbered frames → ¬ Whole bytes →
      result = .error .readFailed)
  returns : ∀ (gate : MediaGate) (seen : ℕ) (events : List ReceiveEvent) (c : Reception),
    receiveRun gate seen events = some c → delivered events = bytes → c.source.ending = .finished →
    c.gate.state.isStopped = false → c.Quiescent →
    (∃ result, c.phase = .returned result) ∨
      c.step .timeout = some { c with phase := .returned (.error .readFailed) }

theorem length_le_encodeAll (frames : List WireFrame) :
    frames.length ≤ (encodeAll frames).length := by
  induction frames with
  | nil => exact Nat.le_refl 0
  | cons f frames ih =>
    rw [encodeAll_cons, List.length_append, WireFrame.encode_length, List.length_cons]
    unfold headerBytes
    omega

/-- A wrong sequence number is no matter of where the stream ends. -/
theorem Sound.not_numbered {f : WireFrame} {later : List WireFrame} {all : List WireFrame}
    (h : Sound bytes c counted (f :: later) tail) (hseq : f.seq ≠ c.expectedSeq)
    (hall : CompleteFrames all bytes) : ¬ Numbered all := by
  intro hnumbered
  have hnext := (numbered_concat.mp (hnumbered.of_prefix (hall.prefix_of h.next_on_wire))).2
  exact hseq (hnext.trans h.expected.symm)

/-- The receiver, when it has returned at the end of a stream that does not end inside a
header. -/
theorem received_end {gate : MediaGate} {seen : ℕ} {events : List ReceiveEvent}
    {result : Except ReceiveError (StreamStats × ℕ)} (hcut : ¬ CutInHeader (delivered events))
    (hrun : receiveRun gate seen events = some c) (hending : c.source.ending = .finished)
    (hopen : c.gate.state.isStopped = false) (hphase : c.phase = .returned result) :
    ((∃ stats n, result = .ok (stats, n)) ↔
      ∃ frames, Numbered frames ∧ delivered events = encodeAll frames) ∧
    (∀ frames, CompleteFrames frames (delivered events) → Numbered frames →
      ¬ Whole (delivered events) →
      result = .error .readFailed) := by
  obtain ⟨counted, rest, tail, hsound⟩ := sound_run hrun
  have htells := Tells.phase (tellsEnd_run hrun)
  have hstanding := hsound.standing
  unfold Standing at hstanding
  rw [hphase] at htells hstanding
  rw [hending] at htells
  have hnil : Incomplete [] := incomplete_of_short (by decide)
  match result, htells, hstanding with
  | .ok (stats, n), htells, ⟨_, _, hend⟩ =>
    obtain ⟨rfl, hincomplete, -⟩ : Dry c rest tail := hend.resolve_left (by rw [hopen]; decide)
    have hbytes : delivered events = encodeAll counted ++ tail := hsound.bytes_eq
    obtain ⟨frames, tail', heq, hshort⟩ := htells.resolve_left (by rw [hopen]; decide)
    obtain ⟨rfl, rfl⟩ :=
      completeFrames_unique hincomplete (incomplete_of_short hshort) (hbytes.symm.trans heq)
    rw [hbytes, cutInHeader_iff hincomplete] at hcut
    obtain rfl : tail = [] := by
      by_contra hne
      exact hcut ⟨hne, hshort⟩
    rw [List.append_nil] at hbytes
    exact ⟨iff_of_true ⟨stats, n, rfl⟩ ⟨counted, hsound.numbered, hbytes⟩,
      fun _ _ _ hwhole => absurd ⟨counted, hbytes⟩ hwhole⟩
  | .error (.discontinuity got expected), _, ⟨hexpected, hne, f, later, hrest, hgot⟩ =>
    subst hexpected hgot hrest
    refine ⟨iff_of_false (fun ⟨_, _, heq⟩ => (by cases heq)) ?_, fun frames hframes hnumbered =>
      absurd hnumbered (hsound.not_numbered hne hframes)⟩
    rintro ⟨frames, hnumbered, hbytes⟩
    exact hsound.not_numbered hne ⟨[], by rw [hbytes, List.append_nil], hnil⟩ hnumbered
  | .error .readFailed, htells, _ =>
    refine ⟨iff_of_false (fun ⟨_, _, heq⟩ => (by cases heq)) ?_, fun _ _ _ _ => rfl⟩
    rintro ⟨frames, -, hbytes⟩
    obtain ⟨frames', tail', heq, hincomplete, hlong⟩ := htells
    rw [hbytes, ← List.append_nil (encodeAll frames)] at heq
    obtain ⟨-, rfl⟩ := completeFrames_unique hnil hincomplete heq
    exact absurd hlong (by decide)

/-- The end of a stream is reported as it is, a clean end for whole frames and a failed read
otherwise, exactly if the stream does not end inside a header. -/
theorem endReported_iff (bytes : Bytes) : EndReported bytes ↔ ¬ CutInHeader bytes := by
  obtain ⟨frames, tail, hbytes, hincomplete⟩ := exists_completeFrames bytes
  have hwhole : Whole bytes ↔ tail = [] := hbytes ▸ whole_iff hincomplete
  have hcut : CutInHeader bytes ↔ tail ≠ [] ∧ tail.length < headerBytes :=
    hbytes ▸ cutInHeader_iff hincomplete
  constructor
  · intro h hin
    obtain ⟨hne, hshort⟩ := hcut.mp hin
    have hbytes_ne : bytes ≠ [] := by
      rintro rfl
      exact hne (List.append_eq_nil_iff.mp hbytes.symm).2
    have hsource : (⟨[⟨bytes, hbytes_ne⟩], .finished⟩ : Source).bytes = bytes :=
      List.append_nil bytes
    obtain ⟨kind, hkind⟩ := (h.read id _ _ hsource rfl (Nat.lt_succ_self _)).2 (mt hwhole.mp hne)
    have hlen : frames.length < bytes.length + 1 := by
      have hle := length_le_encodeAll frames
      rw [hbytes, List.length_append]
      omega
    have hread := readFrames_eq id (hsource.trans hbytes) hincomplete rfl hlen
    rw [if_pos hshort] at hread
    obtain ⟨parsed, hparsed⟩ := hread
    rw [hparsed] at hkind
    cases hkind
  · intro hnot
    refine ⟨fun clock source fuel hsource hending hfuel => ?_, ?_, ?_⟩
    · have hlen : frames.length < fuel := by
        have hle := length_le_encodeAll frames
        rw [hbytes, List.length_append] at hfuel
        omega
      have hread := readFrames_eq clock (hsource.trans hbytes) hincomplete hending hlen
      refine ⟨fun hin => ?_, fun hout => ?_⟩
      · rw [hwhole.mp hin, if_pos (by decide)] at hread
        exact hread
      · rw [if_neg fun hshort => hnot (hcut.mpr ⟨mt hwhole.mpr hout, hshort⟩)] at hread
        exact ⟨_, hread⟩
    · rintro gate seen events c result hrun rfl hending hopen hphase
      exact received_end hnot hrun hending hopen hphase
    · rintro gate seen events c hrun rfl hending hopen hquiet
      obtain ⟨counted, rest, tail, hsound⟩ := sound_run hrun
      refine (hsound.returned_or_settling hquiet hopen hending).imp id fun hsettling => ?_
      simp only [Reception.step]
      rw [if_pos ⟨hsettling, hopen⟩]

/-- Two bytes behind a whole frame. -/
theorem not_endReported_two_bytes : ¬ EndReported (sampleFrame.encode ++ [0, 0]) := by
  intro h
  have hread := h.read (fun _ => 3) ⟨[⟨sampleFrame.encode ++ [0, 0], by decide⟩],
    .finished⟩ 32 rfl rfl
    (by decide)
  have hnot : ¬ Whole (sampleFrame.encode ++ [0, 0]) := by
    rw [show sampleFrame.encode ++ [0, 0] = encodeAll [sampleFrame] ++ [0, 0] from rfl,
      whole_iff (incomplete_of_short (by decide))]
    decide
  obtain ⟨kind, hkind⟩ := hread.2 hnot
  have hclean : readFrames (fun _ => 3) 32 ⟨[⟨sampleFrame.encode ++ [0, 0], by decide⟩],
    .finished⟩ =
      some (.ok [⟨0, 16, 2, 3⟩]) := by decide +kernel
  rw [hclean] at hkind
  cases hkind

end IrohExperiment.Media
