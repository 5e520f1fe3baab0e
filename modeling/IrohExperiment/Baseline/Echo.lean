/-
# The baseline echo, end to end (`baseline/src/bin/dialer.rs`, `acceptor.rs`)

The dialer and the acceptor joined by a pair of streams: in every interleaving the payload is
echoed as it was sent, and the two result rows of one run can be paired.

`Echo` joins the invariants of the two programs over streams in order.  From it follow that
no comparison fails (`Echo.no_mismatch`), that no header is too long, what either side may
have counted (`Echo.verified`, `Echo.complete`), and who ends a stream early
(`Echo.ended_early`).
-/
import IrohExperiment.Baseline.Acceptor
import IrohExperiment.Results.Row

namespace IrohExperiment.Baseline

open Rust History Results

/-! ## The joined system -/

/-- A run of both programs. -/
def echoRun (runId : Text) (payload : Bytes) (window : ℕ)
    (events : List (Move DialEvent ⊕ Move AcceptEvent)) : Option (Joined Dialer Acceptor) :=
  run (Joined.step (dialParty (wire runId payload)) (acceptParty payload.length) window)
    (Joined.start .start .start) events

/-- What holds of both programs. -/
structure Echo (runId : Text) (payload : Bytes) (c : Joined Dialer Acceptor) : Prop where
  dials : Dials (wire runId payload) c.left
  echoes : Echoes payload.length c.right
  back : InOrder c.left.link c.right.state.sent c.right.state.writer
  forward : InOrder c.right.link c.left.state.sent c.left.state.writer

variable {runId : Text} {payload : Bytes} {window total : ℕ}
  {events : List (Move DialEvent ⊕ Move AcceptEvent)} {c : Joined Dialer Acceptor}

theorem echo_run (hrun : echoRun runId payload window events = some c) : Echo runId payload c := by
  obtain ⟨⟨lefts, hleft⟩, rights, hright⟩ := parties_run hrun
  obtain ⟨hback, hforward⟩ :=
    inOrder_run (dialParty_lawful (wire runId payload)) (acceptParty_lawful payload.length) hrun
  exact ⟨dials_run hleft, echoes_run hright, hback, hforward⟩

theorem wire_length (runId : Text) (payload : Bytes) :
    (wire runId payload).length = (runHeader runId).length + payload.length :=
  List.length_append

theorem runHeader_length (runId : Text) : (runHeader runId).length = 4 + (utf8 runId).length := by
  unfold runHeader
  rw [List.length_append, toLe32_length]

/-- A header that the wire begins with is the dialer's, and spells its run id. -/
theorem runHeader_unique {lenBuf idBuf : Bytes} (hid : (utf8 runId).length ≤ runIdMaxBytes)
    (hfront : lenBuf ++ idBuf <+: wire runId payload) (hfour : lenBuf.length = 4)
    (hlen : fromLe32 lenBuf = idBuf.length) :
    lenBuf ++ idBuf = runHeader runId ∧ fromUtf8Lossy idBuf = runId := by
  have hsmall : (utf8 runId).length < 2 ^ 32 := by
    unfold runIdMaxBytes at hid
    omega
  unfold wire runHeader at hfront
  obtain ⟨rest, hrest⟩ := hfront
  rw [List.append_assoc, List.append_assoc] at hrest
  obtain ⟨rfl, htail⟩ := List.append_inj hrest (by rw [hfour, toLe32_length])
  rw [fromLe32_toLe32 hsmall] at hlen
  obtain ⟨rfl, -⟩ := List.append_inj htail hlen.symm
  exact ⟨rfl, fromUtf8Lossy_utf8 runId⟩

/-! ## What the acceptor has counted -/

/-- The acceptor has nothing, or has recorded the id under a header and counted what it has
echoed behind it, up to the chunk under way. -/
theorem Echoes.counted {a : Attached Acceptor} (h : Echoes total a) :
    Mute a ∨ ∃ header, Under a header ∧
      a.state.sent.length ≤ header.length + a.state.echoed + chunkBytes ∧
      (a.state.echoed = 0 ∨ header.length + a.state.echoed ≤ a.state.sent.length) := by
  obtain ⟨hending, hstands⟩ := h
  obtain ⟨⟨src, sent, broken, runId, echoed, phase⟩, incoming⟩ := a
  -- where no chunk is under way the count is exact
  have hlevel : ∀ header, Level ⟨⟨src, sent, broken, runId, echoed, phase⟩, incoming⟩ header →
      sent.length ≤ header.length + echoed + chunkBytes ∧
        (echoed = 0 ∨ header.length + echoed ≤ sent.length) := by
    intro header hlevel
    have : sent.length = header.length + echoed := hlevel
    exact ⟨by omega, .inr (by omega)⟩
  cases phase with
  | accepting | readingLength => exact .inl hstands.1
  | readingId lenBuf => exact .inl hstands.1
  | echoingHeader remaining =>
    obtain ⟨header, hu, -, hall, hechoed, -⟩ := hstands
    refine .inr ⟨header, hu, ?_, .inl hechoed⟩
    have : sent ++ remaining = header := hall
    show sent.length ≤ header.length + echoed + chunkBytes
    rw [← this, List.length_append]
    omega
  | reading =>
    obtain ⟨header, hu, hl, -⟩ := hstands
    exact .inr ⟨header, hu, hlevel header hl⟩
  -- a chunk that is under way is sent in part and not yet counted
  | writing remaining n =>
    obtain ⟨header, hu, -, hcount, hle, hchunk, -⟩ := hstands
    have : sent.length + remaining.length = header.length + echoed + n := hcount
    refine .inr ⟨header, hu, ?_, .inr ?_⟩
    · show sent.length ≤ header.length + echoed + chunkBytes
      omega
    · show header.length + echoed ≤ sent.length
      omega
  | finishing =>
    obtain ⟨header, hu, hl, -⟩ := hstands
    exact .inr ⟨header, hu, hlevel header hl⟩
  | done failure =>
    cases failure with
    | none =>
      obtain ⟨header, hu, hl, -⟩ := hstands
      exact .inr ⟨header, hu, hlevel header hl⟩
    | some failure =>
      cases failure with
      | acceptBi | headerRead => exact .inl hstands
      | headerTooLong length => exact .inl hstands.1
      | headerEcho error =>
        obtain ⟨header, hu, hechoed, hlt⟩ := hstands
        have : sent.length < header.length := hlt
        refine .inr ⟨header, hu, ?_, .inl hechoed⟩
        show sent.length ≤ header.length + echoed + chunkBytes
        omega
      | read | endedEarly | finish =>
        obtain ⟨header, hu, hl, -⟩ := hstands
        exact .inr ⟨header, hu, hlevel header hl⟩
      | echoWrite error =>
        obtain ⟨header, hu, hle, hchunk, -⟩ := hstands
        exact .inr ⟨header, hu, hchunk, .inr hle⟩

/-- Once all of a payload has been echoed behind the header, the loop is over. -/
theorem Echoes.complete {a : Attached Acceptor} (h : Echoes total a) {header : Bytes}
    (hheader : ∀ header', Under a header' → header' = header)
    (hsent : a.state.sent.length = header.length + total) (hpos : 0 < header.length)
    (hbrought : a.link.brought.length ≤ header.length + total) :
    a.state.echoed = total ∧ a.state.runId ≠ none ∧
      (a.state.phase = .reading ∨ a.state.phase = .finishing ∨ a.state.phase = .done none ∨
        ∃ error, a.state.phase = .done (some (.finish error))) := by
  obtain ⟨hending, hstands⟩ := h
  obtain ⟨⟨src, sent, broken, runId, echoed, phase⟩, incoming⟩ := a
  -- who has sent the header is not mute
  have hmute : ¬ Mute ⟨⟨src, sent, broken, runId, echoed, phase⟩, incoming⟩ := by
    intro hm
    have hnil : sent = [] := hm.sent
    have hlen : sent.length = header.length + total := hsent
    rw [hnil, List.length_nil] at hlen
    omega
  have hsent : sent.length = header.length + total := hsent
  have hbrought : incoming.brought.length ≤ header.length + total := hbrought
  have hdone : ∀ header', Under ⟨⟨src, sent, broken, runId, echoed, phase⟩, incoming⟩ header' →
      sent.length = header'.length + echoed → echoed = total ∧ runId ≠ none := by
    intro header' hu hlevel
    obtain rfl := hheader header' hu
    obtain ⟨lenBuf, idBuf, -, -, -, hname⟩ := hu.named
    have hname : runId = _ := hname
    exact ⟨by omega, by rw [hname]; exact Option.some_ne_none _⟩
  cases phase with
  | accepting | readingLength => exact absurd hstands.1 hmute
  | readingId lenBuf => exact absurd hstands.1 hmute
  -- bytes that are still to be sent are missing from the count
  | echoingHeader remaining =>
    obtain ⟨header', hu, hsome, hall, -⟩ := hstands
    obtain rfl := hheader header' hu
    have hlen := congrArg List.length (show sent ++ remaining = header' from hall)
    have := List.length_pos_iff.mpr hsome
    rw [List.length_append] at hlen
    omega
  | reading =>
    obtain ⟨header', hu, hl, -⟩ := hstands
    obtain ⟨hechoed, hname⟩ := hdone header' hu hl
    exact ⟨hechoed, hname, .inl rfl⟩
  | writing remaining n =>
    obtain ⟨header', hu, hsome, -, -, -, hall⟩ := hstands
    have hlen := congrArg List.length
      (show incoming.brought = sent ++ (remaining ++ src.bytes) from hall)
    have := List.length_pos_iff.mpr hsome
    rw [List.length_append, List.length_append] at hlen
    omega
  | finishing =>
    obtain ⟨header', hu, hl, -⟩ := hstands
    obtain ⟨hechoed, hname⟩ := hdone header' hu hl
    exact ⟨hechoed, hname, .inr (.inl rfl)⟩
  | done failure =>
    cases failure with
    | none =>
      obtain ⟨header', hu, hl, -⟩ := hstands
      obtain ⟨hechoed, hname⟩ := hdone header' hu hl
      exact ⟨hechoed, hname, .inr (.inr (.inl rfl))⟩
    | some failure =>
      cases failure with
      | acceptBi | headerRead => exact absurd hstands hmute
      | headerTooLong length => exact absurd hstands.1 hmute
      -- a failure before the last byte leaves the count short, too
      | headerEcho error =>
        obtain ⟨header', hu, -, hlt⟩ := hstands
        obtain rfl := hheader header' hu
        have hlt : sent.length < header'.length := hlt
        omega
      | read error =>
        obtain ⟨header', hu, hl, hshort⟩ := hstands
        exact absurd (hdone header' hu hl).1 (Nat.ne_of_lt hshort)
      | endedEarly =>
        obtain ⟨header', hu, hl, hshort, -⟩ := hstands
        exact absurd (hdone header' hu hl).1 (Nat.ne_of_lt hshort)
      | echoWrite error =>
        obtain ⟨header', hu, -, -, hlt⟩ := hstands
        have hlt : sent.length < incoming.brought.length := hlt
        omega
      | finish error =>
        obtain ⟨header', hu, hl, -⟩ := hstands
        obtain ⟨hechoed, hname⟩ := hdone header' hu hl
        exact ⟨hechoed, hname, .inr (.inr (.inr ⟨error, rfl⟩))⟩

/-! ## What holds in every interleaving -/

/-- What the acceptor sends back is what the dialer sends out. -/
theorem Echo.answer (h : Echo runId payload c) :
    c.right.state.sent <+: wire runId payload ∧ c.right.link.brought <+: wire runId payload := by
  have hbrought := h.forward.brought.trans h.dials.front
  refine ⟨?_, hbrought⟩
  rcases h.echoes.counted with hmute | ⟨header, hu, -⟩
  · rw [hmute.sent]
    exact List.nil_prefix
  · exact hu.sent.trans hbrought

/-- A header under which the acceptor has recorded an id is the dialer's. -/
theorem Echo.header (h : Echo runId payload c) (hid : (utf8 runId).length ≤ runIdMaxBytes)
    {header : Bytes} (hu : Under c.right header) :
    header = runHeader runId ∧ c.right.state.runId = some runId := by
  obtain ⟨lenBuf, idBuf, rfl, hfour, hlen, hname⟩ := hu.named
  obtain ⟨heq, htext⟩ := runHeader_unique hid (hu.front.trans h.answer.2) hfour hlen
  exact ⟨heq, by rw [hname, htext]⟩

/-- No answer of the acceptor is a mismatch. -/
theorem Echo.no_mismatch (h : Echo runId payload c) (offset : ℕ) :
    c.left.state.phase ≠ .done (some (.echoMismatch offset)) := fun hphase =>
  h.dials.mismatch offset hphase (h.back.brought.trans h.answer.1)

/-- No header of the dialer is too long. -/
theorem Echo.no_long_header (h : Echo runId payload c) (hid : (utf8 runId).length ≤ runIdMaxBytes)
    (length : ℕ) : c.right.state.phase ≠ .done (some (.headerTooLong length)) := by
  intro hphase
  have hstands := h.echoes.stands
  unfold Stands at hstands
  rw [hphase] at hstands
  obtain ⟨-, hlong, lenBuf, hfront, hfour, hlen⟩ := hstands
  obtain ⟨rest, hrest⟩ := hfront.trans h.answer.2
  unfold wire runHeader at hrest
  rw [List.append_assoc] at hrest
  obtain ⟨rfl, -⟩ := List.append_inj hrest (by rw [hfour, toLe32_length])
  unfold runIdMaxBytes at hid hlong
  rw [fromLe32_toLe32 (by omega)] at hlen
  omega

/-- What the dialer has verified has been echoed. -/
theorem Echo.verified (h : Echo runId payload c) :
    c.left.state.echoed ≤ c.right.state.sent.length := by
  obtain ⟨hle, hfront⟩ := h.dials.verified
  have := (hfront.trans h.back.brought).length_le
  rw [List.length_take, Nat.min_eq_left hle] at this
  exact this

/-- Once the dialer has verified the whole wire, the acceptor has counted the whole payload. -/
theorem Echo.complete (h : Echo runId payload c) (hid : (utf8 runId).length ≤ runIdMaxBytes)
    (hsent : (wire runId payload).length ≤ c.right.state.sent.length) :
    c.right.state.sent = wire runId payload ∧ c.right.state.echoed = payload.length ∧
      c.right.state.runId = some runId ∧
      (c.right.state.phase = .reading ∨ c.right.state.phase = .finishing ∨
        c.right.state.phase = .done none ∨
        ∃ error, c.right.state.phase = .done (some (.finish error))) := by
  obtain ⟨hanswer, hbrought⟩ := h.answer
  have hall := hanswer.eq_of_length (Nat.le_antisymm hanswer.length_le hsent)
  have hlen := congrArg List.length hall
  rw [wire_length] at hlen
  obtain ⟨hechoed, hname, hphase⟩ := h.echoes.complete (fun header hu => (h.header hid hu).1) hlen
    (by rw [runHeader_length]; omega) (by rw [← wire_length]; exact hbrought.length_le)
  refine ⟨hall, hechoed, ?_, hphase⟩
  rcases h.echoes.counted with hmute | ⟨header, hu, -⟩
  · exact absurd hmute.runId hname
  · exact (h.header hid hu).2

/-- What the acceptor has counted once its loop is over. -/
theorem Echo.over (h : Echo runId payload c) (hid : (utf8 runId).length ≤ runIdMaxBytes)
    (hphase : c.right.state.phase = .done none) :
    (wire runId payload).length ≤ c.right.state.sent.length := by
  have hstands := h.echoes.stands
  unfold Stands at hstands
  rw [hphase] at hstands
  obtain ⟨header, hu, hlevel, henough⟩ := hstands
  obtain rfl := (h.header hid hu).1
  unfold Level at hlevel
  rw [wire_length]
  omega

/-- The acceptor's stream only ends early if the dialer has failed. -/
theorem Echo.ended_early (h : Echo runId payload c) (hid : (utf8 runId).length ≤ runIdMaxBytes)
    (hphase : c.right.state.phase = .done (some .endedEarly)) :
    ∃ failure, c.left.state.phase = .done (some failure) := by
  have hstands := h.echoes.stands
  unfold Stands at hstands
  rw [hphase] at hstands
  obtain ⟨header, hu, hlevel, hshort, hfinished, hbrought⟩ := hstands
  obtain rfl := (h.header hid hu).1
  obtain ⟨hwriter, hall⟩ := h.forward.finished hfinished
  have hsent : c.left.state.sent ≠ wire runId payload := by
    intro heq
    have hlen := congrArg List.length (hbrought.symm.trans (hall.trans heq))
    unfold Level at hlevel
    rw [wire_length, hlevel] at hlen
    omega
  have hwriter : c.left.state.writer = .finished := hwriter
  unfold Dialer.writer at hwriter
  cases htask : c.left.state.task with
  | unspawned | writing | failed => simp [htask] at hwriter
  | finished => exact absurd (h.dials.finished htask) hsent
  | aborted => exact h.dials.aborted htask

end IrohExperiment.Baseline
