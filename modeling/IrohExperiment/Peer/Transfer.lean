/-
# The transfer between the two sides (`worker/public/peer.js`)

What the offerer has sent is the beginning of a script, and it completes only on an
acknowledgement; the answerer acknowledges only what it completes on.

`Offering` and `Answering` are the invariants of the two roles, over the messages a side has
sent and handled.  Each is kept by every step, one lemma for each function of the source;
`Peer.Agreement` puts the two together.
-/
import IrohExperiment.Peer.Sides

namespace IrohExperiment.Peer

/-! ## The script -/

/-- The first blocks, in order. -/
def dataBlocks (n : ℕ) : List Message := (List.range n).map dataMessage

/-- What the offerer sends, with the evidence that it has. -/
def script (evidence : Option Evidence) : List Message :=
  dataBlocks blocks ++
    match evidence with
    | some _ => [completeMessage evidence, receiptMessage]
    | none => []

/-- What `complete` makes of the evidence of both sides. -/
def crossNat (localEvidence peerEvidence : Option Evidence) : Option Bool :=
  let qualifies := fun evidence : Option Evidence => evidence.any Evidence.qualifiesForCrossNat
  if qualifies localEvidence && qualifies peerEvidence then some true else none

theorem dataBlocks_succ (n : ℕ) : dataBlocks (n + 1) = dataBlocks n ++ [dataMessage n] := by
  unfold dataBlocks
  rw [List.range_succ, List.map_append, List.map_singleton]

theorem dataBlocks_begins {m n : ℕ} (h : m ≤ n) : dataBlocks m <+: dataBlocks n := by
  induction n, h using Nat.le_induction with
  | base => exact List.prefix_refl _
  | succ n hmn ih =>
    rw [dataBlocks_succ]
    exact ih.trans (List.prefix_append _ _)

theorem type_of_mem_dataBlocks {n : ℕ} {m : Message} (h : m ∈ dataBlocks n) : m.type = .data := by
  obtain ⟨index, -, rfl⟩ := List.mem_map.mp h
  rfl

theorem dataBlocks_begins_script (evidence : Option Evidence) :
    dataBlocks blocks <+: script evidence :=
  List.prefix_append _ _

/-- The script has one last word. -/
theorem countP_script_le (evidence : Option Evidence) :
    (script evidence).countP (fun m => m.type = .complete) ≤ 1 := by
  have hnone : (dataBlocks blocks).countP (fun m => m.type = .complete) = 0 := by
    refine List.countP_eq_zero.mpr fun m hm => ?_
    rw [type_of_mem_dataBlocks hm]
    decide
  unfold script
  rw [List.countP_append, hnone]
  cases evidence with
  | none => exact Nat.zero_le 1
  | some evidence => exact Nat.le_refl 1

/-- Before a last word there is no other. -/
theorem script_once {evidence : Option Evidence} {handled queue : List Message} {m : Message}
    (h : handled ++ m :: queue <+: script evidence) (hm : m.type = .complete) :
    ∀ d ∈ handled, d.type ≠ .complete := by
  intro d hd hcomplete
  have hle := (h.sublist.countP_le (p := fun m => decide (m.type = .complete))).trans
    (countP_script_le evidence)
  have hpos : 0 < handled.countP fun m => m.type = .complete :=
    List.countP_pos_iff.mpr ⟨d, hd, decide_eq_true hcomplete⟩
  rw [List.countP_append, List.countP_cons_of_pos (by exact decide_eq_true hm)] at hle
  omega

/-- A beginning of the script with a last word has every block before it. -/
theorem blocks_of_complete {evidence : Option Evidence} {l : List Message} {d : Message}
    (h : l <+: script evidence) (hd : d ∈ l) (hcomplete : d.type = .complete) :
    l.filter (fun m => m.type = .data) = dataBlocks blocks := by
  rcases List.prefix_or_prefix_of_prefix h (dataBlocks_begins_script evidence) with hl | ⟨rest, rfl⟩
  · rw [type_of_mem_dataBlocks (hl.subset hd)] at hcomplete
    cases hcomplete
  · have hblocks : (dataBlocks blocks).filter (fun m => m.type = .data) = dataBlocks blocks :=
      List.filter_eq_self.mpr fun m hm => decide_eq_true (type_of_mem_dataBlocks hm)
    have hrest : rest.filter (fun m => m.type = .data) = [] := by
      refine List.filter_eq_nil_iff.mpr fun m hm => ?_
      unfold script at h
      have hmem := ((List.prefix_append_right_inj _).mp h).subset hm
      cases evidence with
      | none => cases hmem
      | some evidence =>
        rcases List.mem_pair.mp hmem with rfl | rfl <;> exact Bool.false_ne_true
    rw [List.filter_append, hblocks, hrest, List.append_nil]

/-- The last word of the script carries the evidence. -/
theorem eq_of_complete {evidence : Option Evidence} {d : Message} (h : d ∈ script evidence)
    (hcomplete : d.type = .complete) : d = completeMessage evidence := by
  rcases List.mem_append.mp h with hd | hd
  · rw [type_of_mem_dataBlocks hd] at hcomplete
    cases hcomplete
  · cases evidence with
    | none => cases hd
    | some evidence =>
      rcases List.mem_pair.mp hd with rfl | rfl
      · rfl
      · cases hcomplete

theorem crossNat_comm (e e' : Option Evidence) : crossNat e e' = crossNat e' e := by
  unfold crossNat
  dsimp only
  rw [Bool.and_comm]

/-! ## The offerer -/

/-- The type of the message that `sendPayload` awaits. -/
def Payload.awaits : Payload → Option Kind
  | .echoing _ => some .echo
  | .acking => some .completeAck
  | _ => none

namespace Experiment

variable {x y : Experiment} {index : ℕ} {m : Message}

/-- The awaited exchange could not send its message, or it has been given up. -/
def GivenUp (x : Experiment) : Prop := ∃ message, x.reply = some (.error message)

/-- How far the offerer is in its script. -/
def Sending (x : Experiment) : Prop :=
  match x.payload with
  | .idle => x.sent = [] ∧ x.report.localEvidence = none
  | .before => x.sent = [] ∧ x.report.localEvidence = none
  | .echoing index => index < blocks ∧ x.report.localEvidence = none ∧
      (x.sent = dataBlocks (index + 1) ∨ x.sent = dataBlocks index ∧ x.GivenUp)
  | .after => x.sent = dataBlocks blocks ∧ x.report.localEvidence = none
  | .acking => x.report.localEvidence.isSome = true ∧
      (x.sent = dataBlocks blocks ++ [completeMessage x.report.localEvidence] ∨
        x.sent = dataBlocks blocks ∧ x.GivenUp)
  | .returned => x.sent <+: script x.report.localEvidence

/-- What the offerer completed on: the acknowledgement of its last word. -/
def Acknowledged (x : Experiment) (m : Message) : Prop :=
  m ∈ x.handled ∧ m.type = .completeAck ∧ completeMessage x.report.localEvidence ∈ x.sent ∧
    x.report.natTraversalSuccess = crossNat x.report.localEvidence m.evidence

/-- What holds of an offerer. -/
structure Offering (x : Experiment) : Prop where
  role : x.role = .offerer
  diagnostic : x.diagnostic = false
  handling : x.handling = none
  started : x.senderStarted = false → x.payload = .idle
  sending : x.Sending
  pending : ∀ kind, x.pending = some kind → x.reply = none ∧ x.payload.awaits = some kind
  reply : ∀ m, x.reply = some (.ok m) → m ∈ x.handled ∧ x.payload.awaits = some m.type
  done : x.done = true → x.payload = .returned ∧ ∃ m, x.Acknowledged m

theorem offering_attached : Offering (attached .offerer false) where
  role := rfl
  diagnostic := rfl
  handling := rfl
  started _ := rfl
  sending := ⟨rfl, rfl⟩
  pending _ h := by cases h
  reply _ h := by cases h
  done h := by cases h

/-- What the offerer has sent is the beginning of the script. -/
theorem Offering.sent_script (h : Offering x) : x.sent <+: script x.report.localEvidence := by
  have hs := h.sending
  unfold Sending at hs
  split at hs
  · rw [hs.1]
    exact List.nil_prefix
  · rw [hs.1]
    exact List.nil_prefix
  · obtain ⟨hindex, hlocal, hsent | ⟨hsent, -⟩⟩ := hs <;> rw [hsent]
    · exact (dataBlocks_begins hindex).trans (dataBlocks_begins_script _)
    · exact (dataBlocks_begins hindex.le).trans (dataBlocks_begins_script _)
  · rw [hs.1]
    exact dataBlocks_begins_script _
  · obtain ⟨hlocal, hsent | ⟨hsent, -⟩⟩ := hs <;> rw [hsent]
    · obtain ⟨evidence, hevidence⟩ := Option.isSome_iff_exists.mp hlocal
      rw [hevidence]
      exact ⟨[receiptMessage], List.append_assoc _ _ _⟩
    · exact dataBlocks_begins_script _
  · exact hs

/-- An exchange that is pending has sent its message. -/
theorem Offering.not_givenUp {kind : Kind} (h : Offering x) (hpending : x.pending = some kind) :
    ¬ x.GivenUp := by
  rintro ⟨message, hreply⟩
  rw [(h.pending kind hpending).1] at hreply
  cases hreply

/-- What the offerer has sent does not depend on its replies unless an exchange is given up. -/
theorem Offering.sending_of_not_givenUp (h : Offering x) (hx : ¬ x.GivenUp)
    (hpayload : y.payload = x.payload) (hsent : y.sent = x.sent)
    (hlocal : y.report.localEvidence = x.report.localEvidence) : y.Sending := by
  have hs := h.sending
  unfold Sending at hs ⊢
  rw [hpayload, hsent, hlocal]
  split at hs
  · exact hs
  · exact hs
  · exact ⟨hs.1, hs.2.1, hs.2.2.imp_right fun hgivenUp => absurd hgivenUp.2 hx⟩
  · exact hs
  · exact ⟨hs.1, hs.2.imp_right fun hgivenUp => absurd hgivenUp.2 hx⟩
  · exact hs

theorem Offering.quiet (h : Offering x) (hq : Quiet x y) : Offering y := by
  have hgivenUp : x.GivenUp → y.GivenUp := by
    intro hgiven
    rcases hq.waiting with ⟨-, hreply⟩ | ⟨-, -, hgivenUp⟩
    · unfold GivenUp
      rwa [hreply]
    · exact hgivenUp
  refine ⟨hq.role.trans h.role, hq.diagnostic.trans h.diagnostic, hq.handling.trans h.handling, ?_,
    ?_, ?_, ?_, ?_⟩
  · rw [hq.senderStarted, hq.payload]
    exact h.started
  · have hs := h.sending
    unfold Sending at hs ⊢
    rw [hq.payload, hq.sent, hq.localEvidence]
    split at hs
    · exact hs
    · exact hs
    · exact ⟨hs.1, hs.2.1, hs.2.2.imp_right (And.imp_right hgivenUp)⟩
    · exact hs
    · exact ⟨hs.1, hs.2.imp_right (And.imp_right hgivenUp)⟩
    · exact hs
  · intro kind hkind
    rw [hq.payload]
    rcases hq.waiting with ⟨hpending, hreply⟩ | ⟨-, hpending, -⟩
    · rw [hreply]
      exact h.pending kind (hpending.symm.trans hkind)
    · rw [hpending] at hkind
      cases hkind
  · intro m hm
    rw [hq.payload, hq.handled]
    rcases hq.waiting with ⟨-, hreply⟩ | ⟨-, -, message, hreply⟩
    · exact h.reply m (hreply.symm.trans hm)
    · rw [hreply] at hm
      cases hm
  · intro hdone
    obtain ⟨hpayload, m, hm⟩ := h.done (hq.done.symm.trans hdone)
    refine ⟨hq.payload.trans hpayload, m, ?_⟩
    unfold Acknowledged
    rw [hq.handled, hq.localEvidence, hq.sent, hq.natTraversalSuccess]
    exact hm

theorem Offering.throws (h : Offering x) (message stage : String) :
    Offering (x.throws message stage) :=
  h.quiet ⟨rfl, .inl ⟨rfl, rfl⟩⟩

/-- An offerer that is not in an exchange. -/
structure Between (x : Experiment) : Prop where
  role : x.role = .offerer
  diagnostic : x.diagnostic = false
  handling : x.handling = none
  free : x.pending = none
  unread : ∀ m, x.reply ≠ some (.ok m)
  live : x.done = false
  begun : x.senderStarted = true

/-- `sendPayload` gets to another place of its own. -/
theorem Between.goes (h : Between x) (payload : Payload)
    (hsending : ({ x with payload := payload } : Experiment).Sending) :
    Offering { x with payload := payload } where
  role := h.role
  diagnostic := h.diagnostic
  handling := h.handling
  started hnot := absurd h.begun (Bool.eq_false_iff.mp hnot)
  sending := hsending
  pending kind hkind := by cases h.free.symm.trans hkind
  reply m hm := absurd hm (h.unread m)
  done hdone := absurd hdone (Bool.eq_false_iff.mp h.live)

/-- `sendPayload` throws. -/
theorem Between.throws (h : Between x) (hsent : x.sent <+: script x.report.localEvidence)
    (message stage : String) :
    Offering (({ x with payload := .returned } : Experiment).throws message stage) :=
  (h.goes .returned hsent).throws message stage

/-- `sendPayload` awaits the next exchange. -/
theorem Between.exchanging {kind : Kind} (h : Between x) (hx : x.exchange kind m = some y)
    (payload : Payload) (hpayload : payload.awaits = some kind)
    (hsending : ({ y with payload := payload } : Experiment).Sending) :
    Offering { y with payload := payload } := by
  rcases exchange_cases h.free kind m with hy | hy <;>
    obtain rfl := Option.some.inj (hx.symm.trans hy)
  · refine ⟨h.role, h.diagnostic, h.handling, ?_, hsending, fun kind' hkind => ⟨rfl, ?_⟩,
      fun m' hm => ?_, ?_⟩
    · exact fun hnot => absurd h.begun (Bool.eq_false_iff.mp hnot)
    · exact hpayload.trans hkind
    · cases hm
    · exact fun hdone => absurd hdone (Bool.eq_false_iff.mp h.live)
  · refine ⟨h.role, h.diagnostic, h.handling, ?_, hsending, fun kind' hkind => ?_,
      fun m' hm => ?_, ?_⟩
    · exact fun hnot => absurd h.begun (Bool.eq_false_iff.mp hnot)
    · cases hkind
    · cases hm
    · exact fun hdone => absurd hdone (Bool.eq_false_iff.mp h.live)

/-- `sendPayload` goes on to its next block. -/
theorem Between.sendBlock (h : Between x) (hsent : x.sent = dataBlocks index)
    (hindex : index ≤ blocks) (hlocal : x.report.localEvidence = none) :
    Offering (x.sendBlock index) := by
  unfold Experiment.sendBlock
  split_ifs with hlt
  · rcases exchange_cases h.free .echo (dataMessage index) with hx | hx
    · have hsent : x.sent ++ [dataMessage index] = dataBlocks (index + 1) := by
        rw [hsent, dataBlocks_succ]
      have hoffering := h.exchanging hx (.echoing index) rfl ⟨hlt, hlocal, .inl hsent⟩
      rw [hx]
      exact hoffering
    · have hoffering := h.exchanging hx (.echoing index) rfl ⟨hlt, hlocal, .inr ⟨hsent, _, rfl⟩⟩
      rw [hx]
      exact hoffering
  · obtain rfl : index = blocks := le_antisymm hindex (not_lt.mp hlt)
    exact h.goes .after ⟨hsent, hlocal⟩

/-- `sendPayload` goes on to its first block. -/
theorem Between.sendBlocks (h : Between x) (hsent : x.sent = [])
    (hlocal : x.report.localEvidence = none) (stats : Except String Stats) :
    Offering (x.sendBlocks stats) := by
  have hbegins : x.sent <+: script x.report.localEvidence := by
    rw [hsent]
    exact List.nil_prefix
  unfold Experiment.sendBlocks
  split
  · exact h.throws hbegins _ _
  · rename_i stats
    dsimp only
    split_ifs with hended
    · refine (h.goes .returned hbegins).quiet ?_
      exact ⟨rfl, .inl ⟨rfl, rfl⟩⟩
    · set z : Experiment := { x with report.pathBefore := selectedPath stats, transferring := true }
      have hz : Between z := ⟨h.role, h.diagnostic, h.handling, h.free, h.unread, h.live, h.begun⟩
      exact hz.sendBlock hsent (Nat.zero_le _) hlocal

/-- `sendPayload` goes on to its last word. -/
theorem Between.sendComplete (h : Between x) (hsent : x.sent = dataBlocks blocks)
    (stats : Except String Stats) :
    Offering (x.sendComplete stats) := by
  have hbegins : ∀ evidence, x.sent <+: script evidence := by
    intro evidence
    rw [hsent]
    exact dataBlocks_begins_script evidence
  unfold Experiment.sendComplete
  split
  · exact h.throws (hbegins _) _ _
  · rename_i stats
    dsimp only
    split_ifs with hended
    · refine (h.goes .returned (hbegins _)).quiet ?_
      exact ⟨rfl, .inl ⟨rfl, rfl⟩⟩
    · set evidence := pathEvidence x.report.pathBefore (selectedPath stats) x.localCandidates
        x.remoteCandidates
      set z : Experiment :=
        { x with
          transferring := false
          report.pathAfter := selectedPath stats
          report.localEvidence := some evidence }
      have hz : Between z := ⟨h.role, h.diagnostic, h.handling, h.free, h.unread, h.live, h.begun⟩
      rcases exchange_cases hz.free .completeAck (completeMessage (some evidence)) with hx | hx
      · have hsending : z.sent ++ [completeMessage (some evidence)] =
            dataBlocks blocks ++ [completeMessage (some evidence)] := congrArg (· ++ _) hsent
        have hoffering := hz.exchanging hx .acking rfl ⟨rfl, .inl hsending⟩
        rw [hx]
        exact hoffering
      · have hoffering := hz.exchanging hx .acking rfl ⟨rfl, .inr ⟨hsent, _, rfl⟩⟩
        rw [hx]
        exact hoffering

theorem Offering.payloadStats {stats : Except String Stats} (h : Offering x)
    (hstep : x.payloadStats stats = some y) : Offering y := by
  have hbetween : x.payload.awaits = none → x.payload ≠ .idle → x.payload ≠ .returned →
      Between x := by
    intro hawaits hidle hreturned
    refine ⟨h.role, h.diagnostic, h.handling, ?_, ?_, ?_, ?_⟩
    · refine Option.eq_none_iff_forall_ne_some.mpr fun kind hkind => ?_
      cases hawaits.symm.trans (h.pending kind hkind).2
    · intro m hm
      cases hawaits.symm.trans (h.reply m hm).2
    · exact Bool.eq_false_iff.mpr fun hdone => hreturned (h.done hdone).1
    · by_contra hnot
      exact hidle (h.started (Bool.eq_false_iff.mpr hnot))
  have hs := h.sending
  unfold Sending at hs
  unfold Experiment.payloadStats at hstep
  split at hstep
  · rename_i hpayload
    rw [hpayload] at hs hbetween
    obtain ⟨hsent, hlocal⟩ := hs
    obtain rfl := Option.some.inj hstep
    exact (hbetween rfl Payload.noConfusion Payload.noConfusion).sendBlocks hsent hlocal stats
  · rename_i hpayload
    rw [hpayload] at hs hbetween
    obtain rfl := Option.some.inj hstep
    exact (hbetween rfl Payload.noConfusion Payload.noConfusion).sendComplete hs.1 stats
  · cases hstep

/-- The receipt is the end of the script. -/
theorem Offering.receipt (h : Offering x) (hpayload : x.payload = .returned)
    (hscript : x.sent ++ [receiptMessage] <+: script x.report.localEvidence)
    (hsend : x.send receiptMessage = some y) :
    Offering { y with closing := true } := by
  obtain ⟨-, rfl⟩ := send_eq_some.mp hsend
  refine ⟨h.role, h.diagnostic, h.handling, h.started, ?_, h.pending, h.reply, ?_⟩
  · unfold Sending
    dsimp only
    rw [hpayload]
    exact hscript
  · intro hdone
    obtain ⟨hreturned, m, hm, htype, hasked, hverdict⟩ := h.done hdone
    exact ⟨hreturned, m, hm, htype, List.mem_append_left _ hasked, hverdict⟩

/-- `sendPayload` completes. -/
theorem Between.complete (h : Between x) (hsent : x.sent <+: script x.report.localEvidence)
    (hasked : completeMessage x.report.localEvidence ∈ x.sent) (hm : m ∈ x.handled)
    (htype : m.type = .completeAck) :
    Offering (({ x with payload := .returned } : Experiment).complete m.evidence) := by
  have hreturned := h.goes .returned hsent
  unfold Experiment.complete
  split_ifs
  · exact hreturned
  · refine ⟨h.role, h.diagnostic, h.handling, hreturned.started, hsent, hreturned.pending,
      hreturned.reply, ?_⟩
    intro _
    refine ⟨rfl, m, hm, htype, hasked, ?_⟩
    dsimp only
    rw [h.diagnostic]
    rfl

theorem complete_keeps (x : Experiment) (evidence : Option Evidence) :
    (x.complete evidence).payload = x.payload ∧ (x.complete evidence).sent = x.sent ∧
      (x.complete evidence).report.localEvidence = x.report.localEvidence := by
  unfold complete
  split_ifs <;> exact ⟨rfl, rfl, rfl⟩

/-- `sendPayload` completes, and sends its receipt. -/
theorem Between.acked (h : Between x)
    (hsent : x.sent = dataBlocks blocks ++ [completeMessage x.report.localEvidence])
    (hlocal : x.report.localEvidence.isSome = true) (hm : m ∈ x.handled)
    (htype : m.type = .completeAck) :
    Offering (x.acked m) := by
  obtain ⟨evidence, hevidence⟩ := Option.isSome_iff_exists.mp hlocal
  have hscript : x.sent ++ [receiptMessage] = script x.report.localEvidence := by
    rw [hsent, hevidence]
    exact List.append_assoc _ _ _
  have hbegins : x.sent <+: script x.report.localEvidence := ⟨_, hscript⟩
  unfold Experiment.acked
  dsimp only
  split_ifs
  · exact h.throws hbegins _ _
  · have hasked : completeMessage x.report.localEvidence ∈ x.sent := by
      rw [hsent]
      exact List.mem_append_right _ List.mem_cons_self
    have hcomplete := h.complete hbegins hasked hm htype
    obtain ⟨hpayload, hsame, hevidence⟩ := complete_keeps { x with payload := .returned } m.evidence
    split
    · rename_i z hsend
      refine hcomplete.receipt hpayload ?_ hsend
      rw [hsame, hevidence]
      exact hscript ▸ List.prefix_refl _
    · exact hcomplete.throws _ _

theorem Offering.settled (h : Offering x) (hstep : x.settled = some y) : Offering y := by
  have hs := h.sending
  unfold Sending at hs
  -- once its answer is taken the offerer waits for nothing
  have hbetween : ∀ r kind, x.reply = some r → x.payload.awaits = some kind →
      Between { x with reply := none } := by
    intro r kind hr hawaits
    refine ⟨h.role, h.diagnostic, h.handling, ?_, (fun m hm => by cases hm), ?_, ?_⟩
    · refine Option.eq_none_iff_forall_ne_some.mpr fun kind hkind => ?_
      cases hr.symm.trans (h.pending kind hkind).1
    · refine Bool.eq_false_iff.mpr fun hdone => ?_
      rw [(h.done hdone).1] at hawaits
      cases hawaits
    · by_contra hnot
      rw [h.started (Bool.eq_false_iff.mpr hnot)] at hawaits
      cases hawaits
  unfold Experiment.settled at hstep
  split at hstep
  · rename_i index data hpayload hreply
    rw [hpayload] at hs
    obtain ⟨hindex, hlocal, hsent⟩ := hs
    have hx := hbetween _ .echo hreply (by rw [hpayload]; rfl)
    obtain rfl := Option.some.inj hstep
    unfold Experiment.echoed
    split_ifs
    · exact hx.throws h.sent_script _ _
    · refine hx.sendBlock ?_ hindex hlocal
      rcases hsent with hsent | ⟨-, message, herror⟩
      · exact hsent
      · cases hreply.symm.trans herror
  · rename_i data hpayload hreply
    rw [hpayload] at hs
    obtain ⟨hlocal, hsent⟩ := hs
    have hx := hbetween _ .completeAck hreply (by rw [hpayload]; rfl)
    obtain ⟨hm, hawaits⟩ := h.reply data hreply
    rw [hpayload] at hawaits
    obtain rfl := Option.some.inj hstep
    refine hx.acked ?_ hlocal hm (Option.some.inj hawaits).symm
    rcases hsent with hsent | ⟨-, message, herror⟩
    · exact hsent
    · cases hreply.symm.trans herror
  · rename_i hpayload hreply
    have hx := hbetween _ .echo hreply (by rw [hpayload]; rfl)
    obtain rfl := Option.some.inj hstep
    exact hx.throws h.sent_script _ _
  · rename_i hpayload hreply
    have hx := hbetween _ .completeAck hreply (by rw [hpayload]; rfl)
    obtain rfl := Option.some.inj hstep
    exact hx.throws h.sent_script _ _
  · cases hstep

/-! ### Its messages -/

theorem Offering.onData (h : Offering x) (hm : m ∈ x.handled) : Offering (x.onData m) := by
  have hrole : x.role ≠ .answerer := by
    rw [h.role]
    exact Role.noConfusion
  unfold Experiment.onData
  by_cases hended : x.ended = true
  · rw [if_pos hended]
    exact h
  rw [if_neg hended]
  by_cases hlength : 10000 < m.stringify.length
  · rw [if_pos hlength]
    exact h.throws _ _
  rw [if_neg hlength]
  -- the answer that is waited for is put aside until `settled`
  by_cases hpending : x.pending = some m.type
  · obtain ⟨-, hawaits⟩ := h.pending _ hpending
    rw [if_pos hpending]
    refine ⟨h.role, h.diagnostic, h.handling, h.started, ?_,
      (fun kind hkind => by cases hkind), ?_, h.done⟩
    · exact h.sending_of_not_givenUp (h.not_givenUp hpending) rfl rfl rfl
    · intro m' hm'
      obtain rfl := Except.ok.inj (Option.some.inj hm')
      exact ⟨hm, hawaits⟩
  rw [if_neg hpending]
  split
  · unfold Experiment.senderReady
    -- the transfer starts once
    split_ifs with hstarted
    · exact h.throws _ _
    · rw [not_or, Bool.not_eq_true] at hstarted
      have hidle := h.started hstarted.2
      have hs := h.sending
      unfold Sending at hs
      rw [hidle] at hs
      refine ⟨h.role, h.diagnostic, h.handling, (fun hnot => by cases hnot), hs, ?_, ?_, ?_⟩
      · intro kind hkind
        have hawaits := (h.pending kind hkind).2
        rw [hidle] at hawaits
        cases hawaits
      · intro m' hm'
        have hawaits := (h.reply m' hm').2
        rw [hidle] at hawaits
        cases hawaits
      · intro hdone
        cases hidle.symm.trans (h.done hdone).1
  -- what is left is for the answerer, or unknown
  · unfold Experiment.echoBlock
    rw [if_pos hrole]
    exact h.throws _ _
  · unfold Experiment.receiveComplete
    rw [if_pos (.inl hrole)]
    exact h.throws _ _
  · rw [if_pos (.inl hrole)]
    exact h.throws _ _
  · exact h.throws _ _
  · exact h.throws _ _

theorem Offering.handleNext (h : Offering x) (hstep : x.handleNext = some y) : Offering y := by
  unfold Experiment.handleNext at hstep
  split at hstep
  · rename_i data queue hhandling hqueue
    obtain rfl := Option.some.inj hstep
    set z : Experiment := { x with queue := queue, handled := x.handled ++ [data] }
    have hz : Offering z := by
      refine ⟨h.role, h.diagnostic, h.handling, h.started, h.sending, h.pending, ?_, ?_⟩
      · intro m hm
        obtain ⟨hmem, hawaits⟩ := h.reply m hm
        exact ⟨List.mem_append_left _ hmem, hawaits⟩
      · intro hdone
        obtain ⟨hpayload, m, hm, hrest⟩ := h.done hdone
        exact ⟨hpayload, m, List.mem_append_left _ hm, hrest⟩
    exact hz.onData (List.mem_append_right _ List.mem_cons_self)
  · cases hstep

/-- A step of an offerer leaves it one. -/
theorem Offering.step {input : Input} (h : Offering x) (hstep : x.step input = some y) :
    Offering y := by
  rcases Bool.eq_false_or_eq_true input.advances with hinput | hinput
  swap
  · exact h.quiet (step_quiet hinput hstep)
  cases input with
  | opens =>
    obtain ⟨-, rfl⟩ := History.of_guarded hstep
    unfold onOpen
    split_ifs <;>
      exact ⟨h.role, h.diagnostic, h.handling, h.started, h.sending, h.pending, h.reply, h.done⟩
  | openStats stats ice =>
    obtain ⟨-, rfl⟩ := History.of_guarded hstep
    rcases opened_cases { x with opening := false } stats ice with hq | ⟨hrole, -⟩
    · exact h.quiet (hq.before rfl rfl rfl)
    · exact Role.noConfusion (h.role.symm.trans hrole)
  | handle => exact h.handleNext hstep
  | payloadStats stats => exact h.payloadStats hstep
  | completeStats stats =>
    obtain ⟨data, hhandling, -⟩ := Option.map_eq_some_iff.mp hstep
    cases h.handling.symm.trans hhandling
  | settled => exact h.settled hstep
  | _ => cases hinput

/-! ## The answerer -/

/-- What holds of an answerer. -/
structure Answering (x : Experiment) : Prop where
  role : x.role = .answerer
  diagnostic : x.diagnostic = false
  payload : x.payload = .idle
  pending : x.pending = none
  handling : ∀ d, x.handling = some d → x.done = false ∧ d ∈ x.handled ∧ d.type = .complete ∧
    x.received = blocks
  acks : ∀ m ∈ x.sent, m.type = .completeAck → x.done = true ∧ m = ackMessage x.report.localEvidence
  done : x.done = true → x.handling = none ∧ x.received = blocks ∧
    ∃ d ∈ x.handled, d.type = .complete ∧
      x.report.natTraversalSuccess = crossNat x.report.localEvidence d.evidence

theorem answering_attached : Answering (attached .answerer false) where
  role := rfl
  diagnostic := rfl
  payload := rfl
  pending := rfl
  handling _ h := by cases h
  acks _ h := by cases h
  done h := by cases h

theorem Answering.quiet (h : Answering x) (hq : Quiet x y) : Answering y := by
  refine ⟨hq.role.trans h.role, hq.diagnostic.trans h.diagnostic, hq.payload.trans h.payload,
    ?_, ?_, ?_, ?_⟩
  · rcases hq.waiting with ⟨hpending, -⟩ | ⟨hpending, -⟩
    · exact hpending.trans h.pending
    · rw [h.pending] at hpending
      cases hpending
  · rw [hq.handling, hq.done, hq.handled, hq.received]
    exact h.handling
  · rw [hq.sent, hq.done, hq.localEvidence]
    exact h.acks
  · rw [hq.done, hq.handling, hq.received, hq.handled, hq.natTraversalSuccess, hq.localEvidence]
    exact h.done

theorem Answering.throws (h : Answering x) (message stage : String) :
    Answering (x.throws message stage) :=
  h.quiet ⟨rfl, .inl ⟨rfl, rfl⟩⟩

/-- The answerer sends something else than an acknowledgement. -/
theorem Answering.sends (h : Answering x) (hm : m.type ≠ .completeAck) :
    Answering { x with sent := x.sent ++ [m] } := by
  refine ⟨h.role, h.diagnostic, h.payload, h.pending, h.handling, fun m' hm' htype => ?_, h.done⟩
  rcases List.mem_append.mp hm' with hm' | hm'
  · exact h.acks m' hm' htype
  · rw [List.mem_singleton.mp hm'] at htype
    exact absurd htype hm

theorem Answering.echoBlock (h : Answering x) (hhandling : x.handling = none) (data : Message) :
    Answering (x.echoBlock data) := by
  unfold Experiment.echoBlock
  dsimp only
  split_ifs with hrole hmatch
  · exact h.throws _ _
  · refine h.quiet ?_
    exact ⟨rfl, .inl ⟨rfl, rfl⟩⟩
  · rw [not_or, not_or] at hmatch
    set z : Experiment := { x with transferring := true, received := x.received + 1 }
    have hz : Answering z := by
      refine ⟨h.role, h.diagnostic, h.payload, h.pending, fun d hd => ?_, h.acks, fun hdone => ?_⟩
      · cases hhandling.symm.trans hd
      · exact absurd (h.done hdone).2.1.ge hmatch.2.1
    split
    · rename_i y hsend
      obtain ⟨-, rfl⟩ := send_eq_some.mp hsend
      exact hz.sends Kind.noConfusion
    · exact hz.throws _ _

theorem Answering.onData (h : Answering x) (hhandling : x.handling = none) (hm : m ∈ x.handled)
    (hlive : m.type = .complete → x.done = false) : Answering (x.onData m) := by
  unfold Experiment.onData
  by_cases hended : x.ended = true
  · rw [if_pos hended]
    exact h
  rw [if_neg hended]
  by_cases hlength : 10000 < m.stringify.length
  · rw [if_pos hlength]
    exact h.throws _ _
  rw [if_neg hlength]
  have hpending : x.pending ≠ some m.type := by
    rw [h.pending]
    exact (Option.some_ne_none _).symm
  rw [if_neg hpending]
  split
  · unfold Experiment.senderReady
    have hrole : x.role ≠ .offerer ∨ x.senderStarted = true := by
      rw [h.role]
      exact .inl Role.noConfusion
    rw [if_pos hrole]
    exact h.throws _ _
  · exact h.echoBlock hhandling m
  · rename_i hcomplete
    unfold Experiment.receiveComplete
    split_ifs with hcheck
    · exact h.throws _ _
    · rw [not_or, not_or, not_not, not_not] at hcheck
      refine ⟨h.role, h.diagnostic, h.payload, h.pending, fun d hd => ?_, h.acks, fun hdone => ?_⟩
      · obtain rfl := Option.some.inj hd
        exact ⟨hlive hcomplete, hm, hcomplete, hcheck.2.1⟩
      · exact absurd hdone (Bool.eq_false_iff.mp (hlive hcomplete))
  · split_ifs
    · exact h.throws _ _
    · exact h.quiet (quiet_cleanup x)
  · exact h.throws _ _
  · exact h.throws _ _

/-- What waits for the answerer is no second last word. -/
theorem Answering.handleNext (h : Answering x)
    (hqueue : ∀ m queue, x.queue = m :: queue → m.type = .complete →
      ∀ d ∈ x.handled, d.type ≠ .complete)
    (hstep : x.handleNext = some y) : Answering y := by
  unfold Experiment.handleNext at hstep
  split at hstep
  · rename_i data queue hhandling hhead
    obtain rfl := Option.some.inj hstep
    set z : Experiment := { x with queue := queue, handled := x.handled ++ [data] }
    have hz : Answering z := by
      refine ⟨h.role, h.diagnostic, h.payload, h.pending, fun d hd => ?_, h.acks, fun hdone => ?_⟩
      · cases hhandling.symm.trans hd
      · obtain ⟨hnone, hreceived, d, hd, hrest⟩ := h.done hdone
        exact ⟨hnone, hreceived, d, List.mem_append_left _ hd, hrest⟩
    refine hz.onData hhandling (List.mem_append_right _ List.mem_cons_self) fun hcomplete => ?_
    refine Bool.eq_false_iff.mpr fun hdone => ?_
    obtain ⟨-, -, d, hd, htype, -⟩ := h.done hdone
    exact hqueue data queue hhead hcomplete d hd htype
  · cases hstep

/-- The answerer acknowledges what it completes on, in one step. -/
theorem Answering.sendAck {data : Message} {stats : Except String Stats} (h : Answering x)
    (hhandling : x.handling = some data) :
    Answering (({ x with handling := none } : Experiment).sendAck data stats) := by
  obtain ⟨hlive, hmem, htype, hreceived⟩ := h.handling data hhandling
  have hnot : ¬ x.done = true := Bool.eq_false_iff.mp hlive
  have hnone : Answering { x with handling := none } :=
    ⟨h.role, h.diagnostic, h.payload, h.pending, (fun d hd => by cases hd), h.acks,
      fun hdone => absurd hdone hnot⟩
  unfold Experiment.sendAck
  split
  · exact hnone.throws _ _
  · rename_i stats
    dsimp only
    split_ifs with hended
    · refine hnone.quiet ?_
      exact ⟨rfl, .inl ⟨rfl, rfl⟩⟩
    · have hold : ∀ m ∈ x.sent, m.type ≠ .completeAck := fun m hm hack => hnot (h.acks m hm hack).1
      split
      · rename_i z hsend
        obtain ⟨-, rfl⟩ := send_eq_some.mp hsend
        unfold Experiment.complete
        rw [if_neg hended]
        refine ⟨h.role, h.diagnostic, h.payload, h.pending, (fun d hd => by cases hd),
          fun m hm hack => ⟨rfl, ?_⟩, ?_⟩
        · rcases List.mem_append.mp hm with hm | hm
          · exact absurd hack (hold m hm)
          · exact List.mem_singleton.mp hm
        · refine fun _ => ⟨rfl, hreceived, data, hmem, htype, ?_⟩
          dsimp only
          rw [h.diagnostic]
          rfl
      · refine ⟨h.role, h.diagnostic, h.payload, h.pending, (fun d hd => by cases hd),
          fun m hm hack => ?_, ?_⟩
        · exact absurd hack (hold m hm)
        · exact fun hdone => absurd hdone hnot

/-- A step of an answerer leaves it one. -/
theorem Answering.step {input : Input} (h : Answering x)
    (hqueue : ∀ m queue, x.queue = m :: queue → m.type = .complete →
      ∀ d ∈ x.handled, d.type ≠ .complete)
    (hstep : x.step input = some y) : Answering y := by
  rcases Bool.eq_false_or_eq_true input.advances with hinput | hinput
  swap
  · exact h.quiet (step_quiet hinput hstep)
  cases input with
  | opens =>
    obtain ⟨-, rfl⟩ := History.of_guarded hstep
    unfold onOpen
    split_ifs <;> exact ⟨h.role, h.diagnostic, h.payload, h.pending, h.handling, h.acks, h.done⟩
  | openStats stats ice =>
    obtain ⟨-, rfl⟩ := History.of_guarded hstep
    rcases opened_cases { x with opening := false } stats ice with hq | ⟨-, z, hq, -, hz⟩
    · exact h.quiet (hq.before rfl rfl rfl)
    · have hquiet := h.quiet (hq.before rfl rfl rfl)
      rw [hz]
      exact hquiet.sends Kind.noConfusion
  | handle => exact h.handleNext hqueue hstep
  | payloadStats stats =>
    unfold Experiment.step Experiment.payloadStats at hstep
    rw [h.payload] at hstep
    cases hstep
  | completeStats stats =>
    obtain ⟨data, hhandling, rfl⟩ := Option.map_eq_some_iff.mp hstep
    exact h.sendAck hhandling
  | settled =>
    unfold Experiment.step Experiment.settled at hstep
    rw [h.payload] at hstep
    cases hstep
  | _ => cases hinput

end Experiment

end IrohExperiment.Peer
