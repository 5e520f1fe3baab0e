/-
# An undisturbed transfer (`worker/public/peer.js`)

Every message is short enough to be taken, and when nothing goes wrong both sides complete,
whatever their snapshots show.

The run is built step by step from the front of the script, block by block (`run_blocks`),
up to the last acknowledgement.  `undisturbed_completes` is its end; so what
`Peer.Agreement` says of complete sides is said of sides that there are.
-/
import IrohExperiment.Peer.World

namespace IrohExperiment.Peer

open History

/-! ## Short messages -/

theorem length_property (name value : String) :
    (property name value).length = name.length + value.length + 3 := by
  have hquote : "\"".length = 1 := rfl
  have hcolon : "\":".length = 2 := rfl
  unfold property
  rw [String.length_append, String.length_append, String.length_append, hquote, hcolon]
  omega

theorem length_commas_le (properties : List String) :
    (commas properties).length ≤ (properties.map fun p => p.length + 1).sum := by
  have hcomma : ",".length = 1 := rfl
  fun_induction commas properties with
  | case1 => exact Nat.le_refl 0
  | case2 p =>
    rw [List.map_singleton, List.sum_singleton]
    omega
  | case3 p ps hps ih =>
    rw [String.length_append, String.length_append, hcomma, List.map_cons, List.sum_cons]
    omega

theorem length_object_le (properties : List String) :
    (object properties).length ≤ 2 + (properties.map fun p => p.length + 1).sum := by
  have hopen : "\x7b".length = 1 := rfl
  have hclose : "\x7d".length = 1 := rfl
  have hcommas := length_commas_le properties
  unfold object
  rw [String.length_append, String.length_append, hopen, hclose]
  omega

theorem length_bodyFor (index : ℕ) : (bodyFor index).length = 8192 := by
  unfold bodyFor chunk
  rw [String.length_ofList, List.length_replicate]

/-- An index of the transfer has one digit. -/
theorem length_index {index : ℕ} (h : index < blocks) : (toString index).length = 1 := by
  unfold blocks at h
  interval_cases index <;> rfl

theorem length_bool_le (b : Bool) : (toString b).length ≤ 5 := by
  cases b <;> decide

theorem length_evidence_le (evidence : Evidence) : evidence.stringify.length ≤ 200 := by
  refine (length_object_le _).trans ?_
  simp only [List.map_cons, List.map_nil, List.sum_cons, List.sum_nil, length_property]
  have h1 := length_bool_le evidence.selectedPublicIpv4Path
  have h2 := length_bool_le evidence.differentStunPublicIps
  have h3 := length_bool_le evidence.selectedPairStable
  have h4 := length_bool_le evidence.qualifiesForCrossNat
  have e1 : "selected_public_ipv4_path".length = 25 := rfl
  have e2 : "different_stun_public_ips".length = 25 := rfl
  have e3 : "selected_pair_stable".length = 20 := rfl
  have e4 : "qualifies_for_cross_nat".length = 23 := rfl
  omega

theorem length_quoted (text : String) : ("\"" ++ text ++ "\"").length = text.length + 2 := by
  have hquote : "\"".length = 1 := rfl
  rw [String.length_append, String.length_append, hquote]
  omega

theorem length_name_le (kind : Kind) : kind.name.length ≤ 12 := by
  cases kind <;> decide

/-- A block, or its echo, is short enough. -/
theorem length_block_le (kind : Kind) {index : ℕ} (h : index < blocks) :
    ({ type := kind, index := index, body := bodyFor index } : Message).stringify.length ≤
      10000 := by
  refine (length_object_le _).trans ?_
  have hname := length_name_le kind
  have htype : "type".length = 4 := rfl
  have hindex : "index".length = 5 := rfl
  have hbody : "body".length = 4 := rfl
  simp only [Option.map_some, Option.map_none, Option.toList_some, Option.toList_none,
    List.append_nil, List.cons_append, List.nil_append, List.map_cons, List.map_nil, List.sum_cons,
    List.sum_nil, length_property, length_quoted, length_index h, length_bodyFor]
  rw [htype, hindex, hbody]
  omega

/-- A last word, or its acknowledgement, is short enough. -/
theorem length_last_le (kind : Kind) (evidence : Evidence) :
    ({ type := kind, bytes := chunk * blocks, evidence := evidence } : Message).stringify.length ≤
      10000 := by
  refine (length_object_le _).trans ?_
  have hname := length_name_le kind
  have hevidence := length_evidence_le evidence
  have htype : "type".length = 4 := rfl
  have hbytes : "bytes".length = 5 := rfl
  have hlabel : "evidence".length = 8 := rfl
  have hnumber : (toString (chunk * blocks)).length = 5 := rfl
  simp only [Option.map_some, Option.map_none, Option.toList_some, Option.toList_none,
    List.append_nil, List.cons_append, List.nil_append, List.map_cons, List.map_nil, List.sum_cons,
    List.sum_nil, length_property, length_quoted, hnumber]
  omega

/-! ## One side, undisturbed -/

/-- The echoes of the first blocks. -/
def echoes (n : ℕ) : List Message := (dataBlocks n).map echoMessage

theorem echoes_succ (n : ℕ) : echoes (n + 1) = echoes n ++ [echoMessage (dataMessage n)] := by
  unfold echoes
  rw [dataBlocks_succ, List.map_append, List.map_singleton]

namespace Experiment

variable {x y : Experiment} {n : ℕ} {m : Message}

/-- Nothing has gone wrong on this side, and every message that has arrived is handled. -/
structure Calm (x : Experiment) : Prop where
  ended : x.ended = false
  readyState : x.readyState = .opened
  full : x.full = false
  handling : x.handling = none
  queue : x.queue = []

/-- The answerer has echoed some blocks. -/
structure Serving (x : Experiment) (n : ℕ) : Prop extends Calm x where
  role : x.role = .answerer
  pending : x.pending = none
  received : x.received = n
  handled : x.handled = dataBlocks n
  sent : x.sent = readyMessage :: echoes n

/-- The offerer has had the echoes of some blocks. -/
structure Supplied (x : Experiment) (n : ℕ) : Prop extends Calm x where
  role : x.role = .offerer
  handled : x.handled = readyMessage :: echoes n

/-- The offerer awaits the echo of its next block. -/
structure Awaiting (x : Experiment) (n : ℕ) : Prop extends Supplied x n where
  payload : x.payload = .echoing n
  pending : x.pending = some .echo
  sent : x.sent = dataBlocks (n + 1)

/-- The offerer has had the echoes of all blocks, and awaits its second snapshot. -/
structure Finished (x : Experiment) : Prop extends Supplied x blocks where
  payload : x.payload = .after
  pending : x.pending = none
  sent : x.sent = dataBlocks blocks

/-- The offerer awaits the acknowledgement of its last word. -/
structure Asking (x : Experiment) (evidence : Evidence) : Prop extends Supplied x blocks where
  payload : x.payload = .acking
  pending : x.pending = some .completeAck
  sent : x.sent = dataBlocks blocks ++ [completeMessage (some evidence)]

theorem Calm.send (h : Calm x) (m : Message) :
    x.send m = some { x with sent := x.sent ++ [m] } := by
  unfold Experiment.send
  rw [if_pos ⟨h.readyState, h.full⟩]

theorem Calm.exchange (h : Calm x) (hpending : x.pending = none) (kind : Kind) (m : Message) :
    x.exchange kind m = some {
      x with pending := some kind, reply := none, sent := x.sent ++ [m] } := by
  have hfree : ¬ x.pending.isSome = true := by
    rw [hpending]
    exact Bool.false_ne_true
  have hcalm : Calm { x with pending := some kind, reply := none } :=
    ⟨h.ended, h.readyState, h.full, h.handling, h.queue⟩
  unfold Experiment.exchange
  rw [if_neg hfree]
  dsimp only
  rw [hcalm.send]

theorem Calm.handle (h : Calm x) (m : Message) :
    ({ x with queue := x.queue ++ [m] } : Experiment).step .handle =
      some (({ x with handled := x.handled ++ [m] } : Experiment).onData m) := by
  unfold step handleNext
  dsimp only
  rw [h.queue, h.handling]
  rfl

/-- A short message that is not awaited. -/
theorem onData_of_free (hended : x.ended = false) (hlength : m.stringify.length ≤ 10000)
    (hpending : x.pending ≠ some m.type) : x.onData m =
      match m.type with
      | .ready => x.senderReady
      | .data => x.echoBlock m
      | .complete => x.receiveComplete m
      | .receipt =>
        if x.role ≠ .answerer ∨ x.done = false then x.throws "確認順序が不正です。" "echo" else x.cleanup
      | .echo => x.throws "想定外のデータ順序です。" "echo"
      | .completeAck => x.throws "想定外のデータ順序です。" "echo" := by
  unfold onData
  refine (if_neg (Bool.eq_false_iff.mp hended)).trans ?_
  refine (if_neg (not_lt.mpr hlength)).trans ?_
  refine (if_neg hpending).trans ?_
  cases m.type <;> rfl

/-- A short message that is awaited. -/
theorem onData_of_awaited (hended : x.ended = false) (hlength : m.stringify.length ≤ 10000)
    (hpending : x.pending = some m.type) : x.onData m = x.resolve m := by
  unfold onData
  rw [if_neg (Bool.eq_false_iff.mp hended), if_neg (not_lt.mpr hlength), if_pos hpending]

/-- The answerer echoes the next block. -/
theorem Serving.data (h : Serving x n) (hn : n < blocks) :
    ∃ y, ({ x with queue := x.queue ++ [dataMessage n] } : Experiment).step .handle = some y ∧
      Serving y (n + 1) := by
  set z : Experiment := { x with handled := x.handled ++ [dataMessage n] } with hz
  have hpending : z.pending ≠ some .data := by
    rw [show z.pending = none from h.pending]
    exact (Option.some_ne_none _).symm
  have hdata : z.onData (dataMessage n) = z.echoBlock (dataMessage n) :=
    onData_of_free h.ended (length_block_le .data hn) hpending
  have hmatch : ¬ ((dataMessage n).index ≠ some x.received ∨ blocks ≤ x.received ∨
      (dataMessage n).body ≠ some (bodyFor x.received)) := by
    rw [h.received, not_or, not_or, not_not, not_not]
    exact ⟨rfl, not_le.mpr hn, rfl⟩
  have hecho : z.echoBlock (dataMessage n) =
      { z with
        transferring := true
        received := x.received + 1
        sent := x.sent ++ [echoMessage (dataMessage n)] } := by
    unfold echoBlock
    rw [if_neg (not_not.mpr h.role)]
    dsimp only
    rw [if_neg hmatch]
    have hcalm : Calm { z with transferring := true, received := x.received + 1 } :=
      ⟨h.ended, h.readyState, h.full, h.handling, h.queue⟩
    rw [hcalm.send]
  refine ⟨_, h.handle _, ?_⟩
  rw [hdata, hecho]
  refine ⟨⟨h.ended, h.readyState, h.full, h.handling, h.queue⟩, h.role, h.pending, ?_, ?_, ?_⟩
  · exact congrArg (· + 1) h.received
  · show x.handled ++ [dataMessage n] = _
    rw [h.handled, dataBlocks_succ]
  · show x.sent ++ [echoMessage (dataMessage n)] = _
    rw [h.sent, echoes_succ]
    rfl

/-- The offerer sends its next block, or awaits its second snapshot. -/
theorem Supplied.sendBlock (h : Supplied x n) (hpending : x.pending = none)
    (hsent : x.sent = dataBlocks n) :
    (n < blocks → Awaiting (x.sendBlock n) n) ∧ (n = blocks → Finished (x.sendBlock n)) := by
  refine ⟨fun hn => ?_, fun hn => ?_⟩
  · unfold Experiment.sendBlock
    rw [if_pos hn, h.exchange hpending]
    refine ⟨⟨⟨h.ended, h.readyState, h.full, h.handling, h.queue⟩, h.role, h.handled⟩, rfl, rfl, ?_⟩
    show x.sent ++ [dataMessage n] = _
    rw [hsent, dataBlocks_succ]
  · subst hn
    unfold Experiment.sendBlock
    rw [if_neg (lt_irrefl _)]
    exact ⟨⟨⟨h.ended, h.readyState, h.full, h.handling, h.queue⟩, h.role, h.handled⟩, rfl,
      hpending, hsent⟩

/-- The offerer reads the echo of a block, and goes on. -/
theorem Awaiting.echo (h : Awaiting x n) (hn : n < blocks) :
    ∃ y z, ({ x with queue := x.queue ++ [echoMessage (dataMessage n)] } : Experiment).step
      .handle = some y ∧
      y.step .settled = some z ∧ (n + 1 < blocks → Awaiting z (n + 1)) ∧
        (n + 1 = blocks → Finished z) := by
  set m := echoMessage (dataMessage n) with hm
  set y : Experiment := { x with handled := x.handled ++ [m] }
  have hresolve : y.onData m = y.resolve m :=
    onData_of_awaited h.ended (length_block_le .echo hn) h.pending
  have hsettled : (y.resolve m).step .settled =
      some (({ y with payload := .echoing n, pending := none, reply := none } : Experiment).echoed n
        m) := by
    unfold Experiment.step settled
    dsimp only
    rw [show (y.resolve m).payload = .echoing n from h.payload]
    rfl
  have hsame : ¬ (m.index ≠ some n ∨ m.body ≠ some (bodyFor n)) := by
    rw [not_or, not_not, not_not]
    exact ⟨rfl, rfl⟩
  have hsupplied : Supplied { y with payload := .echoing n, pending := none, reply := none }
      (n + 1) := by
    refine ⟨⟨h.ended, h.readyState, h.full, h.handling, h.queue⟩, h.role, ?_⟩
    show x.handled ++ [m] = _
    rw [h.handled, echoes_succ]
    rfl
  refine ⟨y.resolve m, _, ?_, hsettled, ?_⟩
  · rw [h.handle, hresolve]
  · unfold echoed
    rw [if_neg hsame]
    exact hsupplied.sendBlock rfl h.sent

/-- The offerer sends its last word. -/
theorem Finished.complete (h : Finished x) (stats : Stats) :
    ∃ y evidence, x.step (.payloadStats (.ok stats)) = some y ∧ Asking y evidence := by
  set evidence := pathEvidence x.report.pathBefore (selectedPath stats) x.localCandidates
    x.remoteCandidates
  set z : Experiment :=
    { x with
      transferring := false
      report.pathAfter := selectedPath stats
      report.localEvidence := some evidence }
  have hcalm : Calm z := ⟨h.ended, h.readyState, h.full, h.handling, h.queue⟩
  have hstep : x.step (.payloadStats (.ok stats)) = some (x.sendComplete (.ok stats)) := by
    unfold Experiment.step payloadStats
    dsimp only
    rw [h.payload]
  have hexchange := hcalm.exchange h.pending .completeAck (completeMessage (some evidence))
  refine ⟨_, evidence, hstep, ?_⟩
  unfold sendComplete
  dsimp only
  rw [if_neg (Bool.eq_false_iff.mp h.ended), hexchange]
  refine ⟨⟨⟨h.ended, h.readyState, h.full, h.handling, h.queue⟩, h.role, h.handled⟩, rfl, rfl, ?_⟩
  exact congrArg (· ++ [completeMessage (some evidence)]) h.sent

/-- The answerer acknowledges the last word. -/
theorem Serving.complete (h : Serving x blocks) (evidence : Evidence) (stats : Stats) :
    ∃ y z evidence',
      ({ x with queue := x.queue ++ [completeMessage (some evidence)] } : Experiment).step
        .handle = some y ∧
        y.step (.completeStats (.ok stats)) = some z ∧
          z.sent = x.sent ++ [ackMessage (some evidence')] := by
  set m := completeMessage (some evidence)
  set y : Experiment := { x with handled := x.handled ++ [m], handling := some m }
  have hpending : x.pending ≠ some .complete := by
    rw [h.pending]
    exact (Option.some_ne_none _).symm
  set z : Experiment := { x with handled := x.handled ++ [m] }
  have hfree : z.onData m = z.receiveComplete m :=
    onData_of_free h.ended (length_last_le .complete evidence) hpending
  have hdata : z.onData m = y := by
    have hcheck : ¬ (x.role ≠ .answerer ∨ x.received ≠ blocks ∨
        m.bytes ≠ some (chunk * blocks)) := by
      rw [not_or, not_or, not_not, not_not, not_not]
      exact ⟨h.role, h.received, rfl⟩
    rw [hfree]
    unfold receiveComplete
    rw [if_neg hcheck]
  set evidence' := pathEvidence x.report.pathBefore (selectedPath stats) x.localCandidates
    x.remoteCandidates
  have hcalm : Calm
      { y with
        handling := none
        transferring := false
        report.pathAfter := selectedPath stats
        report.localEvidence := some evidence' } := ⟨h.ended, h.readyState, h.full, rfl, h.queue⟩
  refine ⟨y, _, evidence', ?_, rfl, ?_⟩
  · rw [h.handle, hdata]
  · unfold sendAck
    dsimp only
    rw [if_neg (Bool.eq_false_iff.mp h.ended), hcalm.send]
    exact (complete_keeps _ _).2.1

/-- The offerer completes on the acknowledgement. -/
theorem Asking.ack {evidence : Evidence} (h : Asking x evidence) (evidence' : Evidence) :
    ∃ y z, ({ x with queue := x.queue ++ [ackMessage (some evidence')] } : Experiment).step
      .handle = some y ∧
      y.step .settled = some z ∧ z.report.echoSuccess = some true := by
  set m := ackMessage (some evidence')
  set y : Experiment := { x with handled := x.handled ++ [m] }
  have hresolve : y.onData m = y.resolve m :=
    onData_of_awaited h.ended (length_last_le .completeAck evidence') h.pending
  have hsettled : (y.resolve m).step .settled =
      some (({ y with payload := .acking, pending := none, reply := none } : Experiment).acked
        m) := by
    unfold Experiment.step settled
    dsimp only
    rw [show (y.resolve m).payload = .acking from h.payload]
    rfl
  refine ⟨y.resolve m, _, ?_, hsettled, ?_⟩
  · rw [h.handle, hresolve]
  · have hbytes : ¬ m.bytes ≠ some (chunk * blocks) := not_not.mpr rfl
    set w : Experiment := { y with payload := .returned, pending := none, reply := none }
    have hcomplete : (w.complete m.evidence).report.echoSuccess = some true := by
      unfold Experiment.complete
      rw [if_neg (Bool.eq_false_iff.mp h.ended)]
    unfold acked
    rw [if_neg hbytes]
    dsimp only
    split
    · rename_i hsend
      exact (same_send hsend).echoSuccess.trans hcomplete
    · exact hcomplete

end Experiment

/-! ## Both sides, undisturbed -/

namespace World

open Experiment

variable {w w' : World} {n : ℕ} {m : Message}

/-- A calm side gets the message that has just been sent to it. -/
theorem arrive_of_next (role : Role) (hcalm : (w.side role).Calm)
    (hsent : (w.side role.other).sent = (w.side role).handled ++ [m]) :
    step (.arrives role) w =
      some (w.withSide role { w.side role with queue := (w.side role).queue ++ [m] }) := by
  have hnext : (w.side role.other).sent[(w.side role).handled.length +
      (w.side role).queue.length]? = some m := by
    rw [hsent, hcalm.queue, List.length_nil, Nat.add_zero]
    exact List.getElem?_concat_length
  unfold step arrive
  dsimp only
  rw [hcalm.readyState, hnext]

/-- The next message arrives and is handled. -/
theorem run_message {y : Experiment} (role : Role) (hcalm : (w.side role).Calm)
    (hsent : (w.side role.other).sent = (w.side role).handled ++ [m])
    (hstep : ({ w.side role with queue := (w.side role).queue ++ [m] } : Experiment).step
      .handle = some y) :
    run step w [.arrives role, .steps role .handle] = some (w.withSide role y) := by
  refine run_cons.mpr ⟨_, arrive_of_next role hcalm hsent,
    run_cons.mpr ⟨w.withSide role y, ?_, run_nil⟩⟩
  unfold step
  dsimp only
  cases role <;> exact congrArg (Option.map _) hstep

theorem run_step {y : Experiment} {role : Role} {input : Input}
    (hstep : (w.side role).step input = some y) :
    run step w [.steps role input] = some (w.withSide role y) := by
  refine run_cons.mpr ⟨w.withSide role y, ?_, run_nil⟩
  exact congrArg (Option.map _) hstep

/-- One block goes there and back. -/
theorem run_block (ho : w.offerer.Awaiting n) (ha : w.answerer.Serving n) (hn : n < blocks) :
    ∃ es w', run step w es = some w' ∧ w'.answerer.Serving (n + 1) ∧
      (n + 1 < blocks → w'.offerer.Awaiting (n + 1)) ∧ (n + 1 = blocks → w'.offerer.Finished) := by
  obtain ⟨a, hdata, ha'⟩ := ha.data hn
  obtain ⟨o, o', hecho, hsettled, hnext⟩ := ho.echo hn
  have hthere : run step w [.arrives .answerer, .steps .answerer .handle] =
      some ⟨w.offerer, a⟩ := by
    refine run_message .answerer ha.toCalm ?_ hdata
    show w.offerer.sent = w.answerer.handled ++ [dataMessage n]
    rw [ho.sent, ha.handled, dataBlocks_succ]
  have hback : run step ⟨w.offerer, a⟩ [.arrives .offerer, .steps .offerer .handle] =
      some ⟨o, a⟩ := by
    refine run_message .offerer ho.toCalm ?_ hecho
    show a.sent = w.offerer.handled ++ [echoMessage (dataMessage n)]
    rw [ha'.sent, ho.handled, echoes_succ]
    rfl
  have hon : run step ⟨o, a⟩ [.steps .offerer .settled] = some ⟨o', a⟩ := run_step hsettled
  have hround := run_append_eq_some.mpr ⟨_, hback, hon⟩
  exact ⟨_, ⟨o', a⟩, run_append_eq_some.mpr ⟨_, hthere, hround⟩, ha', hnext⟩

/-- The blocks that are left go there and back. -/
theorem run_blocks (ho : w.offerer.Awaiting n) (ha : w.answerer.Serving n) (hn : n < blocks) :
    ∃ es w', run step w es = some w' ∧ w'.answerer.Serving blocks ∧ w'.offerer.Finished := by
  induction k : blocks - n generalizing w n with
  | zero => omega
  | succ k ih =>
    obtain ⟨es, m, hrun, ha', hawaiting, hfinished⟩ := run_block ho ha hn
    by_cases hnext : n + 1 < blocks
    · obtain ⟨fs, w', hrest, hboth⟩ := ih (hawaiting hnext) ha' hnext (by omega)
      exact ⟨es ++ fs, w', run_append_eq_some.mpr ⟨m, hrun, hrest⟩, hboth⟩
    · obtain hlast : n + 1 = blocks := by omega
      rw [hlast] at ha'
      exact ⟨es, m, hrun, ha', hfinished hlast⟩

/-- Both sides open their channel, the answerer is ready, and the offerer sends its first block. -/
theorem run_opening (before path : Stats) : ∃ w,
    run step start
      [.steps .offerer .opens, .steps .answerer .opens,
        .steps .answerer (.openStats (.ok path) false), .arrives .offerer, .steps .offerer .handle,
        .steps .offerer (.payloadStats (.ok before))] = some w ∧
      w.offerer.Awaiting 0 ∧ w.answerer.Serving 0 := by
  refine ⟨_, rfl, ?_, ?_⟩
  · exact ⟨⟨⟨rfl, rfl, rfl, rfl, rfl⟩, rfl, rfl⟩, rfl, rfl, rfl⟩
  · exact ⟨⟨rfl, rfl, rfl, rfl, rfl⟩, rfl, rfl, rfl, rfl, rfl⟩

/-- **An undisturbed run completes**, whatever the snapshots show. -/
theorem undisturbed_completes (before after path path' : Stats) :
    ∃ es w, run step start es = some w ∧ w.offerer.report.echoSuccess = some true := by
  obtain ⟨w₀, hopening, ho, ha⟩ := run_opening before path
  obtain ⟨es, w, hblocks, ha', ho'⟩ := run_blocks ho ha (by decide)
  obtain ⟨o, evidence, hcomplete, hasking⟩ := ho'.complete after
  obtain ⟨a, a', evidence', hlast, hack, hsent⟩ := ha'.complete evidence path'
  obtain ⟨o', o'', hacked, hsettled, hsuccess⟩ := hasking.ack evidence'
  have h₁ : run step w [.steps .offerer (.payloadStats (.ok after))] = some ⟨o, w.answerer⟩ :=
    run_step hcomplete
  have h₂ : run step ⟨o, w.answerer⟩ [.arrives .answerer, .steps .answerer .handle] =
      some ⟨o, a⟩ := by
    refine run_message .answerer ha'.toCalm ?_ hlast
    show o.sent = w.answerer.handled ++ [completeMessage (some evidence)]
    rw [hasking.sent, ha'.handled]
  have h₃ : run step ⟨o, a⟩ [.steps .answerer (.completeStats (.ok path'))] = some ⟨o, a'⟩ :=
    run_step hack
  have h₄ : run step ⟨o, a'⟩ [.arrives .offerer, .steps .offerer .handle] = some ⟨o', a'⟩ := by
    refine run_message .offerer hasking.toCalm ?_ hacked
    show a'.sent = o.handled ++ [ackMessage (some evidence')]
    rw [hsent, ha'.sent, hasking.handled]
  have h₅ : run step ⟨o', a'⟩ [.steps .offerer .settled] = some ⟨o'', a'⟩ := run_step hsettled
  have hend := run_append_eq_some.mpr
    ⟨_, h₂, run_append_eq_some.mpr ⟨_, h₃, run_append_eq_some.mpr ⟨_, h₄, h₅⟩⟩⟩
  have hrest := run_append_eq_some.mpr ⟨_, hblocks, run_append_eq_some.mpr ⟨_, h₁, hend⟩⟩
  exact ⟨_, ⟨o'', a'⟩, run_append_eq_some.mpr ⟨_, hopening, hrest⟩, hsuccess⟩

end World

end IrohExperiment.Peer
