/-
# The budget of a socket (`worker/src/iroh-relay.js`)

Every frame that the room acts on has passed the budget of its socket first: 512
frames in a window that starts anew after ten seconds, 10000 frames and 2 MiB in all.
The counters of the attachment bound what has passed (`Metered`), although they also
count the frames that were refused and are copied back and forth by every handler.

`withinBudget_of_runs` is the bound for every run, over the frames that any handler has
acted on.
-/
import IrohExperiment.Coop.Modes
import IrohExperiment.History.Tumbling
import IrohExperiment.Relay.Ledger

namespace IrohExperiment.Relay

open Coop History

variable {P : Platform} {κ : Trigger Event Point → World → Prop} {ls : List (Label Event Effect)}
  {c c' : RoomConfig} {w w' w'' s₀ : World} {ws T : SocketId} {h : ℕ}

/-! ## How acts change what was spent -/

/-- The frames of `ws` that passed the budget, in order. -/
def World.passed (w : World) (ws : SocketId) : List Taken :=
  w.past.taken.filter fun e => e.socket = ws

/-- The attachments agree on what was counted against the budget. -/
structure Attachment.Spent (info info' : Attachment) : Prop where
  bucket : info'.bucket = info.bucket
  bucketMessages : info'.bucketMessages = info.bucketMessages
  messages : info'.counts .messages = info.counts .messages
  inboundBytes : info'.counts .inboundBytes = info.counts .inboundBytes

/-- The attachments agree on the datagrams dropped, and a pending ping is still
pending. -/
def Attachment.Unserved (info info' : Attachment) : Prop :=
  info'.counts .dropped = info.counts .dropped ∧
    (info.pendingPing.isSome = true → info'.pendingPing.isSome = true)

/-- What an act does to the attachment of `ws` and to the frames of `ws` that passed. -/
inductive Spends (P : Platform) (w w' : World) (ws : SocketId) : Prop
  | same (hinfo : w'.info ws = w.info ws) (hpassed : w'.passed ws = w.passed ws)
  | counted {bytes : Bytes} {tested : ℕ} {info info' : Attachment}
      (hr : Reception P w ws bytes tested info info')
      (hinfo : w'.info ws = some (info'.plus (World.messageCounts bytes)))
      (hpassed : w'.passed ws = w.passed ws ∨
        overBudget (info'.plus (World.messageCounts bytes)) = false ∧
          w'.passed ws = w.passed ws ++ [⟨w.past.current, ws, bytes.length, tested⟩])
  | opened {challenge : Bytes} {due expires bucket : ℕ} (hnew : w.count ≤ ws)
      (hinfo : w'.info ws = some (.opening challenge due expires bucket))
      (hpassed : w'.passed ws = w.passed ws)
  | revised {info info' : Attachment} (hinfo : w.info ws = some info)
      (hinfo' : w'.info ws = some info') (hspent : info.Spent info')
      (hcause : w.Taking ws ∨ info.Unserved info') (hpassed : w'.passed ws = w.passed ws)

theorem passed_of_taken (h : w'.past.taken = w.past.taken) (ws : SocketId) :
    w'.passed ws = w.passed ws := by
  rw [World.passed, World.passed, h]

/-- An update of one attachment that takes no message. -/
theorem Spends.of_one {info : Attachment} (info' : Attachment) (hinfo : w.info T = some info)
    (hinfo' : w'.info T = some info') (hspent : info.Spent info')
    (hcause : w.Taking T ∨ info.Unserved info') (htaken : w'.past.taken = w.past.taken)
    (hothers : ∀ ws, ws ≠ T → w'.info ws = w.info ws) (ws : SocketId) : Spends P w w' ws := by
  by_cases hws : ws = T
  · subst hws
    exact .revised hinfo hinfo' hspent hcause (passed_of_taken htaken ws)
  · exact .same (hothers ws hws) (passed_of_taken htaken ws)

/-- Other counters than those of the budget are added to. -/
theorem Attachment.spent_plus (info : Attachment) (made : Counters) (hmessages : made .messages = 0)
    (hbytes : made .inboundBytes = 0) : info.Spent (info.plus made) := by
  refine ⟨rfl, rfl, ?_, ?_⟩ <;> simp [Attachment.plus, hmessages, hbytes]

theorem Attachment.unserved_plus (info : Attachment) (made : Counters)
    (hdropped : made .dropped = 0) :
    info.Unserved (info.plus made) :=
  ⟨by simp [Attachment.plus, hdropped], fun h => h⟩

/-- The counters that a frame sent to a socket adds to. -/
theorem Sends.counts {bytes : Bytes} {category : Option Counter} {about : Option SocketId}
    (h : Sends P κ w ws bytes category about) : World.sentCounts bytes category .messages = 0 ∧
      World.sentCounts bytes category .inboundBytes = 0 ∧
      World.sentCounts bytes category .dropped = 0 := by
  cases h <;> refine ⟨rfl, rfl, rfl⟩

theorem Touch.spends (h : Touch P κ w w') (ws : SocketId) : Spends P w w' ws := by
  cases h with
  | @take T bytes tested info info' hr hbudget =>
    by_cases hws : ws = T
    · subst hws
      refine .counted hr (by simp [World.info, Attachment.plus]) (.inr ⟨hbudget, ?_⟩)
      simp [World.passed]
    · refine .same (by simp [World.info, hws]) ?_
      simp [World.passed, Ne.symm hws]
  | @refuse T bytes tested info info' hr hbudget =>
    by_cases hws : ws = T
    · subst hws
      exact .counted hr (by simp [World.info, Attachment.plus])
        (.inl (passed_of_taken (by simp) _))
    · exact .same (by simp [World.info, hws]) (passed_of_taken (by simp) _)
  | @send T info bytes category about hs hinfo hlive =>
    obtain ⟨hmessages, hbytes, hdropped⟩ := hs.counts
    exact .of_one (info.plus (World.sentCounts bytes category)) hinfo
      (by simp [World.info, Attachment.plus]) (info.spent_plus _ hmessages hbytes)
      (.inr (info.unserved_plus _ hdropped)) (by simp) (fun ws hws => by simp [World.info, hws]) ws
  | @count T info frame key hs =>
    have hkey : (key = .ping ∨ key = .pong) ∧ w.info T = some info ∧ w.Taking T := by
      rcases hs with ⟨hs, rfl⟩ | ⟨hs, rfl⟩
      · exact ⟨.inl rfl, hs.stored, hs.taking⟩
      · exact ⟨.inr rfl, hs.stored, hs.taking⟩
    have hspent : info.Spent (info.plus (Pi.single key 1)) := by
      refine info.spent_plus _ ?_ ?_ <;> rcases hkey.1 with rfl | rfl <;> rfl
    exact .of_one (info.plus (Pi.single key 1)) hkey.2.1 (by simp [World.info, Attachment.plus])
      hspent (.inl hkey.2.2) (by simp)
      (fun ws hws => by simp [World.info, hws]) ws
  | @datagram T info destination frame hs hfresh =>
    exact .of_one (info.plus (Pi.single .datagram 1)) hs.stored
      (by simp [World.info, Attachment.plus]) (info.spent_plus _ rfl rfl) (.inl hs.taking) (by simp)
      (fun ws hws => by simp [World.info, hws]) ws
  -- two sockets change: the target is sent to, and the sender is settled with
  | @forward T info target other bytes hf =>
    obtain ⟨destination, frame, source, hs, -⟩ := hf.datagram
    by_cases hws : ws = target
    · subst hws
      have hinfo' : (((w.sent ws other bytes none none).amend T info
          (Pi.single .forwarded 1)).settle T).info ws =
          some (other.plus (World.sentCounts bytes none)) := by
        simp [World.info, hf.ne, Attachment.plus]
      exact .revised hf.stored hinfo' (other.spent_plus _ rfl rfl)
        (.inr (other.unserved_plus _ rfl)) (passed_of_taken (by simp) _)
    · by_cases hT : ws = T
      · subst hT
        have hinfo' : (((w.sent target other bytes none none).amend ws info
            (Pi.single .forwarded 1)).settle ws).info ws =
            some (info.plus (Pi.single .forwarded 1)) := by
          simp [World.info, Attachment.plus]
        exact .revised hs.stored hinfo' (info.spent_plus _ rfl rfl) (.inl hs.taking)
          (passed_of_taken (by simp) _)
      · exact .same (by simp [World.info, hws, hT]) (passed_of_taken (by simp) _)
  | @drop T info destination frame hs hunsettled =>
    exact .of_one (info.plus (Pi.single .dropped 1)) hs.stored
      (by simp [World.info, Attachment.plus]) (info.spent_plus _ rfl rfl) (.inl hs.taking) (by simp)
      (fun ws hws => by simp [World.info, hws]) ws
  | @clear T info frame hs hpending =>
    exact .of_one { info with pendingPing := none, deadline := none } hs.stored
      (by simp [World.info]) ⟨rfl, rfl, rfl, rfl⟩ (.inl hs.taking) (by simp)
      (fun ws hws => by simp [World.info, hws]) ws
  | @arm T info ping deadline hevent hinfo hlive hphase =>
    exact .of_one { info with pendingPing := some ping, deadline := some deadline } hinfo
      (by simp [World.info]) ⟨rfl, rfl, rfl, rfl⟩ (.inr ⟨rfl, fun _ => rfl⟩) (by simp)
      (fun ws hws => by simp [World.info, hws]) ws

/-- A claim spends nothing. -/
theorem spent_claimed (info : Attachment) (id : Text) :
    info.Spent (({ info with
      id := some id, phase := .authenticated, challenge := none,
      deadline := none } : Attachment).plus (Pi.single .auth 1)) := by
  refine ⟨rfl, rfl, ?_, ?_⟩ <;> simp [Attachment.plus]

theorem unserved_claimed (info : Attachment) (id : Text) :
    info.Unserved (({ info with
      id := some id, phase := .authenticated, challenge := none,
      deadline := none } : Attachment).plus (Pi.single .auth 1)) :=
  ⟨by simp [Attachment.plus], fun h => h⟩

theorem Act.spends (h : Act P κ w w') (ws : SocketId) : Spends P w w' ws := by
  cases h with
  | touch h => exact h.spends ws
  | depart h => exact .same (congrFun h.info_eq ws) (passed_of_taken (by cases h <;> simp) ws)
  | @accept r room challenge due bucket =>
    by_cases hws : ws = w.count
    · exact .opened hws.ge (by simp [World.info, hws]; rfl) (passed_of_taken (by simp) ws)
    · exact .same (by simp [World.info, hws]) (passed_of_taken (by simp) ws)
  | @connect T | @verified T =>
    refine .same ?_ (passed_of_taken (by simp) ws)
    by_cases hws : ws = T <;> simp [World.info, hws]
  | @verify T frame info t hevent htaking hinfo =>
    exact .of_one { info with phase := .verifying } hinfo (by simp [World.info])
      ⟨rfl, rfl, rfl, rfl⟩
      (.inl htaking) (by simp) (fun ws hws => by simp [World.info, hws]) ws
  | @claim T info id hc =>
    exact .of_one _ hc.stored (by simp [World.info]) (spent_claimed info id)
      (.inr (unserved_claimed info id)) (by simp) (fun ws hws => by simp [World.info, hws]) ws
  | @reclaim T info id old other hc hne hother =>
    by_cases hws : ws = old
    · subst hws
      have hinfo' : ((w.claimed T info id).retired ws other).info ws =
          some { other with archived := true } := by simp [World.info]
      exact .revised hother hinfo' ⟨rfl, rfl, rfl, rfl⟩ (.inr ⟨rfl, fun h => h⟩)
        (passed_of_taken (by simp) ws)
    · by_cases hT : ws = T
      · subst hT
        exact .revised hc.stored (by simp [World.info, hws]) (spent_claimed info id)
          (.inr (unserved_claimed info id)) (passed_of_taken (by simp) ws)
      · exact .same (by simp [World.info, hws, hT]) (passed_of_taken (by simp) ws)
  | @retire T info hinfo =>
    exact .of_one { info with archived := true } hinfo (by simp [World.info]) ⟨rfl, rfl, rfl, rfl⟩
      (.inr ⟨rfl, fun h => h⟩) (by simp) (fun ws hws => by simp [World.info, hws]) ws
  | _ => exact .same rfl (passed_of_taken (by simp) ws)

/-! ## The bounds -/

/-- The counters of the attachment cover all that has passed. -/
structure Metered (passed : List Taken) (info : Attachment) : Prop where
  window : Tumbling 10000 512 info.bucket info.bucketMessages (passed.map (·.time))
  frames : passed.length ≤ info.counts .messages
  bytes : (passed.map (·.size)).sum ≤ info.counts .inboundBytes

theorem Metered.spent {passed : List Taken} {info info' : Attachment} (hm : Metered passed info)
    (hs : info.Spent info') : Metered passed info' where
  window := hs.bucket.symm ▸ hs.bucketMessages.symm ▸ hm.window
  frames := hs.messages.symm ▸ hm.frames
  bytes := hs.inboundBytes.symm ▸ hm.bytes

/-- What a message adds to the counters. -/
theorem Reception.counts {bytes : Bytes} {tested : ℕ} {info info' : Attachment}
    (hr : Reception P w ws bytes tested info info') :
    (info'.plus (World.messageCounts bytes)).counts .messages = info.counts .messages + 1 ∧
      (info'.plus (World.messageCounts bytes)).counts .inboundBytes =
        info.counts .inboundBytes + bytes.length := by
  have hcounts : info'.counts = info.counts := by
    obtain ⟨-, rfl⟩ | ⟨-, now, -, -, rfl⟩ := hr.bucket <;> rfl
  simp [Attachment.plus, World.messageCounts, hcounts]

theorem passed_time_le {bytes : Bytes} {tested : ℕ} {info info' : Attachment}
    (hr : Reception P w ws bytes tested info info') :
    ∀ s ∈ (w.passed ws).map (·.time), s ≤ tested := by
  intro s hs
  obtain ⟨e, he, rfl⟩ := List.mem_map.mp hs
  exact hr.taken_le e (List.mem_of_mem_filter he)

/-- A message is counted and refused. -/
theorem Metered.refuse {bytes : Bytes} {tested : ℕ} {info info' : Attachment}
    (hm : Metered (w.passed ws) info) (hr : Reception P w ws bytes tested info info') :
    Metered (w.passed ws) (info'.plus (World.messageCounts bytes)) := by
  obtain ⟨hmessages, hbytes⟩ := hr.counts
  refine ⟨?_, ?_, ?_⟩
  · obtain ⟨-, rfl⟩ | ⟨hover, now, hlater, -, rfl⟩ := hr.bucket
    · exact hm.window.refuse
    · exact hm.window.refuseNext hover (passed_time_le hr) hlater
  · rw [hmessages]
    exact hm.frames.trans (Nat.le_succ _)
  · rw [hbytes]
    exact hm.bytes.trans (Nat.le_add_right _ _)

/-- A message is counted and passes. -/
theorem Metered.pass {bytes : Bytes} {tested : ℕ} {info info' : Attachment} {e : Taken}
    (hm : Metered (w.passed ws) info) (hr : Reception P w ws bytes tested info info')
    (hbudget : overBudget (info'.plus (World.messageCounts bytes)) = false)
    (hsize : e.size = bytes.length) (htime : e.time = tested) :
    Metered (w.passed ws ++ [e]) (info'.plus (World.messageCounts bytes)) := by
  obtain ⟨hmessages, hbytes⟩ := hr.counts
  refine ⟨?_, ?_, ?_⟩
  · rw [List.map_append, List.map_singleton, htime]
    obtain ⟨-, rfl⟩ | ⟨hover, now, hlater, -, rfl⟩ := hr.bucket
    · have hn : info.bucketMessages < 512 := by
        simp only [overBudget, Bool.or_eq_false_iff, decide_eq_false_iff_not] at hbudget
        exact Nat.succ_le_iff.mp (not_lt.mp hbudget.1.1)
      exact hm.window.pass hn hr.le_tested
    · exact hm.window.passNext (by omega) hover (passed_time_le hr) hlater
  · have hframes := hm.frames
    rw [hmessages, List.length_append, List.length_singleton]
    omega
  · have hsum := hm.bytes
    rw [hbytes, List.map_append, List.sum_append, List.map_singleton, List.sum_singleton, hsize]
    omega

/-- What holds of a socket in every run. -/
structure Meter (w : World) (ws : SocketId) : Prop where
  none : w.info ws = none → w.passed ws = []
  some : ∀ info, w.info ws = some info → Metered (w.passed ws) info
  frames : (w.passed ws).length ≤ 10000
  bytes : ((w.passed ws).map (·.size)).sum ≤ 2 * 1024 * 1024

theorem Meter.act (hI : Inv P w) (hm : Meter w ws) (h : Act P κ w w') : Meter w' ws := by
  cases h.spends ws with
  | same hinfo hpassed =>
    refine ⟨?_, ?_, ?_, ?_⟩ <;> rw [hpassed]
    · rw [hinfo]
      exact hm.none
    · rw [hinfo]
      exact hm.some
    · exact hm.frames
    · exact hm.bytes
  | @counted bytes tested info info' hr hinfo hpassed =>
    have hmetered := hm.some info hr.stored
    have hmeter : Metered (w'.passed ws) (info'.plus (World.messageCounts bytes)) := by
      rcases hpassed with hpassed | ⟨hbudget, hpassed⟩ <;> rw [hpassed]
      · exact hmetered.refuse hr
      · exact hmetered.pass hr hbudget rfl rfl
    refine ⟨fun hnone => by simp [hinfo] at hnone, fun i hi => ?_, ?_, ?_⟩
    · obtain rfl := Option.some.inj (hinfo.symm.trans hi)
      exact hmeter
    · rcases hpassed with hpassed | ⟨hbudget, hpassed⟩
      · rw [hpassed]
        exact hm.frames
      · have hframes := hmeter.frames
        simp only [overBudget, Bool.or_eq_false_iff, decide_eq_false_iff_not] at hbudget
        omega
    · rcases hpassed with hpassed | ⟨hbudget, hpassed⟩
      · rw [hpassed]
        exact hm.bytes
      · have hbytes := hmeter.bytes
        simp only [overBudget, Bool.or_eq_false_iff, decide_eq_false_iff_not] at hbudget
        omega
  | @opened challenge due expires bucket hnew hinfo hpassed =>
    have hempty : w.passed ws = [] := by
      refine hm.none (Option.not_isSome_iff_eq_none.mp fun hsome => ?_)
      have hlt := (hI.known ws).mpr hsome
      omega
    refine ⟨fun _ => hpassed.trans hempty, fun i hi => ?_, ?_, ?_⟩
    · obtain rfl := Option.some.inj (hinfo.symm.trans hi)
      rw [hpassed, hempty]
      exact ⟨.fresh _, Nat.zero_le _, Nat.zero_le _⟩
    · rw [hpassed, hempty]
      exact Nat.zero_le _
    · rw [hpassed, hempty]
      exact Nat.zero_le _
  | @revised info info' hinfo hinfo' hspent _ hpassed =>
    refine ⟨fun hnone => by simp [hinfo'] at hnone, fun i hi => ?_, ?_, ?_⟩ <;> rw [hpassed]
    · obtain rfl := Option.some.inj (hinfo'.symm.trans hi)
      exact (hm.some info hinfo).spent hspent
    · exact hm.frames
    · exact hm.bytes

theorem RunsFrom.meter (hr : RunsFrom P κ freshRoom ls c) (ws : SocketId) : Meter c.state ws := by
  refine room_keeps (J := fun w => Meter w ws) hr ?_ ?_ fun w w' hI hm ha => hm.act hI ha
  · exact ⟨fun _ => rfl, fun info hinfo => (nomatch hinfo), Nat.zero_le _, Nat.zero_le _⟩
  · intro w w' _ hm hrest
    have hpassed := passed_of_taken hrest.taken_eq ws
    refine ⟨?_, ?_, ?_, ?_⟩ <;> rw [hpassed]
    · rw [hrest.info_eq]
      exact hm.none
    · rw [hrest.info_eq]
      exact hm.some
    · exact hm.frames
    · exact hm.bytes

/-- No period of ten seconds holds more than 1024 of the frames that passed. -/
theorem Meter.within_le (hm : Meter w ws) (t : ℕ) :
    within 10000 t ((w.passed ws).map (·.time)) ≤ 1024 := by
  cases hinfo : w.info ws with
  | none =>
    rw [hm.none hinfo]
    exact Nat.zero_le _
  | some info => exact (hm.some info hinfo).window.within_le t

/-! ## Acting on frames -/

/-- Between `w` and `w'` the room acts on a frame of `ws`: it authenticates the socket,
answers or routes the frame, which are the ways to send one that announces no
departure, clears the pending ping, or counts a datagram as dropped. -/
inductive ActsOn (w w' : World) (ws : SocketId) : Prop
  | authenticates {id : Text} (hafter : Authenticated w'.info ws id)
      (hbefore : ¬ Authenticated w.info ws id)
  | sends {sent : List Sent} {e : Sent} (hwire : w'.past.wire = w.past.wire ++ sent) (he : e ∈ sent)
      (habout : e.about = none)
  | clears {info info' : Attachment} (hinfo : w.info ws = some info)
      (hinfo' : w'.info ws = some info')
      (hpending : info.pendingPing.isSome = true) (hcleared : info'.pendingPing = none)
  | drops {info info' : Attachment} (hinfo : w.info ws = some info)
      (hinfo' : w'.info ws = some info')
      (hdropped : info'.counts .dropped ≠ info.counts .dropped)

/-- What was done in two steps was done in the first or in the second. -/
theorem ActsOn.split (hI : Inv P w) (hext : w.Extends w') (hext' : w'.Extends w'')
    (h : ActsOn w w'' ws) : ActsOn w w' ws ∨ ActsOn w' w'' ws := by
  have between : ∀ info, w.info ws = some info → ∃ info', w'.info ws = some info' := by
    intro info hinfo
    obtain ⟨info', hinfo', -⟩ := (hext.socket ws (hI.lt_count hinfo)).attachment info hinfo
    exact ⟨info', hinfo'⟩
  cases h with
  | @authenticates id hafter hbefore =>
    by_cases hauth : Authenticated w'.info ws id
    · exact .inl (.authenticates hauth hbefore)
    · exact .inr (.authenticates hafter hauth)
  | @sends sent e hwire he habout =>
    obtain ⟨first, hfirst⟩ := hext.wire
    obtain ⟨second, hsecond⟩ := hext'.wire
    have hsent : sent = first ++ second := by
      rw [← hsecond, ← hfirst, List.append_assoc] at hwire
      exact (List.append_cancel_left hwire).symm
    rcases List.mem_append.mp (hsent ▸ he) with he | he
    · exact .inl (.sends hfirst.symm he habout)
    · exact .inr (.sends hsecond.symm he habout)
  | @clears info info'' hinfo hinfo'' hpending hcleared =>
    obtain ⟨info', hinfo'⟩ := between info hinfo
    cases hp : info'.pendingPing with
    | none => exact .inl (.clears hinfo hinfo' hpending hp)
    | some ping => exact .inr (.clears hinfo' hinfo'' (by simp [hp]) hcleared)
  | @drops info info'' hinfo hinfo'' hdropped =>
    obtain ⟨info', hinfo'⟩ := between info hinfo
    by_cases hd : info'.counts .dropped = info.counts .dropped
    · exact .inr (.drops hinfo' hinfo'' fun heq => hdropped (heq.trans hd))
    · exact .inl (.drops hinfo hinfo' hd)

/-- Whoever takes an answer to a challenge up was started by a message that passed. -/
def World.Vouched (w : World) : Prop :=
  ∀ ws h, (w.socket ws).authorizer = some h → ∃ e ∈ w.past.taken, e.handler = h ∧ e.socket = ws

theorem Act.authorizer_cases (h : Act P κ w w') {k : ℕ} (ha : (w'.socket ws).authorizer = some k) :
    (w.socket ws).authorizer = some k ∨ k = w.past.current ∧ w.Taking ws := by
  have same : (w'.socket ws).authorizer = (w.socket ws).authorizer →
      (w.socket ws).authorizer = some k ∨ k = w.past.current ∧ w.Taking ws :=
    fun hsame => .inl (hsame ▸ ha)
  cases h with
  | touch h =>
    refine same ?_
    rcases h.touched ws with hsocket | ⟨_, _, _, -, -, -, -, -, hsocket⟩ <;> rw [hsocket]
  | depart h =>
    refine same ?_
    cases h with
    | @close T | @fold T | @announcing T | @missed T | @announced T =>
      by_cases hws : ws = T <;> simp [hws]
  | @accept r room challenge due bucket =>
    by_cases hws : ws = w.count
    · simp [hws, Socket.none] at ha
    · exact same (by simp [hws])
  | @verify T frame info t hevent htaking =>
    by_cases hws : ws = T
    · subst hws
      exact .inr ⟨by simpa using ha.symm, htaking⟩
    · exact same (by simp [hws])
  | @connect T | @verified T | @claim T | @retire T =>
    refine same ?_
    by_cases hws : ws = T <;> simp [hws]
  | @reclaim T info id old other hc hne =>
    obtain ⟨a, hclaimed⟩ := w.claimed_socket_eq T info id ws
    refine same ?_
    rw [(World.retired_authorizer _ old other ws).1, hclaimed]
  | _ => exact same rfl

theorem World.Vouched.act (hv : w.Vouched) (h : Act P κ w w') : w'.Vouched := by
  intro ws k ha
  rcases h.authorizer_cases ha with ha | ⟨rfl, e, he, hhandler, hsocket⟩
  · obtain ⟨e, he, hrest⟩ := hv ws k ha
    exact ⟨e, h.taken_prefix.subset he, hrest⟩
  · exact ⟨e, h.taken_prefix.subset he, hhandler, hsocket⟩

/-- A frame that announces no departure, sent by the handler of a message, is the
answer to it, or the message itself on its way. -/
theorem Emits.taking (hI : Inv P w) (hv : w.Vouched) {e : Sent} {m : Message}
    (hevent : w.event = some (.message ws m)) (h : Emits P κ w e) (habout : e.about = none) :
    w.Taking ws := by
  -- the message that the running handler was started by comes from `ws`
  have own : ∀ {T : SocketId} {m' : Message}, w.event = some (.message T m') → T = ws := by
    intro T m' hT
    have heq := Option.some.inj (hT.symm.trans hevent)
    exact (Event.message.inj heq).1
  cases h with
  | @control T info bytes category about hs hinfo hlive =>
    cases hs with
    | challenge hopener =>
      obtain ⟨r, hr⟩ := (hI.shape T info hinfo).opener
      rw [hopener] at hr
      exact nomatch hr.symm.trans hevent
    | confirmation hauthorizer =>
      obtain ⟨frame, hframe⟩ := (hI.shape T info hinfo).authorizer _ hauthorizer
      obtain rfl := own hframe
      exact hv T _ hauthorizer
    | pong hevent' _ _ htaking =>
      obtain rfl := own hevent'
      exact htaking
    | ping halarm => exact nomatch halarm.symm.trans hevent
    | gone => cases habout
  | @datagram T info target other bytes hf =>
    obtain ⟨destination, frame, source, hs, -⟩ := hf.datagram
    obtain ⟨m', hevent', -⟩ := hs.event
    obtain rfl := own hevent'
    exact hs.taking

/-- Only a message that passed is acted on by its handler. -/
theorem Act.taking (hI : Inv P w) (hv : w.Vouched) {m : Message}
    (hevent : w.event = some (.message ws m)) (h : Act P κ w w') (hacts : ActsOn w w' ws) :
    w.Taking ws := by
  have revised : ∀ {info info' : Attachment}, w.info ws = some info → w'.info ws = some info' →
      w.Taking ws ∨ info.Unserved info' := by
    intro info info' hinfo hinfo'
    cases h.spends ws with
    | same hsame =>
      obtain rfl := Option.some.inj (hinfo.symm.trans (hsame.symm.trans hinfo'))
      exact .inr ⟨rfl, fun hp => hp⟩
    | @counted bytes tested i i' hr hi =>
      obtain rfl := Option.some.inj (hinfo.symm.trans hr.stored)
      obtain rfl := Option.some.inj (hinfo'.symm.trans hi)
      refine .inr ?_
      obtain ⟨-, rfl⟩ | ⟨-, now, -, -, rfl⟩ := hr.bucket
      · exact ⟨by simp [Attachment.plus, World.messageCounts], fun hp => hp⟩
      · exact ⟨by simp [Attachment.plus, World.messageCounts], fun hp => hp⟩
    | opened hnew => exact absurd (hI.lt_count hinfo) (not_lt.mpr hnew)
    | @revised i i' hi hi' _ hcause =>
      obtain rfl := Option.some.inj (hinfo.symm.trans hi)
      obtain rfl := Option.some.inj (hinfo'.symm.trans hi')
      exact hcause
  cases hacts with
  | authenticates hafter hbefore =>
    obtain hauth | ⟨info, hc⟩ := (h.alters ws).authenticated hafter
    · exact absurd hauth hbefore
    · exact hv ws _ hc.authorizer
  | @sends sent e hwire he habout =>
    obtain hsame | ⟨e', hemits, hsent⟩ := h.wire_cases
    · rw [hsame] at hwire
      have hnil : sent = [] := List.self_eq_append_right.mp hwire
      simp [hnil] at he
    · have heq : [e'] = sent := List.append_cancel_left (hsent.symm.trans hwire)
      obtain rfl := List.mem_singleton.mp (heq ▸ he)
      exact hemits.taking hI hv hevent habout
  | clears hinfo hinfo' hpending hcleared =>
    refine (revised hinfo hinfo').resolve_right fun hu => ?_
    have hsome := hu.2 hpending
    simp [hcleared] at hsome
  | drops hinfo hinfo' hdropped =>
      exact (revised hinfo hinfo').resolve_right fun hu => hdropped hu.1

/-- So for a whole stretch. -/
theorem Stretch.taking (hI : Inv P w) (hv : w.Vouched) {m : Message}
    (hevent : w.event = some (.message ws m)) (h : Stretch P κ w w') (hacts : ActsOn w w' ws) :
    w'.Taking ws := by
  suffices hs : w'.Vouched ∧ w'.event = some (.message ws m) ∧ (ActsOn w w' ws → w'.Taking ws) from
    hs.2.2 hacts
  clear hacts
  induction h with
  | refl =>
    refine ⟨hv, hevent, fun hacts => ?_⟩
    cases hacts with
    | authenticates hafter hbefore => exact absurd hafter hbefore
    | @sends sent e hwire he =>
      have hnil : sent = [] := List.self_eq_append_right.mp hwire
      simp [hnil] at he
    | clears hinfo hinfo' hpending hcleared =>
      obtain rfl := Option.some.inj (hinfo.symm.trans hinfo')
      simp [hcleared] at hpending
    | drops hinfo hinfo' hdropped =>
      obtain rfl := Option.some.inj (hinfo.symm.trans hinfo')
      exact absurd rfl hdropped
  | @tail u v hs ha ih =>
    obtain ⟨hvu, heventu, htakes⟩ := ih
    have hIu := hI.stretch hs
    refine ⟨hvu.act ha, ha.event_eq.trans heventu, fun hacts => ?_⟩
    obtain ⟨e, he, hhandler, hsocket⟩ : u.Taking ws := by
      rcases hacts.split hI (Stretch.extends hI hs) (ha.extends hIu) with hacts | hacts
      · exact htakes hacts
      · exact ha.taking hIu hvu heventu hacts
    exact ⟨e, ha.taken_prefix.subset he, hhandler.trans ha.current_eq.symm, hsocket⟩

/-! ## The frames of a run -/

/-- The size of the frame that handler `h` was started by. -/
def World.frameSize (w : World) (h : ℕ) : ℕ :=
  match w.past.arrivals[h]? with
  | some (.message _ (.binary bytes)) => bytes.length
  | _ => 0

/-- The frame of handler `h`, from `ws`, was tested against the window at a time from
`t` on, less than ten seconds later. -/
def World.TestedFrom (w : World) (ws : SocketId) (t h : ℕ) : Prop :=
  ∃ e ∈ w.passed ws, e.handler = h ∧ t ≤ e.time ∧ e.time < t + 10000

instance (w : World) (ws : SocketId) (t h : ℕ) : Decidable (w.TestedFrom ws t h) :=
  inferInstanceAs (Decidable (∃ e ∈ w.passed ws, e.handler = h ∧ t ≤ e.time ∧ e.time < t + 10000))

/-- In the run `ls` to `c`, the room acted on the frame of handler `h`, from `ws`. -/
def Acted (P : Platform) (ls : List (Label Event Effect)) (c : RoomConfig) (ws : SocketId) (h : ℕ) :
    Prop :=
  ∃ before ℓ after c₁ c₂ m, ls = before ++ ℓ :: after ∧
    Runs (room P) anytime freshRoom before c₁ ∧ c₁.step (room P) ℓ = some c₂ ∧
    Runs (room P) anytime c₂ after c ∧ Queued.runner c₁ ℓ = some h ∧
    c₂.state.past.arrivals[h]? = some (.message ws m) ∧ ActsOn c₁.state c₂.state ws

/-- The bounds on a set of frames from `ws`: all of them were tested against the
window, and there are not too many, in all and in any ten seconds. -/
structure WithinBudget (w : World) (ws : SocketId) (hs : Finset ℕ) : Prop where
  tested : ∀ h ∈ hs, ∃ e ∈ w.passed ws, e.handler = h
  frames : hs.card ≤ 10000
  bytes : ∑ h ∈ hs, w.frameSize h ≤ 2 * 1024 * 1024
  window : ∀ t, (hs.filter (w.TestedFrom ws t)).card ≤ 1024

theorem ActsOn.rests (h : ActsOn w w'' ws) (hrest : Rests P w w') : ActsOn w' w'' ws := by
  have hinfo := hrest.info_eq
  cases h with
  | authenticates hafter hbefore => exact .authenticates hafter (hinfo ▸ hbefore)
  | sends hwire he habout => exact .sends (hrest.wire_eq.symm ▸ hwire) he habout
  | clears hi hi' hpending hcleared => exact .clears (hinfo.symm ▸ hi) hi' hpending hcleared
  | drops hi hi' hdropped => exact .drops (hinfo.symm ▸ hi) hi' hdropped

theorem RunsFrom.vouched (hr : RunsFrom P κ freshRoom ls c) : c.state.Vouched := by
  refine room_keeps (J := World.Vouched) hr nofun ?_ fun w w' _ hv ha => hv.act ha
  intro w w' _ hv hrest ws h ha
  obtain ⟨r, hsocket⟩ := hrest.socket ws
  rw [hrest.taken_eq]
  exact hv ws h (by rwa [hsocket] at ha)

/-- What was recorded of a frame is its size. -/
theorem RunsFrom.frameSize (hr : RunsFrom P κ freshRoom ls c) :
    ∀ e ∈ c.state.past.taken, e.size = c.state.frameSize e.handler := by
  suffices hs : ∀ e ∈ c.state.past.taken, ∃ ws bytes,
      c.state.past.arrivals[e.handler]? = some (.message ws (.binary bytes)) ∧
        e.size = bytes.length by
    intro e he
    obtain ⟨ws, bytes, hevent, hsize⟩ := hs e he
    rw [World.frameSize, hevent, hsize]
  refine room_keeps (J := fun w => ∀ e ∈ w.past.taken, ∃ ws bytes,
    w.past.arrivals[e.handler]? = some (.message ws (.binary bytes)) ∧ e.size = bytes.length) hr
      nofun
    (fun w w' _ hJ hrest e he => ?_) fun w w' hI hJ ha e he => ?_
  · obtain ⟨ws, bytes, hevent, hsize⟩ := hJ e (hrest.taken_eq ▸ he)
    exact ⟨ws, bytes, hrest.extends_.event hevent, hsize⟩
  · rw [ha.arrivals_eq]
    obtain hsame | ⟨ws, bytes, tested, info, info', hr, -, htaken⟩ := ha.taken_cases
    · exact hJ e (hsame ▸ he)
    · rw [htaken, List.mem_append, List.mem_singleton] at he
      rcases he with he | rfl
      · exact hJ e he
      · exact ⟨ws, bytes, hr.event, rfl⟩

/-- A frame that was acted on had passed. -/
theorem Acted.passed (ha : Acted P ls c ws h) : ∃ e ∈ c.state.passed ws, e.handler = h := by
  obtain ⟨before, ℓ, after, c₁, c₂, m, -, hr, hstep, hafter, hrunner, hevent, hacts⟩ := ha
  have hrun := runsFrom_fresh hr
  have hmeets := meets_anytime (P := P) c₁ ℓ
  -- the stretch began in `w`, which shows the same as `c₁`
  obtain ⟨w, hrest, hcur, hg⟩ : ∃ w, Rests P c₁.state w ∧ w.past.current = h ∧
      Stretch P anytime w c₂.state := by
    cases hrun.legit.progress (room_sound P anytime) (room_invariant P anytime) hmeets hstep with
    | @start e w _ hb _ hg =>
      obtain rfl := Option.some.inj hrunner
      exact ⟨w, rests_begin hb, current_of_entered (.inl ⟨e, _, hb⟩), hg⟩
    | resume _ _ hg =>
      obtain rfl := Option.some.inj hrunner
      exact ⟨_, rests_enter P _ _, rfl, hg⟩
    | env => cases hrunner
  have hI := hrun.inv_end.rests hrest
  have hv : w.Vouched := by
    intro ws h ha
    obtain ⟨r, hsocket⟩ := hrest.socket ws
    rw [hrest.taken_eq]
    exact hrun.vouched ws h (by rwa [hsocket] at ha)
  have hevent' : w.event = some (.message ws m) := by
    rw [World.event, hcur, ← Stretch.arrivals_eq hg]
    exact hevent
  obtain ⟨e, he, hhandler, hsocket⟩ := Stretch.taking hI hv hevent' hg (hacts.rests hrest)
  have hext := (runsFrom_fresh (hr.snoc hmeets hstep)).extends_later hafter
  refine ⟨e, List.mem_filter.mpr ⟨hext.taken.subset he, by simpa using hsocket⟩, ?_⟩
  rw [hhandler, Stretch.current_eq hg, hcur]

theorem sum_toFinset_le (l : List ℕ) (f : ℕ → ℕ) : ∑ x ∈ l.toFinset, f x ≤ (l.map f).sum := by
  induction l with
  | nil => exact Nat.zero_le _
  | cons x l ih =>
    rw [List.toFinset_cons, List.map_cons, List.sum_cons]
    by_cases hx : x ∈ l.toFinset
    · rw [Finset.insert_eq_self.mpr hx]
      exact ih.trans (Nat.le_add_left _ _)
    · rw [Finset.sum_insert hx]
      exact Nat.add_le_add_left ih _

/-- **The budget** of every socket holds in every run. -/
theorem withinBudget_of_runs (hr : Runs (room P) anytime freshRoom ls c) {hs : Finset ℕ}
    (hacted : ∀ h ∈ hs, Acted P ls c ws h) : WithinBudget c.state ws hs := by
  have hrun := runsFrom_fresh hr
  have hmeter := hrun.meter ws
  have hsub : hs ⊆ ((c.state.passed ws).map (·.handler)).toFinset := by
    intro h hh
    obtain ⟨e, he, rfl⟩ := (hacted h hh).passed
    exact List.mem_toFinset.mpr (List.mem_map.mpr ⟨e, he, rfl⟩)
  refine ⟨fun h hh => (hacted h hh).passed, ?_, ?_, fun t => ?_⟩
  · calc hs.card ≤ ((c.state.passed ws).map (·.handler)).toFinset.card := Finset.card_le_card hsub
      _ ≤ ((c.state.passed ws).map (·.handler)).length := List.toFinset_card_le _
      _ ≤ 10000 := by
        rw [List.length_map]
        exact hmeter.frames
  · have hsizes : (c.state.passed ws).map (·.size) =
        ((c.state.passed ws).map (·.handler)).map c.state.frameSize := by
      rw [List.map_map]
      exact List.map_congr_left fun e he => hrun.frameSize e (List.mem_of_mem_filter he)
    calc ∑ h ∈ hs, c.state.frameSize h
        ≤ ∑ h ∈ ((c.state.passed ws).map (·.handler)).toFinset, c.state.frameSize h :=
          Finset.sum_le_sum_of_subset hsub
      _ ≤ ((c.state.passed ws).map (·.size)).sum := by
        rw [hsizes]
        exact sum_toFinset_le _ _
      _ ≤ 2 * 1024 * 1024 := hmeter.bytes
  · have hin : hs.filter (c.state.TestedFrom ws t) ⊆ (((c.state.passed ws).filter fun e =>
        decide (t ≤ e.time ∧ e.time < t + 10000)).map (·.handler)).toFinset := by
      intro h hh
      obtain ⟨-, e, he, rfl, htime⟩ := Finset.mem_filter.mp hh
      exact List.mem_toFinset.mpr (List.mem_map.mpr
        ⟨e, List.mem_filter.mpr ⟨he, decide_eq_true htime⟩, rfl⟩)
    refine ((Finset.card_le_card hin).trans (List.toFinset_card_le _)).trans ?_
    rw [List.length_map, ← List.countP_eq_length_filter]
    have hwithin := hmeter.within_le t
    rwa [within, List.countP_map] at hwithin

end IrohExperiment.Relay
