/-
# Messages that violate the protocol (`worker/src/iroh-relay.js`)

A message that is not binary, is malformed, comes out of phase, is a pong that nobody
waits for, exceeds the budget or arrives after the room has expired shuts its socket:
it is archived, at once or, when it was the answer to the challenge, when the check of
that answer is over.  From then on nothing is sent to the socket, and its messages
change nothing but the socket itself.

`Shut` is what holds of such a socket, kept by every act (`Shut.act`); `violation_pauses`
says that the handler of the message has shut it when it first waits.
-/
import IrohExperiment.Relay.Budget

namespace IrohExperiment.Relay

open Coop Coroutine

variable {P : Platform} {κ : Trigger Event Point → World → Prop}
    {ls ls' : List (Label Event Effect)}
  {c c' c₁ c₂ : RoomConfig} {w w' u : World} {ws : SocketId} {h n : ℕ} {α β : Type}

/-! ## Violations -/

/-- The attachment after a frame was counted, with the clock read from reading `n`
on. -/
def Attachment.counted (P : Platform) (n : ℕ) (info : Attachment) (bytes : Bytes) : Attachment :=
  (if info.bucket + 10000 ≤ P.clock n then
      { info with bucket := P.clock (n + 1), bucketMessages := 1 }
    else { info with bucketMessages := info.bucketMessages + 1 }).plus (World.messageCounts bytes)

/-- The message is not one that a socket with attachment `info` may send, when the
clock is read from reading `n` on. -/
inductive Violates (P : Platform) (n : ℕ) (info : Attachment) : Message → Prop
  /-- The room has expired. -/
  | expired {m : Message} (hexpired : info.expires ≤ P.clock n) : Violates P n info m
  /-- The message is not binary. -/
  | text (s : Text) : Violates P n info (.text s)
  /-- A limit is exceeded. -/
  | budget {bytes : Bytes} (hbudget : overBudget (info.counted P (n + 1) bytes) = true) :
      Violates P n info (.binary bytes)
  /-- An answer to the challenge is being checked. -/
  | outOfPhase {m : Message} (hphase : info.phase = .verifying) : Violates P n info m
  /-- The answer to the challenge is malformed. -/
  | badAuth {bytes : Bytes} (hphase : info.phase = .challenge) (hauth : clientAuth bytes = none) :
      Violates P n info (.binary bytes)
  /-- The frame is malformed. -/
  | badFrame {bytes : Bytes} (hphase : info.phase = .authenticated)
      (hframe : clientFrame (.binary bytes) = none) : Violates P n info (.binary bytes)
  /-- The frame is a pong for no pending ping. -/
  | unexpectedPong {bytes frame : Bytes} (hphase : info.phase = .authenticated)
      (hframe : clientFrame (.binary bytes) = some (.pong frame))
      (hpending : info.pendingPing ≠ some (hex (frame.drop 1))) : Violates P n info (.binary bytes)

/-! ## Counting a message -/

/-- Nothing but the attachment of `ws` has changed, apart from clock readings and
histories that do not matter here. -/
structure Aside (ws : SocketId) (w u : World) (info : Attachment) : Prop where
  others : ∀ T, T ≠ ws → u.socket T = w.socket T
  own : u.socket ws = { w.socket ws with attachment := some info }
  wire : u.past.wire = w.past.wire
  arrivals : u.past.arrivals = w.past.arrivals
  current : u.past.current = w.past.current
  reads : w.reads ≤ u.reads

theorem Aside.info {info : Attachment} (h : Aside ws w u info) : u.info ws = some info := by
  rw [World.info, h.own]

theorem aside_tick {info : Attachment} (hinfo : w.info ws = some info) :
    Aside ws w w.tick info := by
  refine ⟨fun _ _ => rfl, ?_, rfl, rfl, rfl, Nat.le_succ _⟩
  show w.socket ws = _
  rw [← (show (w.socket ws).attachment = some info from hinfo)]

theorem bind_of_done {t : Async α} {f : α → Async β} {a : α} (ht : t w = .done a u) :
    (t >>= f) w = f a u := by
  rw [Coroutine.bind_apply, ht]
  rfl

/-- Counting a message changes counters and the bucket only. -/
theorem counted_face (P : Platform) (n : ℕ) (info : Attachment) (bytes : Bytes) :
    (info.counted P n bytes).phase = info.phase ∧ (info.counted P n bytes).id = info.id ∧
      (info.counted P n bytes).archived = info.archived ∧
      (info.counted P n bytes).deadline = info.deadline ∧
      (info.counted P n bytes).challenge = info.challenge ∧
      (info.counted P n bytes).pendingPing = info.pendingPing := by
  unfold Attachment.counted
  split_ifs <;> exact ⟨rfl, rfl, rfl, rfl, rfl, rfl⟩

/-- A message is counted before anything else is done with it. -/
theorem countMessage_eq (P : Platform) (ws : SocketId) (info : Attachment) (bytes : Bytes)
    (w : World) :
    ∃ W, countMessage P ws info bytes w =
        .done (info.counted P w.reads bytes, P.clock w.reads) W ∧
      Aside ws w W (info.counted P w.reads bytes) := by
  have counted : ∀ (s : World) (info' : Attachment), s.socket = w.socket → s.past = w.past →
      w.reads ≤ s.reads → Aside ws w (s.amend ws info' (World.messageCounts bytes))
        (info'.plus (World.messageCounts bytes)) := by
    intro s info' hsocket hpast hreads
    refine ⟨fun T hT => by simp [hT, hsocket], by simp [hsocket], ?_, ?_, ?_, hreads⟩ <;>
      simp [hpast]
  by_cases hnew : info.bucket + 10000 ≤ P.clock w.reads
  · refine ⟨w.tick.tick.amend ws { info with bucket := P.clock (w.reads + 1), bucketMessages := 1 }
      (World.messageCounts bytes), ?_, ?_⟩
    · simp [countMessage, dateNow, hnew, increment, serializeAttachment, World.amend, World.charge,
        World.messageCounts, Attachment.counted, Attachment.plus, add_assoc]
    · rw [Attachment.counted, if_pos hnew]
      exact counted _ _ rfl rfl (Nat.le_add_right _ 2)
  · refine ⟨w.tick.amend ws { info with bucketMessages := info.bucketMessages + 1 }
      (World.messageCounts bytes), ?_, ?_⟩
    · simp [countMessage, dateNow, hnew, increment, serializeAttachment, World.amend, World.charge,
        World.messageCounts, Attachment.counted, Attachment.plus, add_assoc]
    · rw [Attachment.counted, if_neg hnew]
      exact counted _ _ rfl rfl (Nat.le_succ _)

/-- What happens to a message that was counted and is within the budget. -/
def dispatch (P : Platform) (ws : SocketId) (info : Attachment) (bytes : Bytes) : Async Unit :=
  if info.phase = .challenge then await .authorize (authorize P ws bytes)
  else if info.phase ≠ .authenticated then raise .inProgress
  else match clientFrame (.binary bytes) with
    | none => raise .badFrame
    | some data => serve P ws data

/-- What an authenticated client sends is a client frame, or an error. -/
theorem dispatch_authenticated {info : Attachment} {bytes : Bytes}
    (hphase : info.phase = .authenticated) :
    dispatch P ws info bytes = match clientFrame (.binary bytes) with
      | none => raise .badFrame
      | some data => serve P ws data := by
  rw [dispatch, hphase]
  rfl

/-- A message is rejected, or counted and passed on. -/
theorem handleMessage_cases {info : Attachment} (hinfo : w.info ws = some info) (m : Message) :
    (∃ e u info', handleMessage P ws m w = .fail e u ∧ Aside ws w u info' ∧
        info'.archived = info.archived ∧ info'.id = info.id) ∨
      ∃ bytes W, m = .binary bytes ∧ info.archived = false ∧ P.clock w.reads < info.expires ∧
        overBudget (info.counted P (w.reads + 1) bytes) = false ∧
        Aside ws w W (info.counted P (w.reads + 1) bytes) ∧
        handleMessage P ws m w = dispatch P ws (info.counted P (w.reads + 1) bytes) bytes W := by
  have hself : Aside ws w w info := by
    refine ⟨fun _ _ => rfl, ?_, rfl, rfl, rfl, le_rfl⟩
    rw [← (show (w.socket ws).attachment = some info from hinfo)]
  rw [handleMessage, bind_of_done
    (show attachment ws w = .done (some info) w by simp [attachment, hinfo])]
  dsimp only
  cases hlive : info.archived with
  | true => exact .inl ⟨.expired, w, info, rfl, hself, hlive, rfl⟩
  | false =>
    rw [if_neg (by simp), bind_of_done (show dateNow P w = .done (P.clock w.reads) w.tick from rfl)]
    by_cases hexpired : info.expires ≤ P.clock w.reads
    · rw [if_pos hexpired]
      exact .inl ⟨.expired, w.tick, info, rfl, aside_tick hinfo, hlive, rfl⟩
    rw [if_neg hexpired]
    cases m with
    | text s => exact .inl ⟨.binaryRequired, w.tick, info, rfl, aside_tick hinfo, hlive, rfl⟩
    | binary bytes =>
      obtain ⟨W, hrun, hW⟩ := countMessage_eq P ws info bytes w.tick
      have hW' : Aside ws w W (info.counted P (w.reads + 1) bytes) :=
        ⟨hW.others, hW.own, hW.wire, hW.arrivals, hW.current, (Nat.le_succ _).trans hW.reads⟩
      dsimp only
      rw [bind_of_done hrun]
      dsimp only
      cases hbudget : overBudget (info.counted P w.tick.reads bytes) with
      | true =>
        rw [if_pos rfl]
        obtain ⟨-, hid, harch, -⟩ := counted_face P (w.reads + 1) info bytes
        exact .inl ⟨.budget, W, _, rfl, hW', harch.trans hlive, hid⟩
      | false =>
        rw [if_neg (by simp)]
        refine .inr ⟨bytes, W.take ws bytes.length (P.clock w.tick.reads), rfl, rfl,
          not_le.mp hexpired, hbudget, ?_, rfl⟩
        exact ⟨hW'.others, hW'.own, hW'.wire, hW'.arrivals, hW'.current, hW'.reads⟩

/-! ## Sockets that are shut -/

/-- `ws` is archived, or it will never be authenticated: the answer to its challenge
that handler `h` checks is malformed, or its deadline has passed before an answer was
verified. -/
inductive Shut (P : Platform) (h : ℕ) (ws : SocketId) (w : World) : Prop
  | archived (harch : Archived w.info ws)
  | unproved {info : Attachment} {bytes : Bytes} (hinfo : w.info ws = some info)
      (hphase : info.phase = .verifying) (hauthorizer : (w.socket ws).authorizer = some h)
      (hevent : w.past.arrivals[h]? = some (.message ws (.binary bytes)))
      (hauth : clientAuth bytes = none)
  | overdue {info : Attachment} (hinfo : w.info ws = some info)
      (hphase : info.phase ≠ .authenticated)
      (hdue : (w.socket ws).due ≤ P.clock w.reads)
      (hverified : ∀ v, (w.socket ws).verifiedAt = some v → (w.socket ws).due ≤ P.clock v)

/-- A socket that is shut has no route. -/
theorem Shut.not_routed (hs : Shut P h ws w) (id : Text) : ¬ Routed w.info ws id := by
  rintro ⟨info, hinfo, hphase, hlive, -⟩
  cases hs with
  | archived harch =>
    obtain ⟨i, hi, harch⟩ := harch
    obtain rfl := Option.some.inj (hinfo.symm.trans hi)
    simp [hlive] at harch
  | unproved hi hphase' =>
    obtain rfl := Option.some.inj (hinfo.symm.trans hi)
    simp [hphase] at hphase'
  | overdue hi hphase' =>
    obtain rfl := Option.some.inj (hinfo.symm.trans hi)
    exact hphase' hphase

/-- Whatever is done in the room, a socket that is shut stays shut. -/
theorem Shut.act (hI : Inv P w) (hs : Shut P h ws w) (ha : Act P κ w w') : Shut P h ws w' := by
  have hext := ha.extends hI
  have retired : ∀ {info : Attachment} {seen : View}, w'.socket ws = { w.socket ws with
      attachment := some { info with archived := true },
        departure := .retired w.past.current seen } →
      Shut P h ws w' := by
    intro info seen hsocket
    exact .archived ⟨{ info with archived := true }, by rw [World.info, hsocket], rfl⟩
  cases hs with
  | archived harch => exact .archived (hext.archived hI harch)
  | @unproved info bytes hinfo hphase hauthorizer hevent hauth =>
    have hcount := hI.lt_count hinfo
    have hauthorizer' := (hext.socket ws hcount).authorizer h hauthorizer
    have keep : ∀ info', w'.info ws = some info' → info'.phase = info.phase → Shut P h ws w' :=
      fun info' hinfo' hsame =>
        .unproved hinfo' (hsame.trans hphase) hauthorizer' (hext.event hevent) hauth
    have hattachment : (w.socket ws).attachment = some info := hinfo
    cases ha.alters ws with
    | same hsocket => exact keep info (by rw [World.info, hsocket, hattachment]) rfl
    | @touched i info' _ hi _ halike _ _ hsocket =>
      obtain rfl := Option.some.inj (hinfo.symm.trans hi)
      exact keep info' (by rw [World.info, hsocket]) halike.phase
    | accepted hnew => exact absurd hnew hcount.ne
    | connected _ _ hsocket => exact keep info (by rw [World.info, hsocket, hattachment]) rfl
    | verify hi _ hchallenge =>
      obtain rfl := Option.some.inj (hinfo.symm.trans hi)
      simp [hphase] at hchallenge
    | verified _ _ hsocket => exact keep info (by rw [World.info, hsocket, hattachment]) rfl
    | claimed hc =>
      -- the claim would have been proved by the malformed answer
      obtain ⟨frame, hframe, auth, hvalid, -⟩ := hc.event
      have hcur := Option.some.inj (hc.authorizer.symm.trans hauthorizer)
      rw [World.event, hcur, hevent] at hframe
      obtain ⟨-, hbytes⟩ := Event.message.inj (Option.some.inj hframe)
      rw [← Message.binary.inj hbytes, hauth] at hvalid
      cases hvalid
    | retired _ _ _ hsocket => exact retired hsocket
    | departed _ _ _ _ hsocket => exact keep info (by rw [World.info, hsocket, hattachment]) rfl
  | @overdue info hinfo hphase hdue hverified =>
    have hcount := hI.lt_count hinfo
    have hsame := (hext.socket ws hcount).due
    have hdue' := hdue.trans (P.clock_mono hext.reads)
    have keep : ∀ info', w'.info ws = some info' → info'.phase ≠ .authenticated →
        (w'.socket ws).verifiedAt = (w.socket ws).verifiedAt → Shut P h ws w' := by
      intro info' hinfo' hne hv
      exact .overdue hinfo' hne (hsame.symm ▸ hdue') (by rw [hv, hsame]; exact hverified)
    have hattachment : (w.socket ws).attachment = some info := hinfo
    cases ha.alters ws with
    | same hsocket =>
      exact keep info (by rw [World.info, hsocket, hattachment]) hphase (by rw [hsocket])
    | @touched i info' _ hi _ halike _ _ hsocket =>
      obtain rfl := Option.some.inj (hinfo.symm.trans hi)
      exact keep info' (by rw [World.info, hsocket]) (halike.phase ▸ hphase) (by rw [hsocket])
    | accepted hnew => exact absurd hnew hcount.ne
    | connected _ _ hsocket =>
      exact keep info (by rw [World.info, hsocket, hattachment]) hphase (by rw [hsocket])
    | @verify i frame hi _ _ _ hsocket =>
      exact keep { i with phase := .verifying } (by rw [World.info, hsocket])
        (fun heq => by cases heq) (by rw [hsocket])
    | verified _ _ hsocket =>
      have hinfo' : w'.info ws = some info := by rw [World.info, hsocket, hattachment]
      refine .overdue hinfo' hphase (hsame.symm ▸ hdue') fun v hv => ?_
      rw [hsocket] at hv ⊢
      obtain rfl := Option.some.inj hv
      exact hdue
    | claimed hc =>
      -- the claim would have been verified in time
      obtain ⟨v, t, hv, hle, hlt⟩ := hc.intime
      exact absurd ((hverified v hv).trans (P.clock_mono hle)) (not_le.mpr hlt)
    | retired _ _ _ hsocket => exact retired hsocket
    | departed _ _ _ _ hsocket =>
      exact keep info (by rw [World.info, hsocket, hattachment]) hphase (by rw [hsocket])

/-- A socket that is shut stays shut whatever the platform does. -/
theorem Shut.rests (hs : Shut P h ws w) (hrest : Rests P w w') : Shut P h ws w' := by
  obtain ⟨r, hsocket⟩ := hrest.socket ws
  have hinfo := hrest.info_eq
  cases hs with
  | archived harch => exact .archived (hinfo.symm ▸ harch)
  | unproved hi hphase hauthorizer hevent hauth =>
    exact .unproved (hinfo.symm ▸ hi) hphase (by rwa [hsocket]) (hrest.extends_.event hevent) hauth
  | overdue hi hphase hdue hverified =>
    refine .overdue (hinfo.symm ▸ hi) hphase ?_ ?_ <;> rw [hsocket]
    · rw [hrest.reads]
      exact hdue
    · exact hverified

/-! ## The stretch that a violation arrives in -/

/-- A connection is closed, if that does not throw. -/
theorem close_run (P : Platform) (ws : SocketId) (code : ℕ) (reason : Text) (w : World) :
    ∃ s, ((wsClose P ws code reason).rescue fun _ => pure ()) w = .done () s ∧ s.info = w.info ∧
      (∀ T, T ≠ ws → s.socket T = w.socket T) ∧ s.past = w.past := by
  cases hthrows : P.throws w.calls with
  | true => exact ⟨w.call, by simp [wsClose, hthrows], rfl, fun _ _ => rfl, rfl⟩
  | false =>
    refine ⟨w.call.close ws code reason,
      by simp [wsClose, hthrows], ?_, fun T hT => by simp [hT], rfl⟩
    funext T
    by_cases hT : T = ws <;> simp [World.info, hT]

/-- A contract about the current stretch only: it ends in a state that `S` admits. -/
def untilPause (S : World → Prop) : Contract Point World :=
  ⟨fun _ s => S s, fun _ _ => False, fun _ _ => True⟩

/-- The current stretch ends in a state that `S` admits. -/
def Pauses (S : World → Prop) (s₀ : World) (o : Outcome Point World Fault α) : Prop :=
  o.Sat (untilPause S) (fun _ _ s => S s) (fun _ _ s => S s) s₀

namespace Pauses

variable {S S' : World → Prop} {s₀ : World}

theorem mono {o : Outcome Point World Fault α} (ho : Pauses S s₀ o) (hS : ∀ s, S s → S' s) :
    Pauses S' s₀ o := by
  cases o with
  | done a s => exact hS s ho
  | fail e s => exact hS s ho
  | suspend p s k => exact ⟨hS s ho.1, fun _ hF => hF.elim⟩

theorem await {site : Site} {t : Async α} (ht : Pauses S s₀ (t w)) :
    Pauses S s₀ ((await site t) w) :=
  (sat_await _ t).mpr (Outcome.Sat.mono ht (fun _ _ _ hs => ⟨hs, fun _ hF => hF.elim⟩)
    fun _ _ _ hs => ⟨hs, fun _ hF => hF.elim⟩)

/-- The stretch ends where a request is made. -/
theorem request_bind {site : Site} {op : Async α} {f : α → Async β} (hS : S w) :
    Pauses S s₀ ((request site op >>= f) w) :=
  (sat_bind _ f).mpr ((sat_await _ _).mpr ((sat_bind _ _).mpr
    ((sat_yield _).mpr ⟨hS, fun _ hF => hF.elim⟩)))

/-- The stretch ends where a method is awaited that fails. -/
theorem await_bind_fail {site : Site} {t : Async α} {f : α → Async β} {e : Fault}
    (ht : t w = .fail e u) (hS : S u) : Pauses S s₀ ((Relay.await site t >>= f) w) := by
  refine (sat_bind _ f).mpr ((sat_await _ t).mpr ?_)
  rw [ht]
  exact ⟨hS, fun _ hF => hF.elim⟩

theorem finish {code : ℕ} {reason : Text} {info : Attachment} (hinfo : w.info ws = some info)
    (hS : ∀ s, Archived s.info ws → s.past.wire = w.past.wire → S s) :
    Pauses S s₀ (finish P ws code reason w) := by
  cases hlive : info.archived with
  | true =>
    rw [finish_archived hinfo hlive]
    exact hS w ⟨info, hinfo, hlive⟩ rfl
  | false =>
    have harch : Archived (w.retired ws info).info ws :=
      ⟨{ info with archived := true }, by simp [World.info], rfl⟩
    rw [finish_live hinfo hlive]
    -- the connection is closed, and then a request is made
    obtain ⟨s, hrun, hsame, -, hpast⟩ := close_run P ws (closeCode code) reason (w.retired ws info)
    rw [windUp, bind_of_done hrun]
    refine request_bind (hS s (hsame ▸ harch) ?_)
    rw [hpast]
    rfl

/-- A message that is rejected at once shuts its socket. -/
theorem rejected {m : Message} {e : Fault} {info : Attachment}
    (hrun : handleMessage P ws m w = .fail e u) (hinfo : u.info ws = some info)
    (hS : ∀ s, Archived s.info ws → s.past.wire = u.past.wire → S s) :
    Pauses S s₀ (webSocketMessage P ws m w) := by
  rw [webSocketMessage, Coroutine.rescue_apply, hrun, Coroutine.rescue_fail]
  exact (finish hinfo hS).await

end Pauses

/-- Until somebody takes the answer to its challenge up, nothing is verified. -/
def World.Unverified (w : World) (ws : SocketId) : Prop :=
  (w.socket ws).authorizer = none → (w.socket ws).verifiedAt = none

/-- A pong that nobody waits for is counted and rejected. -/
theorem serve_unexpectedPong {info : Attachment} {frame : Bytes} (hinfo : w.info ws = some info)
    (hne : info.pendingPing ≠ some (hex (frame.drop 1))) :
    serve P ws (.pong frame) w = .fail .unexpectedPong (w.amend ws info (Pi.single .pong 1)) := by
  have hattach : attachmentOf ws w = .done info w := by simp [attachmentOf, hinfo]
  have hcount : increment info .pong 1 w =
    .done (info.plus (Pi.single .pong 1)) (w.charge (Pi.single .pong 1)) := rfl
  have hstore : serializeAttachment ws (info.plus (Pi.single .pong 1))
      (w.charge (Pi.single .pong 1)) = .done () (w.amend ws info (Pi.single .pong 1)) := rfl
  have hpong : some (hex (frame.drop 1)) ≠ (info.plus (Pi.single .pong 1)).pendingPing :=
    fun heq => hne heq.symm
  rw [serve, bind_of_done hattach]
  dsimp only
  rw [bind_of_done hcount, bind_of_done hstore, if_pos hpong]
  rfl

/-- An answer to the challenge that cannot be parsed shuts its socket: it is taken up
without being proved, or it is overdue. -/
theorem authorize_pauses {info : Attachment} {bytes : Bytes} {s₀ : World}
    (hcur : w.past.current = h) (hevent : w.past.arrivals[h]? = some (.message ws (.binary bytes)))
    (hinfo : w.info ws = some info) (hphase : info.phase = .challenge)
    (hchallenge : info.challenge = some (hex (w.socket ws).issued))
    (hdeadline : info.deadline = some (w.socket ws).due)
    (hnone : (w.socket ws).verifiedAt = none) (hauth : clientAuth bytes = none) :
    Pauses (fun s => Shut P h ws s ∧ s.past.wire = w.past.wire) s₀ (authorize P ws bytes w) := by
  have hattach : attachmentOf ws w = .done info w := by simp [attachmentOf, hinfo]
  have hnow : dateNow P w = .done (P.clock w.reads) w.tick := rfl
  rw [authorize, bind_of_done hattach, bind_of_done hnow]
  cases hreached : reached (P.clock w.reads) info.deadline with
  | true =>
    have hlate : (w.socket ws).due ≤ P.clock w.reads := by
      rw [hdeadline] at hreached
      exact of_decide_eq_true hreached
    rw [if_pos rfl]
    refine ⟨.overdue (show w.tick.info ws = some info from hinfo) (by simp [hphase]) ?_ ?_, rfl⟩
    · exact hlate.trans (P.clock_mono (Nat.le_succ _))
    · intro v hv
      exact absurd (hnone.symm.trans hv) (Option.some_ne_none v).symm
  | false =>
    have hstore : serializeAttachment ws { info with phase := .verifying } w.tick =
        .done () (w.tick.setInfo ws { info with phase := .verifying }) := rfl
    have hmark : mark ws (fun w s => { s with authorizer := some w.past.current })
        (w.tick.setInfo ws { info with phase := .verifying }) = .done () (w.tick.verify ws info) :=
          rfl
    rw [if_neg Bool.false_ne_true, bind_of_done hstore, bind_of_done hmark, hchallenge]
    have hmalformed : authenticate P bytes (unhex (hex (w.socket ws).issued))
        (w.tick.verify ws info) = .fail .invalidAuth (w.tick.verify ws info) := by
      rw [authenticate, hauth]
      rfl
    have hinfo' : (w.tick.verify ws info).info ws = some { info with phase := .verifying } := by
      simp [World.info]
    have hauthorizer : ((w.tick.verify ws info).socket ws).authorizer = some h := by
      simp [hcur]
    exact .await_bind_fail hmalformed ⟨.unproved hinfo' rfl hauthorizer hevent hauth, rfl⟩

/-- The handler of a violation shuts the socket before it can be suspended, and sends it nothing.
-/
theorem violation_pauses {m : Message} {info : Attachment} {s₀ : World} (hI : Inv P w)
    (hcur : w.past.current = h) (hevent : w.past.arrivals[h]? = some (.message ws m))
    (hinfo : w.info ws = some info) (hunverified : w.Unverified ws)
    (hv : Violates P w.reads info m) :
    Pauses (fun s => Shut P h ws s ∧ s.past.wire = w.past.wire ∧
      (info.phase ≠ .challenge → Archived s.info ws)) s₀ (webSocketMessage P ws m w) := by
  have archived : ∀ {u s : World}, u.past.wire = w.past.wire → Archived s.info ws →
      s.past.wire = u.past.wire → Shut P h ws s ∧ s.past.wire = w.past.wire ∧
      (info.phase ≠ .challenge → Archived s.info ws) :=
    fun hu harch hs => ⟨.archived harch, hs.trans hu, fun _ => harch⟩
  rcases handleMessage_cases hinfo m with ⟨e, u, info', hrun, hu, -⟩ |
    ⟨bytes, W, rfl, hlive, hexpires, hbudget, hW, hrun⟩
  · exact .rejected hrun hu.info fun s => archived hu.wire
  obtain ⟨hphase, hid, harch, hdeadline, hchallenge, hpending⟩ :=
    counted_face P (w.reads + 1) info bytes
  generalize hcounted : info.counted P (w.reads + 1) bytes = info' at *
  obtain hp | hp | hp : info.phase = .verifying ∨ info.phase = .authenticated ∨
      info.phase = .challenge := by
    cases info.phase <;> simp
  · -- an answer to the challenge is being checked
    have hfail : handleMessage P ws (.binary bytes) w = .fail .inProgress W := by
      rw [hrun, dispatch, hphase, hp]
      rfl
    exact .rejected hfail hW.info fun s => archived hW.wire
  · rw [dispatch_authenticated (hphase.trans hp)] at hrun
    cases hframe : clientFrame (.binary bytes) with
    | none =>
      rw [hframe] at hrun
      exact .rejected hrun hW.info fun s => archived hW.wire
    | some data =>
      -- what is left is a pong that nobody waits for
      obtain ⟨frame, rfl, hne⟩ : ∃ frame, data = .pong frame ∧
          info.pendingPing ≠ some (hex (frame.drop 1)) := by
        cases hv with
        | expired h => exact absurd h (not_le.mpr hexpires)
        | budget h => simp [hcounted, hbudget] at h
        | outOfPhase h => simp [hp] at h
        | badAuth h => simp [hp] at h
        | badFrame _ h => simp [hframe] at h
        | unexpectedPong _ h hne => exact ⟨_, Option.some.inj (hframe.symm.trans h), hne⟩
      have hserve : serve P ws (.pong frame) W =
          .fail .unexpectedPong (W.amend ws info' (Pi.single .pong 1)) :=
        serve_unexpectedPong hW.info (hpending ▸ hne)
      rw [hframe] at hrun
      have hinfo' : (W.amend ws info' (Pi.single .pong 1)).info ws =
          some (info'.plus (Pi.single .pong 1)) := W.amend_info_self ws info' _
      exact .rejected (hrun.trans hserve) hinfo' fun s => archived hW.wire
  · have hauth : clientAuth bytes = none := by
      cases hv with
      | expired h => exact absurd h (not_le.mpr hexpires)
      | budget h => simp [hcounted, hbudget] at h
      | outOfPhase h => simp [hp] at h
      | badAuth _ h => exact h
      | badFrame h => simp [hp] at h
      | unexpectedPong h => simp [hp] at h
    have hshape := hI.shape ws info hinfo
    obtain ⟨-, hissued, hdue⟩ := hshape.handshake (by simp [hp])
    have hnone := hshape.waiting.mp hp
    have hdispatch : dispatch P ws info' bytes = await .authorize (authorize P ws bytes) := by
      rw [dispatch, if_pos (hphase.trans hp)]
    rw [hdispatch] at hrun
    rw [webSocketMessage, Coroutine.rescue_apply, hrun]
    have hown : (W.socket ws).issued = (w.socket ws).issued ∧
      (W.socket ws).due = (w.socket ws).due ∧
        (W.socket ws).verifiedAt = (w.socket ws).verifiedAt := by simp [hW.own]
    have hpause : Pauses (fun s => Shut P h ws s ∧ s.past.wire = W.past.wire) s₀
        (authorize P ws bytes W) :=
      authorize_pauses (hW.current.trans hcur) (hW.arrivals ▸ hevent) hW.info (hphase.trans hp)
        (by rw [hchallenge, hissued, hown.1]) (by rw [hdeadline, hdue, hown.2.1])
        (hown.2.2.trans (hunverified hnone)) hauth
    have hpaused := hpause.mono fun s hs => (⟨hs.1, hs.2.trans hW.wire, fun hne => absurd hp hne⟩ :
      Shut P h ws s ∧ s.past.wire = w.past.wire ∧ (info.phase ≠ .challenge → Archived s.info ws))
    exact (sat_rescue _ _).mpr ((sat_await _ _).mpr (Outcome.Sat.mono hpaused
      (fun _ _ _ hs => ⟨hs, fun _ hF => hF.elim⟩) fun _ _ _ hs => ⟨hs, fun _ hF => hF.elim⟩))

end IrohExperiment.Relay
