/-
# The messages of a client keep their contracts (`worker/src/iroh-relay.js`)

`authorize` and `route` suspend in the middle of what they do, so what their
handler has begun and not finished is followed through: the authentication it took
up, the datagram it has not settled.  A handler whose message is rejected can say
what was wrong with it (`Failing`).

`authenticate_ensures`, `claim_ensures` and `authorize_ensures` are the contracts of the
handshake: a claim is made by a valid authentication, older sockets of the id are retired
one after the other, and the handler goes on where it was whatever others did.
-/
import IrohExperiment.Relay.Closing

namespace IrohExperiment.Relay

open Coop Coroutine

variable {P : Platform} {κ : Trigger Event Point → World → Prop} {h : ℕ} {E : Fault → World → Prop}
  {s₀ w w' : World} {ws : SocketId} {id : Text}

/-! ## What a handler has pending -/

/-- Handler `h` has nothing pending but the authentication of `mine` and a datagram
from `source`. -/
structure Pending (h : ℕ) (mine source : Option SocketId) (w : World) : Prop where
  owes : ∀ T, ¬ w.Owes h T
  unsettled : ∀ T, h ∈ (w.socket T).unsettled → source = some T
  authorizer : ∀ T, (w.socket T).authorizer = some h → mine = some T

/-- What a handler has pending waits for it. -/
theorem Pending.since {mine source : Option SocketId} (hb : Pending h mine source w)
    (hs : Since h w w') : Pending h mine source w' :=
  ⟨fun T ho => hb.owes T (hs.owes T ho), fun T hu => hb.unsettled T ((hs.spares.unsettled T).mp hu),
    fun T ha => hb.authorizer T (hs.spares.authorizer T ha)⟩

/-- Attachments do not matter. -/
theorem Pending.of_attachments {mine source : Option SocketId} (hb : Pending h mine source w)
    (hsocket : ∀ T, ∃ a, w'.socket T = { w.socket T with attachment := a }) :
    Pending h mine source w' := by
  refine ⟨fun T ho => hb.owes T ?_, fun T hu => ?_, fun T ha => ?_⟩ <;>
    obtain ⟨a, ha'⟩ := hsocket T
  · rwa [World.Owes, ha'] at ho
  · rw [ha'] at hu
    exact hb.unsettled T hu
  · rw [ha'] at ha
    exact hb.authorizer T ha

theorem Pending.of_socket {mine source : Option SocketId} {u : World} (hb : Pending h mine source w)
    (hsocket : u.socket = w.socket) : Pending h mine source u :=
  hb.of_attachments fun T => ⟨(w.socket T).attachment, by rw [hsocket]⟩

/-- `h` has claimed `id` for `ws` with message `m` and has not confirmed it yet. -/
structure Claimant (h : ℕ) (ws : SocketId) (m : Message) (id : Text) (w : World) : Prop where
  event : w.past.arrivals[h]? = some (.message ws m)
  pending : Pending h (some ws) none w
  authorizer : (w.socket ws).authorizer = some h
  authenticated : Authenticated w.info ws id
  unconfirmed : ¬ w.Confirmed ws

/-- A claim that was taken up is still open when the handler goes on. -/
theorem Claimant.since {m : Message} (hI : Inv P w) (hc : Claimant h ws m id w)
    (hs : Since h w w') : Claimant h ws m id w' :=
  ⟨hs.extends_.event hc.event, hc.pending.since hs,
    (hs.extends_.socket ws (hI.authorizer_lt hc.authorizer)).authorizer h hc.authorizer,
    hs.extends_.authenticated hI hc.authenticated,
    fun hconf => hc.unconfirmed (hs.spares.confirmed ws hc.authorizer hconf)⟩

/-- A message `m` from `ws` that arrived in `w₀` is rejected: the socket was retired
in the meantime, or the message was not proper, or something else is to blame. -/
def Failing (P : Platform) (κ : Trigger Event Point → World → Prop) (w₀ : World) (ws : SocketId)
    (m : Message) (w : World) : Prop :=
  Archived w.info ws ∨ (Proper P w₀ ws m → Blame P κ w ws m)

/-- A proper message from a live socket is welcome or servable. -/
theorem Proper.of_live {m : Message} {info : Attachment} (hp : Proper P w ws m)
    (hinfo : w.info ws = some info) (hlive : info.archived = false) :
    Welcome P w ws m ∨ Servable P w ws m :=
  hp.resolve_left (Live.not_archived ⟨info, hinfo, hlive⟩)

/-- A proper message from a socket that waits with its challenge is welcome. -/
theorem Proper.welcome {m : Message} (hp : Proper P w ws m) (hwaits : Waits w.info ws) :
    Welcome P w ws m := by
  obtain ⟨info, hinfo, hphase, hlive⟩ := hwaits
  refine (hp.of_live hinfo hlive).resolve_right ?_
  rintro ⟨info', _, _, hinfo', -, -, hphase', -⟩
  obtain rfl := Option.some.inj (hinfo.symm.trans hinfo')
  rw [hphase] at hphase'
  cases hphase'

/-- Blame is for good. -/
theorem Blame.extends (hws : ws < w.count) (hext : w.Extends w') {m : Message}
    (hb : Blame P κ w ws m) : Blame P κ w' ws m := by
  have hs := hext.socket ws hws
  cases hb with
  | expired ht hlate => exact .expired (ht.trans_le hext.reads) hlate
  | late hκ hwaits hlate => exact .late hκ hwaits hlate
  | overtaken hκ hlive hlate => exact .overtaken hκ hlive hlate
  | full hκ hm hvalid hid hfull => exact .full hκ hm (hs.issued ▸ hvalid) hid hfull
  | unsent hn hthrows => exact .unsent (hn.trans_le hext.calls) hthrows
  | noMeta hκ hknown hreads hmeta => exact .noMeta hκ hknown (hreads.trans hext.reads) hmeta

/-- A reason to fail is for good. -/
theorem Failing.extends (hI : Inv P w) (hws : ws < w.count) (hext : w.Extends w') {w₀ : World}
    {m : Message} (hf : Failing P κ w₀ ws m w) : Failing P κ w₀ ws m w' :=
  hf.imp (hext.archived hI) fun hb hwelcome => (hb hwelcome).extends hws hext

/-! ## `authorize` -/

/-- `authenticate` returns the id of a valid authentication, or throws because there is none. -/
theorem authenticate_ensures (hw : At P κ h s₀ w) (frame challenge : Bytes) :
    Ensures P κ h (fun id s => Since h w s ∧ ValidAuth P challenge frame id)
      (fun _ s => Since h w s ∧ ∀ id, ¬ ValidAuth P challenge frame id) s₀
      (authenticate P frame challenge w) := by
  cases hauth : clientAuth frame with
  | none =>
    simp only [authenticate, hauth]
    refine .raise hw ⟨since_refl h w, fun id ⟨auth, h, _⟩ => ?_⟩
    rw [hauth] at h
    cases h
  | some auth =>
    simp only [authenticate, hauth]
    have huniq : ∀ id, ValidAuth P challenge frame id → P.importable auth.publicKey = true ∧
        P.verifies auth.publicKey auth.signature (P.challengeMessage challenge) = true := by
      rintro id ⟨auth', hauth', himp, hver, -⟩
      obtain rfl := Option.some.inj (hauth.symm.trans hauth')
      exact ⟨himp, hver⟩
    refine .bind (Q := fun _ s => Since h w s ∧ P.importable auth.publicKey = true)
      (.request hw fun s s₁ hs hk _ => ?_) ?_
    · cases himp : P.importable auth.publicKey with
      | true => exact .pure hs fun s' _ hk' _ => ⟨hk.since.trans hw.inv hk'.since, rfl⟩
      | false =>
        refine .raise hs fun s' _ hk' _ => ⟨hk.since.trans hw.inv hk'.since, fun id hv => ?_⟩
        rw [himp] at huniq
        cases (huniq id hv).1
    · rintro - s s₁ hs ⟨hsince, himp⟩
      refine .bind (Q := fun _ s => Since h w s ∧ P.verifies auth.publicKey auth.signature
        (P.challengeMessage challenge) = true) (.request hs fun s' s₂ hs' hk _ => ?_) ?_
      · have hsince' := hsince.trans hw.inv hk.since
        cases hver : P.verifies auth.publicKey auth.signature (P.challengeMessage challenge) with
        | true => exact .pure hs' fun s'' _ hk' _ => ⟨hsince'.trans hw.inv hk'.since, rfl⟩
        | false =>
          refine .raise hs' fun s'' _ hk' _ => ⟨hsince'.trans hw.inv hk'.since, fun id hv => ?_⟩
          rw [hver] at huniq
          cases (huniq id hv).2
      · rintro - s' s₂ hs' ⟨hsince', hver⟩
        exact .pure hs' ⟨hsince', auth, hauth, himp, hver, rfl⟩

theorem World.later_refl (w : World) : w.Later w := ⟨rfl, rfl, rfl, rfl, le_rfl⟩

/-- A socket that carries an id is authenticated. -/
theorem Inv.routed_of_carries (hI : Inv P w) {T : SocketId} {info : Attachment}
    (hinfo : w.info T = some info) (hc : info.carries id = true) : Routed w.info T id := by
  obtain ⟨hid, harch⟩ : info.id = some id ∧ info.archived = false := by
    simpa [Attachment.carries] using hc
  refine ⟨info, hinfo, ?_, harch, hid⟩
  by_contra hp
  rw [((hI.shape T info hinfo).handshake hp).1] at hid
  cases hid

/-- Who is authenticated has been accepted. -/
theorem Inv.lt_of_authenticated (hI : Inv P w) (ha : Authenticated w.info ws id) :
    ws < w.count := by
  obtain ⟨info, hinfo, -⟩ := ha
  exact hI.lt_count hinfo

/-- The loop of `authorize` when its handler goes on after it retired a socket. -/
theorem retireOthers_ensures {m : Message} {w₀ : World} {rest others : List SocketId}
    (hw : At P κ h s₀ w) (hc : Claimant h ws m id w)
    (hκ : κ (.resume (.answered (.retireOld ws id rest))) w₀)
    (hlater : w₀.Later w) (hsub : others ⊆ rest) :
    Ensures P κ h (fun _ s => Since h w s) E s₀ (retireOthers P ws id others w) := by
  induction others generalizing s₀ w w₀ rest with
  | nil => exact .pure hw (since_refl h w)
  | cons old others ih =>
    refine .step rfl ?_
    cases hb : (decide (old ≠ ws) && (w.info old).any fun other => other.carries id) with
    | false =>
      refine .step (a := ()) (by rw [when_false]; rfl) ?_
      exact ih hw hc hκ hlater fun T hT => hsub (List.mem_cons_of_mem _ hT)
    | true =>
      rw [Bool.and_eq_true, decide_eq_true_eq, Option.any_eq_true] at hb
      obtain ⟨hne, other, hother, hcarries⟩ := hb
      have hrouted := hw.inv.routed_of_carries hother hcarries
      refine .bind (Q := fun _ s => Since h w s ∧
        κ (.resume (.answered (.retireOld ws id others))) s) ?_ ?_
      · rw [when_true]
        refine .await ((finish_ensures hw hc.event (fun S hS => ?_)
          (fun info hinfo hlive => ?_) _ _).mono
          (fun _ s s₁ hs hsince s' hs' hk hκ' => ⟨hsince.1.trans hw.inv hk.since, hκ'⟩)
          fun _ _ _ _ hE => hE)
        · obtain rfl := Option.some.inj hS
          exact .inr ⟨id, hc.authenticated⟩
        · obtain ⟨info', hinfo', -, -, hid⟩ := hrouted
          obtain rfl := Option.some.inj (hinfo.symm.trans hinfo')
          exact .superseded (hw.event hc.event) (hw.current.symm ▸ hc.authorizer) hne.symm
            hc.authenticated hid hκ hlater (hsub List.mem_cons_self)
      · rintro - s s₁ hs ⟨hsince, hκ'⟩
        refine (ih hs (hc.since hw.inv hsince) hκ' s.later_refl
          (List.Subset.refl _)).mono (fun _ _ _ _ hs' => hsince.trans hw.inv hs')
          fun _ _ _ _ hE => hE

/-- A claim authenticates its socket. -/
theorem World.claimed_info_self (w : World) (ws : SocketId) (info : Attachment) (id : Text) :
    Authenticated (w.claimed ws info id).info ws id := by
  refine ⟨_, by simp [World.info]; rfl, rfl, rfl⟩

/-- A claim leaves the other attachments alone. -/
theorem World.claimed_info_ne {info : Attachment} {T : SocketId} (hT : T ≠ ws) :
    (w.claimed ws info id).info T = w.info T := by
  simp [World.info, hT]

theorem World.amend_socket_eq (w : World) (ws : SocketId) (info : Attachment) (made : Counters)
    (T : SocketId) :
    ∃ a, (w.amend ws info made).socket T = { w.socket T with attachment := a } := by
  by_cases hT : T = ws
  · subst hT
    exact ⟨_, by simp; rfl⟩
  · exact ⟨(w.socket T).attachment, by simp [hT]⟩

theorem World.sent_socket_eq (w : World) (ws : SocketId) (info : Attachment) (bytes : Bytes)
    (category : Option Counter) (about : Option SocketId) (T : SocketId) :
    ∃ a, (w.sent ws info bytes category about).socket T = { w.socket T with attachment := a } :=
  (w.transmit ws bytes about).amend_socket_eq ws info _ T

theorem World.claimed_socket_eq (w : World) (ws : SocketId) (info : Attachment) (id : Text)
    (T : SocketId) :
    ∃ a, (w.claimed ws info id).socket T = { w.socket T with attachment := a } :=
  w.amend_socket_eq ws _ _ T

theorem World.retired_socket_of_ne {info : Attachment} {T : SocketId} (hT : T ≠ ws) :
    (w.retired ws info).socket T = w.socket T := by
  simp [hT]

theorem World.retired_authorizer (w : World) (ws : SocketId) (info : Attachment) (T : SocketId) :
    ((w.retired ws info).socket T).authorizer = (w.socket T).authorizer ∧
      ((w.retired ws info).socket T).unsettled = (w.socket T).unsettled := by
  by_cases hT : T = ws
  · subst hT
    simp
  · simp [hT]

/-- A socket whose answer is being verified was not confirmed. -/
theorem Claims.not_confirmed {info : Attachment} (hI : Inv P w) (hc : Claims P κ w ws info id) :
    ¬ w.Confirmed ws := fun hconf => by
  obtain ⟨id', info', hinfo', hphase, -⟩ := hI.confirmed ws hconf
  obtain rfl := Option.some.inj (hc.stored.symm.trans hinfo')
  rw [hc.phase] at hphase
  cases hphase

/-- The claim takes the route over from an older socket, which is retired. -/
theorem reclaim_ensures {info other : Attachment} {m : Message} {old : SocketId}
    {others : List SocketId} (hw : At P κ h s₀ w)
    (he : w.past.arrivals[h]? = some (.message ws m)) (hb : Pending h (some ws) none w)
    (hc : Claims P κ w ws info id) (hne : old ≠ ws) (hother : w.info old = some other)
    (hrouted : Routed w.info old id) (code : ℕ) (reason : Text) :
    Ensures P κ h (fun _ s => Claimant h ws m id s ∧
        κ (.resume (.answered (.retireOld ws id others))) s) E s₀
      (await (.retireOld ws id others) (finish P old code reason) (w.claimed ws info id)) := by
  have hauth : (w.socket ws).authorizer = some h := hw.current ▸ hc.authorizer
  have hact : Act P κ w ((w.claimed ws info id).retired old other) :=
    .reclaim hc hne hother hrouted
  have hw₁ := hw.act hact
  have hext := hact.extends hw.inv
  have hlive : other.archived = false := hrouted.live_of_info hother
  have harch : ((w.claimed ws info id).retired old other).info old =
      some { other with archived := true } := by simp [World.info]
  have hdep := retired_departure (w.claimed ws info id) old other
  rw [show (w.claimed ws info id).past.current = h by simpa using hw.current] at hdep
  -- neither the claim nor the retirement alters who is at work on a socket
  have hkept : ∀ T, (((w.claimed ws info id).retired old other).socket T).authorizer =
      (w.socket T).authorizer ∧
      (((w.claimed ws info id).retired old other).socket T).unsettled =
        (w.socket T).unsettled := fun T => by
    obtain ⟨a, ha⟩ := w.claimed_socket_eq ws info id T
    rw [(World.retired_authorizer _ _ _ _).1, (World.retired_authorizer _ _ _ _).2, ha]
    exact ⟨rfl, rfl⟩
  have hauth₁ := (hkept ws).1.trans hauth
  have hauthenticated : Authenticated ((w.claimed ws info id).retired old other).info ws id := by
    have hself := w.claimed_info_self ws info id
    simp only [Authenticated, World.info] at hself ⊢
    rwa [World.retired_socket_of_ne hne.symm]
  refine .await ?_
  rw [finish_live (by rw [World.claimed_info_ne hne, hother]) hlive]
  refine (windUp_ensures hw₁ (hext.event he) (fun S hS => ?_) harch rfl hdep _ _).mono ?_
    fun _ _ _ _ hE => hE
  · obtain rfl := Option.some.inj hS
    exact .inr ⟨id, hauthenticated⟩
  -- the old socket is wound up, and nothing else has become due
  · rintro - s s₁ hs ⟨hsince, howes⟩ s' hs' hk hκ
    refine ⟨Claimant.since hs.inv ?_ hk.since, hκ⟩
    refine ⟨hsince.extends_.event (hext.event he),
      ⟨fun T ho => ?_, fun T hu => ?_, fun T ha => ?_⟩, ?_,
      hsince.extends_.authenticated hw₁.inv hauthenticated, fun hconf => ?_⟩
    · by_cases hT : T = old
      · exact howes (hT ▸ ho)
      · have ho' := hsince.owes T ho
        obtain ⟨a, ha⟩ := w.claimed_socket_eq ws info id T
        rw [World.Owes, World.retired_socket_of_ne hT, ha] at ho'
        exact hb.owes T ho'
    · exact hb.unsettled T ((hkept T).2 ▸ (hsince.spares.unsettled T).mp hu)
    · exact hb.authorizer T ((hkept T).1 ▸ hsince.spares.authorizer T ha)
    · exact (hsince.extends_.socket ws (hw₁.inv.authorizer_lt hauth₁)).authorizer h hauth₁
    · have hconf' := hsince.spares.confirmed ws hauth₁ hconf
      exact hc.not_confirmed hw.inv (by simpa [World.Confirmed] using hconf')

/-- The loop of `authorize` right after the claim: both together leave one route for
the id. -/
theorem retireOthers_claim {info : Attachment} {m : Message} {others : List SocketId}
    (hw : At P κ h s₀ w) (he : w.past.arrivals[h]? = some (.message ws m))
    (hb : Pending h (some ws) none w) (hc : Claims P κ w ws info id)
    (hothers : ∀ T, T ≠ ws → Routed w.info T id → T ∈ others) :
    Ensures P κ h (fun _ s => Claimant h ws m id s) E s₀
      (retireOthers P ws id others (w.claimed ws info id)) := by
  induction others with
  | nil =>
    have hact : Act P κ w (w.claimed ws info id) :=
      .claim hc fun old hne hrouted => nomatch hothers old hne hrouted
    refine .pure (hw.act hact) ⟨(hact.extends hw.inv).event he,
      hb.of_attachments (w.claimed_socket_eq ws info id), ?_, w.claimed_info_self ws info id, ?_⟩
    · obtain ⟨a, ha⟩ := w.claimed_socket_eq ws info id ws
      rw [ha]
      exact hw.current ▸ hc.authorizer
    · simpa [World.Confirmed] using hc.not_confirmed hw.inv
  | cons old others ih =>
    refine .step rfl ?_
    cases hb' : (decide (old ≠ ws) && ((w.claimed ws info id).info old).any fun other =>
        other.carries id) with
    | false =>
      refine .step (a := ()) (by rw [when_false]; rfl) (ih fun T hT hrouted => ?_)
      obtain rfl | hmem := List.mem_cons.mp (hothers T hT hrouted)
      · obtain ⟨other, hother, -, harch, hid⟩ := hrouted
        rw [World.claimed_info_ne hT, hother] at hb'
        simp [hT, Attachment.carries, hid, harch] at hb'
      · exact hmem
    | true =>
      rw [Bool.and_eq_true, decide_eq_true_eq, Option.any_eq_true] at hb'
      obtain ⟨hne, other, hother, hcarries⟩ := hb'
      rw [World.claimed_info_ne hne] at hother
      rw [when_true]
      refine .bind (reclaim_ensures hw he hb hc hne hother
        (hw.inv.routed_of_carries hother hcarries) _ _) ?_
      -- the claim is made, and the rest of the list is walked as by any claimant
      rintro - s s₁ hs ⟨hclaimant, hκ⟩
      exact (retireOthers_ensures hs hclaimant hκ s.later_refl
        (List.Subset.refl _)).mono (fun _ _ _ _ hs' => hclaimant.since hs.inv hs')
        fun _ _ _ _ hE => hE

/-- Storing `meta` leaves the sockets alone. -/
theorem putMeta_ensures {read new : RoomMeta} {mine : Option SocketId} (hw : At P κ h s₀ w)
    (hb : Pending h mine none w) (hping : read.ping ∈ w.past.pings)
    (hexpires : read.expires = tokenExpires P.token)
    (hr : ∀ s s₁, At P κ h s₁ s → Kept h w s → Renews P s read new) :
    Ensures P κ h (fun _ s => Pending h mine none s ∧ w.Extends s ∧
      h ∈ s.past.metaWriters) E s₀ (putMeta read new w) := by
  refine .request hw fun s s₁ hs hk hκ => ?_
  have hact : Act P κ s (s.putMeta new) :=
    .putMeta hκ (hk.extends_.pings.subset hping) hexpires (hr s s₁ hs hk)
  change Ensures P κ h _ _ s₁ (.done () (s.putMeta new))
  refine .act hs hact fun hs' s'' _ hk' _ => ⟨?_, ?_, ?_⟩
  · exact ((hb.since hk.since).of_socket (u := s.putMeta new) rfl).since hk'.since
  · exact (hk.extends_.trans (hact.extends hs.inv)).trans hk'.extends_
  · exact hk'.spares.writer.mpr (by simp [hs.current])

/-- `startPings` leaves the socket authenticated; if it throws there is something to blame. -/
theorem startPings_ensures {m : Message} (hw : At P κ h s₀ w)
    (he : w.past.arrivals[h]? = some (.message ws m)) (hb : Pending h (some ws) none w)
    (hauth : Authenticated w.info ws id) :
    Ensures P κ h (fun _ s => Pending h (some ws) none s ∧ Authenticated s.info ws id)
      (fun _ s => Pending h (some ws) none s ∧ Authenticated s.info ws id ∧ Blame P κ s ws m) s₀
      (startPings P w) := by
  refine .bind (Q := fun r s => Pending h (some ws) none s ∧ w.Extends s ∧
    (∀ meta_, r = some meta_ → meta_.expires = tokenExpires P.token ∧ meta_.ping ∈ s.past.pings) ∧
    (r = none → Blame P κ s ws m)) ?_ ?_
  · refine .request hw fun s s₁ hs hk hκ => .gets hs fun s' hs' hk' _ => ?_
    refine ⟨(hb.since hk.since).since hk'.since, hk.extends_.trans hk'.extends_, fun r hr => ?_,
      fun hr => .noMeta hκ ((hw.inv.lt_of_authenticated hauth).trans_le hk.extends_.count)
        hk'.extends_.reads hr⟩
    obtain ⟨hexpires, hping⟩ := hs.inv.roomMeta r hr
    exact ⟨hexpires, hk'.extends_.pings.subset hping⟩
  rintro (_ | r) s s₁ hs ⟨hb, hext, hmeta, hblame⟩
  · exact .raise hs ⟨hb, hext.authenticated hw.inv hauth, hblame rfl⟩
  obtain ⟨hexpires, hping⟩ := hmeta r rfl
  have hevent := hext.event he
  refine .bind (Q := fun _ s' => Pending h (some ws) none s' ∧ s.Extends s') ?_ ?_
  · refine .when hs (fun hnone => ?_) fun _ => ⟨hb, s.extends_refl⟩
    refine .step rfl ?_
    have hs' := hs.act .tick
    refine (putMeta_ensures hs' (hb.since (since_tick hs)) hping hexpires fun s' s₂ hs₂
      hk => ?_).mono
      (fun _ _ _ _ hs'' => ⟨hs''.1, (since_tick hs).extends_.trans hs''.2.1⟩) fun _ _ _ _ hE => hE
    exact .authorize (hs₂.event (hk.extends_.event (((since_tick hs).extends_).event hevent)))
      (Option.isNone_iff_eq_none.mp hnone)
  · rintro - s' s₂ hs' ⟨hb', hext'⟩
    refine .await ((schedule_ensures hs').mono (fun _ s₃ s₄ hs₃ hsince s₅ _ hk _ => ?_)
      fun _ _ _ _ hE => hE)
    have hsince' := hsince.trans hs'.inv hk.since
    exact ⟨hb'.since hsince',
      ((hext.trans hext').trans hsince'.extends_).authenticated hw.inv hauth⟩

/-- The part of `authorize` from the confirmation on. -/
theorem confirm_ensures {m : Message} {info : Attachment} (hw : At P κ h s₀ w)
    (hc : Claimant h ws m id w) (hinfo : w.info ws = some info) (hlive : info.archived = false) :
    Ensures P κ h (fun _ s => Pending h (some ws) none s ∧ Authenticated s.info ws id)
      (fun _ s => Pending h (some ws) none s ∧ Blame P κ s ws m) s₀
      ((do
        send P ws [2] none none
        note fun w past => { past with claiming := past.claiming.erase w.past.current }
        startPings P : Async Unit) w) := by
  obtain ⟨info', hinfo', hphase, hid⟩ := hc.authenticated
  obtain rfl := Option.some.inj (hinfo.symm.trans hinfo')
  have hcall := hw.act .call
  have hsince := since_call hw
  refine .bind (Q := fun _ s => s.past.arrivals[h]? = some (.message ws m) ∧
    Pending h (some ws) none s ∧ Authenticated s.info ws id ∧ (s.socket ws).authorizer = some h ∧
    s.Confirmed ws) ?_ ?_
  · rw [send_eq hinfo]
    cases hthrows : P.throws w.calls with
    | true =>
      rw [if_pos rfl]
      exact .fail hcall ⟨hc.pending.since hsince, .unsent (Nat.lt_succ_self w.calls) hthrows⟩
    | false =>
      rw [if_neg (by simp)]
      have hact : Act P κ w.call (w.call.sent ws info [2] none none) :=
        .touch (.send (.confirmation (hcall.current.symm ▸ hc.authorizer)
          ⟨info, hinfo, hphase, hlive, hid⟩ hc.unconfirmed) hinfo hlive)
      have hext := hact.extends hcall.inv
      refine .act hcall hact fun _ => ⟨hext.event hc.event, ?_,
        hext.authenticated hcall.inv hc.authenticated, ?_, ?_⟩
      · exact (hc.pending.since hsince).of_attachments
          (World.sent_socket_eq _ ws info [2] none none)
      · exact (hext.socket ws (hcall.inv.authorizer_lt hc.authorizer)).authorizer h hc.authorizer
      · exact ⟨⟨w.call.past.current, ws, [2], w.call.info, none⟩, by simp, rfl, rfl⟩
  · rintro - s s₁ hs ⟨hevent, hb, hauth, hauthorizer, hconfirmed⟩
    have hend : Act P κ s s.endClaim := .endClaim (hs.current.symm ▸ hauthorizer) hconfirmed
    have hext := hend.extends hs.inv
    refine .step (a := ()) (u := s.endClaim) rfl ?_
    exact (startPings_ensures (hs.act hend) (hext.event hevent) (hb.of_socket rfl)
      (hext.authenticated hs.inv hauth)).mono (fun _ _ _ _ hQ => hQ) fun _ _ _ _ hE =>
        ⟨hE.1, hE.2.2⟩

/-- The part of `authorize` from the claim on. -/
theorem claim_ensures {frame : Bytes} {allowed : Bool} {info : Attachment} {v : ℕ}
    (hw : At P κ h s₀ w) (he : w.past.arrivals[h]? = some (.message ws (.binary frame)))
    (hb : Pending h (some ws) none w) (hauth : (w.socket ws).authorizer = some h)
    (hvalid : ValidAuth P (w.socket ws).issued frame id)
    (hverified : (w.socket ws).verifiedAt = some v) (hv : v ≤ w.reads)
    (hinfo : w.info ws = some info) (hphase : info.phase = .verifying)
    (hκ : κ (.resume (.answered (.identities ws id))) w)
    (hallowed : allowed = true → w.past.wiped = true ∨ id ∈ w.ids)
    (hfull : allowed = false → Blame P κ w ws (.binary frame)) :
    Ensures P κ h (fun _ s => Pending h (some ws) none s ∧ Authenticated s.info ws id)
      (fun _ s => Pending h (some ws) none s ∧
        (Archived s.info ws ∨ Blame P κ s ws (.binary frame))) s₀ (claim P ws id allowed w) := by
  have hattach : ∀ w : World, w.info ws = some info → attachmentOf ws w = .done info w :=
    fun w hw => by simp [attachmentOf, hw]
  obtain ⟨hid, hchallenge, hdeadline⟩ := (hw.inv.shape ws info hinfo).handshake (by simp [hphase])
  have hexpires := (hw.inv.shape ws info hinfo).expires
  refine .step (hattach w hinfo) ?_
  cases hguard : (!allowed || info.archived) with
  | true =>
    rw [if_pos rfl]
    refine .raise hw ⟨hb, ?_⟩
    cases hallow : allowed with
    | false => exact .inr (hfull hallow)
    | true => exact .inl ⟨info, hinfo, by simpa [hallow] using hguard⟩
  | false =>
    obtain ⟨hallow, hlive⟩ : allowed = true ∧ info.archived = false := by
      simpa [Bool.or_eq_false_iff] using hguard
    rw [if_neg (by simp)]
    have hw₁ := hw.act .tick
    have hw₂ := hw₁.act .tick
    have hsince₁ := since_tick hw
    have hsince₂ := hsince₁.trans hw.inv (since_tick hw₁)
    refine .step rfl ?_
    rw [hdeadline]
    by_cases hdue : (w.socket ws).due ≤ P.clock w.reads
    · rw [if_pos (by simpa [reached] using hdue)]
      exact .raise hw₁ ⟨hb.since hsince₁, .inr (.overtaken hκ ⟨info, hinfo, hlive⟩ hdue)⟩
    rw [if_neg (by simpa [reached] using hdue)]
    refine .step rfl ?_
    by_cases hlate : info.expires ≤ P.clock w.tick.reads
    · rw [if_pos hlate]
      exact .raise hw₂ ⟨hb.since hsince₂,
        .inr (.expired (Nat.lt_succ_self w.tick.reads) (hexpires ▸ hlate))⟩
    rw [if_neg hlate]
    refine .step (hattach w.tick.tick hinfo) ?_
    have hpresent : w.past.wiped = false := by
      by_contra hw'
      have hover := hw.inv.wiped (by simpa using hw')
      have hmono := P.clock_mono (Nat.le_succ w.reads)
      have : tokenExpires P.token ≤ P.clock (w.reads + 1) :=
        (Nat.le_add_right _ _).trans (hover.trans hmono)
      exact hlate (hexpires ▸ this)
    have hclaims : Claims P κ w.tick.tick ws info id :=
      { authorizer := hw.current.symm ▸ hauth
        event := ⟨frame, hw₂.event (hsince₂.extends_.event he), hvalid⟩
        intime := ⟨v, w.reads, hverified, hv, not_le.mp hdue⟩
        unexpired := ⟨w.tick.reads, Nat.lt_succ_self _, hexpires ▸ not_le.mp hlate⟩
        present := hpresent
        registered := (hallowed hallow).resolve_left (by simp [hpresent])
        stored := hinfo
        live := hlive
        phase := hphase
        since := ⟨w, hκ, ⟨rfl, rfl, rfl, rfl, Nat.le_add_right _ 2⟩⟩ }
    -- the claim, and the loop that retires the other sockets of `id`
    refine .step rfl (.step rfl
      (.step (a := ()) (u := w.tick.tick.claimed ws info id) rfl (.step rfl ?_)))
    refine .bind ((retireOthers_claim hw₂ (hsince₂.extends_.event he) (hb.since hsince₂) hclaims
      fun T hT hrouted => hw₂.inv.lists T hrouted.live)) ?_
    rintro - s s₁ hs hclaimant
    obtain ⟨info', hinfo', hphase', hid'⟩ := hclaimant.authenticated
    refine .step (a := info') (u := s) (by simp [attachmentOf, hinfo']) ?_
    cases harch : info'.archived with
    | true =>
      rw [if_pos rfl]
      exact .raise hs ⟨hclaimant.pending, .inl ⟨info', hinfo', harch⟩⟩
    | false =>
      rw [if_neg (by simp)]
      exact (confirm_ensures hs hclaimant hinfo' harch).mono (fun _ _ _ _ hQ => hQ)
        fun _ _ _ _ hE => ⟨hE.1, .inr hE.2⟩

/-- A handler that has taken no authentication up may be taken to have. -/
theorem Pending.weaken {mine source : Option SocketId} (hb : Pending h none source w) :
    Pending h mine source w :=
  ⟨hb.owes, hb.unsettled, fun T ha => nomatch hb.authorizer T ha⟩

/-- The transaction of `authorize`: the id is registered, unless two others are. -/
theorem registerIdentity_ensures {frame : Bytes} (hw : At P κ h s₀ w)
    (he : w.past.arrivals[h]? = some (.message ws (.binary frame)))
    (hauth : (w.socket ws).authorizer = some h)
    (hvalid : ValidAuth P (w.socket ws).issued frame id) :
    Ensures P κ h (fun allowed s => Since h w s ∧ κ (.resume (.answered (.identities ws id))) s ∧
      (allowed = true → s.past.wiped = true ∨ id ∈ s.ids) ∧
      (allowed = false → Blame P κ s ws (.binary frame))) E s₀
      (request (.identities ws id) (registerIdentity id) w) := by
  refine .request hw fun s s₁ hs hk hκ => ?_
  have hkept := hk.extends_.socket ws (hw.inv.authorizer_lt hauth)
  have hauth' := hkept.authorizer h hauth
  have hvalid' : ValidAuth P (s.socket ws).issued frame id := by
    rw [hkept.issued]
    exact hvalid
  refine .step rfl ?_
  by_cases hmem : id ∈ s.ids
  · rw [if_pos (by simpa [World.ids] using hmem)]
    exact .pure hs fun s' _ hk' hκ' => ⟨hk.since.trans hw.inv hk'.since, hκ',
      fun _ => hk'.extends_.ids.imp_right fun hsub => hsub hmem,
      fun hfalse => absurd hfalse.symm Bool.false_ne_true⟩
  rw [if_neg (by simpa [World.ids] using hmem)]
  by_cases hfull : s.ids.length ≥ 2
  · rw [if_pos (by simpa [World.ids] using hfull)]
    exact .pure hs fun s' _ hk' hκ' => ⟨hk.since.trans hw.inv hk'.since, hκ',
      fun htrue => absurd htrue Bool.false_ne_true, fun _ =>
        .extends (hs.inv.authorizer_lt hauth') hk'.extends_ (.full hκ rfl hvalid' hmem hfull)⟩
  rw [if_neg (by simpa [World.ids] using hfull)]
  have hident : Act P κ s (s.identify id) :=
    .identify (hs.current.symm ▸ hauth')
      (hs.event (hk.extends_.event he)) hvalid' hmem (not_le.mp hfull)
  have hsame : Since h s (s.identify id) := .of_same (hident.extends hs.inv) rfl rfl rfl rfl
  refine .step (a := ()) (u := s.identify id) rfl (.pure (hs.act hident) ?_)
  exact fun s' _ hk' hκ' => ⟨(hk.since.trans hw.inv hsame).trans hw.inv hk'.since, hκ',
    fun _ => hk'.extends_.ids.imp_right fun hsub => hsub (by simp [World.ids]),
    fun hfalse => absurd hfalse.symm Bool.false_ne_true⟩

/-- The part of `authorize` after the signature was verified. -/
theorem verified_ensures {frame : Bytes} {info : Attachment} (hw : At P κ h s₀ w)
    (he : w.past.arrivals[h]? = some (.message ws (.binary frame)))
    (hb : Pending h (some ws) none w) (hauth : (w.socket ws).authorizer = some h)
    (hinfo : w.info ws = some info) (hphase : info.phase = .verifying)
    (hvalid : ValidAuth P (w.socket ws).issued frame id) :
    Ensures P κ h (fun _ s => Pending h (some ws) none s ∧ ∃ id, Authenticated s.info ws id)
      (fun _ s => Pending h (some ws) none s ∧
        (Archived s.info ws ∨ Blame P κ s ws (.binary frame))) s₀
      ((do
        mark ws fun w s => { s with verifiedAt := some w.reads }
        let allowed ← request (.identities ws id) (registerIdentity id)
        claim P ws id allowed : Async Unit) w) := by
  have hact : Act P κ w (w.verified ws) :=
    .verified (hw.current.symm ▸ hauth) ⟨info, hinfo, hphase⟩ (hw.event he) hvalid
  have hext := hact.extends hw.inv
  have hw₁ := hw.act hact
  have hb₁ : Pending h (some ws) none (w.verified ws) := by
    refine ⟨fun T ho => hb.owes T ?_, fun T hu => hb.unsettled T ?_,
      fun T ha => hb.authorizer T ?_⟩ <;>
      by_cases hT : T = ws <;> simp_all [World.Owes]
  have hauth₁ : ((w.verified ws).socket ws).authorizer = some h := by simpa using hauth
  have hvalid₁ : ValidAuth P ((w.verified ws).socket ws).issued frame id := by simpa using hvalid
  have hinfo₁ : (w.verified ws).info ws = some info := by simpa [World.info] using hinfo
  refine .step (a := ()) (u := w.verified ws) rfl ?_
  refine .bind (registerIdentity_ensures hw₁ (hext.event he) hauth₁ hvalid₁) ?_
  rintro allowed s s₁ hs ⟨hsince, hκ, hallowed, hfull⟩
  have hkept := hsince.extends_.socket ws (hw₁.inv.authorizer_lt hauth₁)
  have hauth' := hkept.authorizer h hauth₁
  obtain ⟨info', hinfo'⟩ := Option.isSome_iff_exists.mp
    ((hs.inv.known ws).mp (hs.inv.authorizer_lt hauth'))
  have hphase' : info'.phase = .verifying :=
    (hsince.spares.phase ws hauth₁ info info' hinfo₁ hinfo').trans hphase
  have hverified : (s.socket ws).verifiedAt = some w.reads := by
    rw [hsince.spares.verifiedAt ws hauth₁]
    simp
  have hvalid' : ValidAuth P (s.socket ws).issued frame id := by
    rw [hkept.issued]
    exact hvalid₁
  exact (claim_ensures hs (hsince.extends_.event (hext.event he)) (hb₁.since hsince) hauth' hvalid'
    hverified hsince.extends_.reads hinfo' hphase' hκ hallowed hfull).mono
    (fun _ _ _ _ hQ => ⟨hQ.1, id, hQ.2⟩) fun _ _ _ _ hE => hE

/-- Taking an answer up leaves nothing pending but that answer. -/
theorem pending_verify {info : Attachment} (hb : Pending h none none w) :
    Pending h (some ws) none (w.verify ws info) := by
  refine ⟨fun T ho => hb.owes T ?_, fun T hu => hb.unsettled T ?_, fun T ha => ?_⟩ <;>
    by_cases hT : T = ws
  · subst hT
    simpa [World.Owes] using ho
  · simpa [World.Owes, hT] using ho
  · subst hT
    simpa using hu
  · simpa [hT] using hu
  · rw [hT]
  · exact absurd (hb.authorizer T (by simpa [hT] using ha)) (Option.some_ne_none T).symm

/-- `authorize` ends with the socket authenticated, or throws with something to blame. -/
theorem authorize_ensures {w₀ : World} {frame : Bytes} {info : Attachment} (hw : At P κ h s₀ w)
    (he : w.past.arrivals[h]? = some (.message ws (.binary frame))) (hb : Pending h none none w)
    (hinfo : w.info ws = some info) (hlive : info.archived = false)
    (hphase : info.phase = .challenge) (htaking : w.Taking ws)
    (hissued : (w.socket ws).issued = (w₀.socket ws).issued)
    (hsame : (w.socket ws).due = (w₀.socket ws).due)
    (hκ : κ (.start (.message ws (.binary frame))) w₀) (hwaits : Waits w₀.info ws)
    (hread : w.reads = w₀.takenUp P ws) :
    Ensures P κ h (fun _ s => Pending h (some ws) none s ∧ ∃ id, Authenticated s.info ws id)
      (fun _ s => Pending h (some ws) none s ∧ Failing P κ w₀ ws (.binary frame) s) s₀
      (authorize P ws frame w) := by
  obtain ⟨hid, hchallenge, hdeadline⟩ := (hw.inv.shape ws info hinfo).handshake (by simp [hphase])
  have hw₁ := hw.act .tick
  have hsince₁ := since_tick hw
  refine .step (a := info) (u := w) (by simp [attachmentOf, hinfo]) (.step rfl ?_)
  by_cases hdue : (w.socket ws).due ≤ P.clock w.reads
  · rw [if_pos (by simpa [reached, hdeadline] using hdue)]
    exact .raise hw₁ ⟨(hb.since hsince₁).weaken,
      .inr fun _ => .late hκ hwaits (hread ▸ hsame ▸ hdue)⟩
  rw [if_neg (by simpa [reached, hdeadline] using hdue)]
  -- the answer is taken up
  have hverify : Act P κ w.tick (w.tick.verify ws info) :=
    .verify (hw₁.event he) htaking hinfo hlive hphase (Nat.lt_succ_self w.reads) (not_le.mp hdue)
  have hw₂ := hw₁.act hverify
  have hext₂ := hsince₁.extends_.trans (hverify.extends hw₁.inv)
  refine .step rfl (.step (a := ()) (u := w.tick.verify ws info) rfl ?_)
  have hb₂ : Pending h (some ws) none (w.tick.verify ws info) := pending_verify (hb.since hsince₁)
  have hauth₂ : ((w.tick.verify ws info).socket ws).authorizer = some h := by
    simpa using hw.current
  have hissued₂ : ((w.tick.verify ws info).socket ws).issued = (w.socket ws).issued := by simp
  have hinfo₂ : (w.tick.verify ws info).info ws = some { info with phase := .verifying } := by
    simp [World.info]
  simp only [hchallenge, unhex_hex]
  refine .bind (Q := fun id s => Since h (w.tick.verify ws info) s ∧
    ValidAuth P (w.socket ws).issued frame id) ?_ ?_
  · refine .await ((authenticate_ensures hw₂ frame (w.socket ws).issued).mono ?_ ?_)
    · rintro id s s₁ hs ⟨hsince, hvalid⟩ s' hs' hk -
      exact ⟨hsince.trans hw₂.inv hk.since, hvalid⟩
    · rintro - s s₁ hs ⟨hsince, hinvalid⟩ s' hs' hk -
      refine ⟨hb₂.since (hsince.trans hw₂.inv hk.since), .inr fun hproper => ?_⟩
      obtain ⟨_, bytes, id, -, hm, -, -, -, -, -, hvalid⟩ := hproper.welcome hwaits
      obtain rfl := Message.binary.inj hm
      exact absurd (hissued ▸ hvalid) (hinvalid id)
  rintro id s s₁ hs ⟨hsince, hvalid⟩
  -- the signature has been verified
  have hkept := hsince.extends_.socket ws (hw₂.inv.authorizer_lt hauth₂)
  have hauth := hkept.authorizer h hauth₂
  obtain ⟨info', hinfo'⟩ := Option.isSome_iff_exists.mp
    ((hs.inv.known ws).mp (hs.inv.authorizer_lt hauth))
  have hphase' : info'.phase = .verifying := hsince.spares.phase ws hauth₂ _ info' hinfo₂ hinfo'
  exact (verified_ensures hs (hsince.extends_.event (hext₂.event he)) (hb₂.since hsince)
    hauth hinfo'
    hphase' ((hkept.issued.trans hissued₂) ▸ hvalid)).mono (fun _ _ _ _ hQ => hQ)
    fun _ _ _ _ hE => ⟨hE.1, hE.2.imp_right fun hblame _ => hblame⟩

end IrohExperiment.Relay
