/-
# Delivery of datagrams (`worker/src/iroh-relay.js`)

Every datagram that the room sends was received from another socket, whose key it
carries, and was addressed to the endpoint it is sent to.  No received datagram is
sent twice, the endpoints are known by keys whose possession was proved in time,
and there are at most two of them.

The main result is `delivery_safety`, about every run: who sent what to whom, with which
key, and that a socket that has not authenticated causes nothing.
-/
import IrohExperiment.Relay.Routes

namespace IrohExperiment.Relay

open Coop

variable {P : Platform} {κ : Trigger Event Point → World → Prop} {ls : List (Label Event Effect)}
  {c c₀ : RoomConfig} {w w' : World}

/-! ## Facts about the wire -/

/-- What is known of every frame when it is sent, and stays known, holds of all
frames on the wire. -/
theorem room_wire {J : World → Sent → Prop} (hr : RunsFrom P κ c₀ ls c)
    (hJ₀ : ∀ e ∈ c₀.state.past.wire, J c₀.state e)
    (hext : ∀ w w' e, w.Extends w' → J w e → J w' e)
    (hemits : ∀ κ' w e, (∀ t w, κ' t w → κ t w ∧ Inv P w) → Inv P w → Emits P κ' w e → J w e) :
    ∀ e ∈ c.state.past.wire, J c.state e := by
  refine room_keeps (J := fun w => ∀ e ∈ w.past.wire, J w e) hr hJ₀
    (fun w w' _ hJ hrest e he => hext _ _ e hrest.extends_ (hJ e (hrest.wire_eq ▸ he)))
    fun w w' hI hJ ha e he => ?_
  refine hext _ _ e (ha.extends hI) ?_
  obtain he | hemits' := ha.mem_wire he
  · exact hJ e he
  · exact hemits _ w e (fun t w hκ => ⟨hκ.1, hκ.2.1⟩) hI hemits'

/-! ## Datagrams -/

/-- The frame is a datagram: its tag is 6 or 7. -/
def Sent.IsDatagram (e : Sent) : Prop := e.bytes.head? = some 6 ∨ e.bytes.head? = some 7

/-- `e` brings the datagram `frame`, received from the socket `S` of the endpoint
`key`, to its destination. -/
structure Carries (w : World) (e : Sent) (S : SocketId) (key frame : Bytes) : Prop where
  received : w.past.arrivals[e.handler]? = some (.message S (.binary frame))
  other : S ≠ e.target
  source : Routed e.seen S (hex key)
  destination : Routed e.seen e.target (hex ((frame.drop 1).take 32))
  key_length : key.length = 32
  frame_length : 34 ≤ frame.length
  bytes : ∃ tag, (tag = 4 ∨ tag = 5) ∧ frame.head? = some tag ∧
    e.bytes = (tag + 2) :: key ++ frame.drop 33

/-- Writing a key of 32 bytes over the destination changes nothing else. -/
theorem forwardedFrame_eq {frame key bytes : Bytes} (hkey : key.length = 32)
    (h : forwardedFrame frame (hex key) = some bytes) :
    ∃ tag, frame.head? = some tag ∧ bytes = (tag + 2) :: key ++ frame.drop 33 := by
  cases frame with
  | nil => cases h
  | cons tag rest =>
    simp only [forwardedFrame, unhex_hex] at h
    split_ifs at h
    exact ⟨tag, rfl, by rw [← Option.some.inj h, hkey]; rfl⟩

theorem Forwards.carries (hI : Inv P w) {ws : SocketId} {info : Attachment} {target : SocketId}
    {other : Attachment} {bytes : Bytes} (hf : Forwards κ w ws info target other bytes) :
    ∃ key frame, Carries w ⟨w.past.current, target, bytes, w.info, none⟩ ws key frame := by
  obtain ⟨destination, frame, source, hs, hid, hrouted, hbytes⟩ := hf.datagram
  obtain ⟨m, hevent, hframe⟩ := hs.event
  obtain ⟨rfl, rfl, htag, hlength⟩ := clientFrame_datagram hframe
  obtain ⟨key, hkey, hkeylen⟩ := (hI.shape ws info hs.stored).identity hs.phase
  obtain rfl : source = hex key := Option.some.inj (hid.symm.trans hkey)
  obtain ⟨tag, hhead, hbytes⟩ := forwardedFrame_eq hkeylen hbytes
  refine ⟨key, frame, hevent, hf.ne.symm, ⟨info, hs.stored, hs.phase, hs.live, hid⟩, hrouted,
    hkeylen, hlength, tag, ?_, hhead, hbytes⟩
  rw [← List.head?_eq_getElem?, hhead] at htag
  exact htag.imp Option.some.inj Option.some.inj

/-- Datagrams are sent by nothing but the forwarding of datagrams. -/
theorem Emits.datagram_cases {e : Sent} (h : Emits P κ w e) (htag : e.IsDatagram) :
    ∃ ws info other, Forwards κ w ws info e.target other e.bytes ∧
      e = ⟨w.past.current, e.target, e.bytes, w.info, none⟩ := by
  cases h with
  | control hs =>
    cases hs <;> simp [Sent.IsDatagram, challengeFrame] at htag
  | datagram hf => exact ⟨_, _, _, hf, rfl⟩

/-! ## Identities -/

/-- The possession of the key `id` was proved over the challenge that `ws` was sent,
before its deadline. -/
def Proved (P : Platform) (w : World) (ws : SocketId) (id : Text) : Prop :=
  ∃ h frame v, (w.socket ws).authorizer = some h ∧
    w.past.arrivals[h]? = some (.message ws (.binary frame)) ∧
    ValidAuth P (w.socket ws).issued frame id ∧
    (w.socket ws).verifiedAt = some v ∧ P.clock v < (w.socket ws).due

/-- What was noted of the verification stays as it is. -/
theorem Alters.verifiedAt_eq {ws : SocketId} {id : Text} (h : Alters P κ w w' ws)
    (ha : Authenticated w'.info ws id) : (w'.socket ws).verifiedAt = (w.socket ws).verifiedAt := by
  obtain ⟨info', hinfo', hphase, -⟩ := ha
  simp only [World.info] at hinfo'
  cases h with
  | accepted _ _ _ _ _ hsocket =>
    rw [hsocket] at hinfo'
    obtain rfl := Option.some.inj hinfo'
    cases hphase
  | verified _ hverifying hsocket =>
    obtain ⟨info, hinfo, hp⟩ := hverifying
    rw [hsocket] at hinfo'
    obtain rfl := Option.some.inj (hinfo'.symm.trans hinfo)
    rw [hp] at hphase
    cases hphase
  | same hsocket => rw [hsocket]
  | touched _ _ _ _ _ hsocket => rw [hsocket]
  | connected _ _ hsocket => rw [hsocket]
  | verify _ _ _ _ hsocket => rw [hsocket]
  | claimed _ _ hsocket => rw [hsocket]
  | retired _ _ _ hsocket => rw [hsocket]
  | departed _ _ _ _ hsocket => rw [hsocket]

theorem RunsFrom.proved (hr : RunsFrom P κ freshRoom ls c) {ws : SocketId} {id : Text}
    (ha : Authenticated c.state.info ws id) : Proved P c.state ws id := by
  refine room_keeps (J := fun w => ∀ ws id, Authenticated w.info ws id → Proved P w ws id) hr
    (fun ws id ha => ?_) (fun w w' hI hJ hrest ws id ha => ?_) (fun w w' hI hJ ha ws id hauth => ?_)
    ws id ha
  · obtain ⟨info, hinfo, -⟩ := ha
    cases hinfo
  · rw [hrest.info_eq] at ha
    obtain ⟨h, frame, v, hauthorizer, hevent, hvalid, hverified, htime⟩ := hJ ws id ha
    obtain ⟨r, hsocket⟩ := hrest.socket ws
    exact ⟨h, frame, v, by rwa [hsocket], hrest.extends_.event hevent, by rwa [hsocket],
      by rwa [hsocket], by rwa [hsocket]⟩
  · have hext := ha.extends hI
    suffices hs : Proved P w ws id by
      obtain ⟨h, frame, v, hauthorizer, hevent, hvalid, hverified, htime⟩ := hs
      have hsocket := hext.socket ws (hI.authorizer_lt hauthorizer)
      exact ⟨h, frame, v, hsocket.authorizer h hauthorizer, hext.event hevent,
        hsocket.issued ▸ hvalid, ((ha.alters ws).verifiedAt_eq hauth).trans hverified,
        hsocket.due ▸ htime⟩
    obtain hauth | ⟨info, hc⟩ := (ha.alters ws).authenticated hauth
    · exact hJ ws id hauth
    · obtain ⟨frame, hevent, hvalid⟩ := hc.event
      obtain ⟨v, t, hverified, hle, hlt⟩ := hc.intime
      exact ⟨w.past.current, frame, v, hc.authorizer, hevent, hvalid, hverified,
        (P.clock_mono hle).trans_lt hlt⟩

/-- Two identities account for all sockets that were ever authenticated. -/
theorem RunsFrom.two_identities (hr : RunsFrom P κ freshRoom ls c) : ∃ ids : List Text,
    ids.length ≤ 2 ∧ ∀ ws id, Authenticated c.state.info ws id → id ∈ ids := by
  -- until the storage is deleted they are the registered ones; after that nobody claims an id
  suffices hs : ∃ ids : List Text, ids.length ≤ 2 ∧
      (∀ ws id, Authenticated c.state.info ws id → id ∈ ids) ∧
      (c.state.past.wiped = false → ids = c.state.ids) by
    obtain ⟨ids, hlen, hall, -⟩ := hs
    exact ⟨ids, hlen, hall⟩
  refine room_keeps (J := fun w => ∃ ids : List Text, ids.length ≤ 2 ∧
    (∀ ws id, Authenticated w.info ws id → id ∈ ids) ∧ (w.past.wiped = false → ids = w.ids)) hr
    ⟨[], by simp, ?_, fun _ => rfl⟩
    (fun w w' _ hJ hrest => ?_) fun w w' hI ⟨ids, hlen, hall, hids⟩ ha => ?_
  · rintro ws id ⟨info, hinfo, -⟩
    cases hinfo
  · rw [hrest.info_eq, hrest.wiped_eq, World.ids, hrest.identities]
    exact hJ
  · have hall' : ∀ ws id, Authenticated w'.info ws id → id ∈ ids := fun ws id hauth => by
      obtain hauth | ⟨info, hc⟩ := (ha.alters ws).authenticated hauth
      · exact hall ws id hauth
      · exact hids hc.present ▸ hc.registered
    obtain hsame | ⟨ws, frame, id, -, -, -, hroom, hnew⟩ | hw := ha.ids_cases
    · refine ⟨ids, hlen, hall', fun hw => (hids ?_).trans hsame.symm⟩
      by_contra h
      simp [ha.wiped_mono (by simpa using h)] at hw
    · by_cases hw : w.past.wiped = true
      · exact ⟨ids, hlen, hall', fun h => by simp [ha.wiped_mono hw] at h⟩
      · have heq := hids (by simpa using hw)
        refine ⟨w'.ids, by rw [hnew]; simpa using hroom, fun ws id hauth => ?_, fun _ => rfl⟩
        rw [hnew, ← heq]
        exact List.mem_append_left _ (hall' ws id hauth)
    · exact ⟨ids, hlen, hall', fun h => by simp [hw] at h⟩

/-! ## Who causes a frame -/

/-- The frame was sent by the handler of an event: if that came from another socket,
the other socket was authenticated; if it was a request, it opened the socket that
the frame went to; and only the departure of an authenticated socket is announced. -/
structure Accounted (w : World) (e : Sent) : Prop where
  target_lt : e.target < w.count
  event : ∃ event, w.past.arrivals[e.handler]? = some event ∧
    (∀ S, event.socket = some S → S ≠ e.target → ∃ id, Authenticated e.seen S id) ∧
    ∀ r, event = .fetch r → (w.socket e.target).opener = e.handler
  about : ∀ S, e.about = some S → ∃ id, Authenticated e.seen S id

theorem Accounted.extends (hext : w.Extends w') {e : Sent} (h : Accounted w e) :
    Accounted w' e where
  target_lt := h.target_lt.trans_le hext.count
  event := by
    obtain ⟨event, hevent, hspeaker, hopener⟩ := h.event
    exact ⟨event, hext.event hevent, hspeaker, fun r hr =>
      (hext.socket _ h.target_lt).opener.trans (hopener r hr)⟩
  about := h.about

/-- A frame sent by the handler of a message from the socket that it goes to. -/
theorem Accounted.of_own {e : Sent} {m : Message} (htarget : e.target < w.count)
    (hevent : w.past.arrivals[e.handler]? = some (.message e.target m)) (habout : e.about = none) :
    Accounted w e :=
  ⟨htarget, ⟨_, hevent, fun S hS hne => absurd (Option.some.inj hS).symm hne, nofun⟩,
    by simp [habout]⟩

theorem Emits.accounted (hI : Inv P w) {e : Sent} (h : Emits P κ w e) : Accounted w e := by
  have htarget : e.target < w.count := (hI.known _).mpr h.info_isSome
  cases h with
  | @control ws info bytes category about hs hinfo hlive =>
    cases hs with
    | challenge hopener =>
      obtain ⟨r, hr⟩ := (hI.shape ws info hinfo).opener
      rw [hopener] at hr
      exact ⟨htarget, ⟨_, hr, fun S hS => (by cases hS), fun _ _ => hopener⟩,
        fun S hS => (by cases hS)⟩
    | confirmation hauthorizer =>
      obtain ⟨frame, hevent⟩ := (hI.shape ws info hinfo).authorizer _ hauthorizer
      exact .of_own htarget hevent rfl
    | pong hevent => exact .of_own htarget hevent rfl
    | ping hevent =>
      exact ⟨htarget, ⟨_, hevent, fun S hS => (by cases hS), fun r hr => (by cases hr)⟩,
        fun S hS => (by cases hS)⟩
    | @gone X id _ _ _ _ hdeparture habout _ _ _ hspeaker =>
      have hinfo' := habout
      obtain ⟨info', hinfo', -⟩ := hinfo'
      obtain ⟨event, hevent, hfetch⟩ := (hI.shape X info' hinfo').owner _ (by rw [hdeparture]; rfl)
      refine ⟨htarget, ⟨event, hevent, fun S hS _ => hspeaker S ?_,
        fun r hr => absurd hr (hfetch r)⟩,
        fun S hS => Option.some.inj hS ▸ ⟨id, habout⟩⟩
      rw [World.event, hevent]
      exact hS
  | @datagram ws info target other bytes hf =>
    obtain ⟨key, frame, hc⟩ := hf.carries hI
    exact ⟨htarget, ⟨_, hc.received,
      fun S hS _ => Option.some.inj hS ▸ ⟨_, hc.source.authenticated⟩,
      fun r hr => (by cases hr)⟩, fun S hS => (by cases hS)⟩

/-! ## Delivery safety -/

/-- Every datagram frame on the wire is one that was received from another socket,
rewritten; no received datagram is sent twice; every identity was proved over the
socket's own challenge, in time; there are at most two identities; and a socket that
is not authenticated causes no frame to another one. -/
theorem delivery_safety (hr : Runs (room P) anytime freshRoom ls c) :
    (∀ e ∈ c.state.past.wire, e.IsDatagram → ∃ S key frame, Carries c.state e S key frame) ∧
      c.state.past.wire.Pairwise (fun e e' => e'.IsDatagram → e.handler ≠ e'.handler) ∧
      (∀ ws id, Authenticated c.state.info ws id → Proved P c.state ws id ∧
        ∃ e ∈ c.state.past.wire, e.target = ws ∧
          e.bytes = challengeFrame (c.state.socket ws).issued) ∧
      (∃ ids : List Text, ids.length ≤ 2 ∧
        ∀ ws id, Authenticated c.state.info ws id → id ∈ ids) ∧
      ∀ e ∈ c.state.past.wire, Accounted c.state e := by
  have hrun := runsFrom_fresh hr
  refine ⟨?_, ?_, fun ws id hauth => ⟨hrun.proved hauth, ?_⟩, hrun.two_identities, ?_⟩
  · refine room_wire (J := fun w e => e.IsDatagram → ∃ S key frame, Carries w e S key frame) hrun
      nofun (fun w w' e hext hJ htag => ?_) fun κ' w e _ hI hemits htag => ?_
    · obtain ⟨S, key, frame, hc⟩ := hJ htag
      exact ⟨S, key, frame, { hc with received := hext.event hc.received }⟩
    · obtain ⟨ws, info, other, hf, he⟩ := hemits.datagram_cases htag
      obtain ⟨key, frame, hc⟩ := hf.carries hI
      exact ⟨ws, key, frame, he ▸ hc⟩
  · refine room_keeps (J := fun w => w.past.wire.Pairwise
      (fun e e' => e'.IsDatagram → e.handler ≠ e'.handler)) hrun .nil
      (fun w w' _ hJ hrest => hrest.wire_eq ▸ hJ) fun w w' _ hJ ha => ?_
    obtain hw | ⟨e', hemits, hw⟩ := ha.wire_cases
    · rwa [hw]
    · rw [hw, List.pairwise_append]
      refine ⟨hJ, List.pairwise_singleton .., fun e he e'' he'' htag => ?_⟩
      obtain rfl := List.mem_singleton.mp he''
      obtain ⟨_, _, _, hf, heq⟩ := hemits.datagram_cases htag
      rw [heq]
      exact hf.fresh e he
  · obtain ⟨h, frame, -, -, hevent, -⟩ := hrun.proved hauth
    exact hrun.inv_end.greeted ws (hrun.inv_end.clients ws _ (List.mem_of_getElem? hevent)).2
  · exact room_wire hrun nofun (fun _ _ _ hext h => h.extends hext) fun _ _ _ _ hI hemits =>
      hemits.accounted hI

/-- Two endpoints, and a datagram from one to the other. -/
def datagramSchedule : List (Label Event Effect) :=
  handled 0 8 (.fetch upgradeRequest) ++ handled 1 8 (.fetch upgradeRequest) ++
    handled 2 17 (.message 0 (.binary (authFrame 7))) ++
    handled 3 15 (.message 1 (.binary (authFrame 8))) ++
    handled 4 1 (.message 0 (.binary (datagramFrame 8)))

theorem delivery_safety_datagram : ∃ c : RoomConfig, (∃ e ∈ c.state.past.wire,
      e.bytes = 6 :: sampleKey 7 ++ [0, 42] ∧ ∃ S key frame, Carries c.state e S key frame) ∧
    c.state.past.wire.Pairwise (fun e e' => e'.IsDatagram → e.handler ≠ e'.handler) := by
  have hrun : (freshRoom.replay (room calmPlatform) anytime datagramSchedule).any (fun c =>
      decide (∃ e ∈ c.state.past.wire, e.bytes = 6 :: sampleKey 7 ++ [0, 42])) = true := by
    decide +kernel
  obtain ⟨c, hc, hrun⟩ := Option.any_eq_true .. |>.mp hrun
  obtain ⟨e, he, hbytes⟩ := of_decide_eq_true hrun
  have hsafe := delivery_safety (runs_of_replay hc)
  exact ⟨c, ⟨e, he, hbytes, hsafe.1 e he (.inl (by rw [hbytes]; rfl))⟩, hsafe.2.1⟩

end IrohExperiment.Relay
