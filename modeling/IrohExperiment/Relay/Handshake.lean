/-
# The order of frames on a socket (`worker/src/iroh-relay.js`)

A socket is sent its challenge, then its confirmation, and everything else after
that.  A socket becomes routable when its `authorize` claims the id, but the
confirmation is sent only after the others of that id have been retired, and
`authorize` waits for that.

`World.Claiming` says that the `authorize` of a socket is between the two, and
`Claimed` that a routable socket is either confirmed or in that state.  So the order
holds in every run in which no stretch that sends pings, pongs, datagrams or
departures to a socket begins while its `authorize` is suspended between its claim
and its confirmation (`handshake_order`).  It fails in runs in which a datagram is
delivered there (`handshake_overtaken`).
-/
import IrohExperiment.Relay.Delivery

namespace IrohExperiment.Relay

open Coop

variable {P : Platform} {κ : Trigger Event Point → World → Prop} {ls : List (Label Event Effect)}
  {c c₀ : RoomConfig} {w w' : World}

/-! ## The order -/

/-- The frames sent to a socket, in order. -/
def World.framesTo (w : World) (ws : SocketId) : List Bytes :=
  (w.past.wire.filter fun e => e.target = ws).map (·.bytes)

/-- A frame for a client whose handshake is over: a datagram, the departure of an
endpoint, a ping or a pong. -/
def IsTraffic (frame : Bytes) : Prop :=
  ∃ tag ∈ ([6, 7, 8, 9, 10] : List UInt8), frame.head? = some tag

/-- One challenge, then possibly one confirmation, and then other frames. -/
def Handshake (challenge : Bytes) : List Bytes → Prop
  | [] => True
  | [frame] => frame = challengeFrame challenge
  | first :: second :: rest =>
      first = challengeFrame challenge ∧ second = [2] ∧ ∀ frame ∈ rest, IsTraffic frame

instance (frame : Bytes) : Decidable (IsTraffic frame) :=
  inferInstanceAs (Decidable (∃ tag ∈ ([6, 7, 8, 9, 10] : List UInt8), frame.head? = some tag))

instance (challenge : Bytes) (frames : List Bytes) : Decidable (Handshake challenge frames) := by
  unfold Handshake
  split <;> infer_instance

theorem Handshake.confirm {challenge : Bytes} {frames : List Bytes} (h : Handshake challenge frames)
    (hsome : frames ≠ []) (hfirst : [2] ∉ frames) : Handshake challenge (frames ++ [[2]]) := by
  match frames, h with
  | [frame], h => exact ⟨h, rfl, by simp⟩
  | first :: second :: rest, h => simp [h.2.1] at hfirst

theorem Handshake.traffic {challenge frame : Bytes} {frames : List Bytes}
    (h : Handshake challenge frames) (hconfirmed : [2] ∈ frames) (hframe : IsTraffic frame) :
    Handshake challenge (frames ++ [frame]) := by
  match frames, h with
  | [first], h =>
    obtain rfl := List.mem_singleton.mp hconfirmed
    cases h
  | first :: second :: rest, h =>
    refine ⟨h.1, h.2.1, fun frame' hframe' => ?_⟩
    obtain hframe' | hframe' := List.mem_append.mp hframe'
    · exact h.2.2 frame' hframe'
    · exact List.mem_singleton.mp hframe' ▸ hframe

theorem World.mem_framesTo {ws : SocketId} {frame : Bytes} :
    frame ∈ w.framesTo ws ↔ ∃ e ∈ w.past.wire, e.target = ws ∧ e.bytes = frame := by
  simp [World.framesTo, and_assoc]

theorem World.confirmed_iff {ws : SocketId} : w.Confirmed ws ↔ [2] ∈ w.framesTo ws :=
  World.mem_framesTo.symm

/-- One more frame on the wire. -/
theorem framesTo_append {e : Sent} (hw : w'.past.wire = w.past.wire ++ [e]) (ws : SocketId) :
    w'.framesTo ws = w.framesTo ws ++ if e.target = ws then [e.bytes] else [] := by
  simp only [World.framesTo, hw, List.filter_append, List.map_append]
  by_cases hws : e.target = ws <;> simp [hws]

/-! ## When the order is kept -/

/-- In a view, `ws` is a live authenticated socket. -/
def HasRoute (view : View) (ws : SocketId) : Prop := ∃ id, Routed view ws id

instance (view : View) (ws : SocketId) : Decidable (HasRoute view ws) :=
  decidable_of_iff ((view ws).any fun info => info.isRouted && info.id.isSome) (by
    simp only [HasRoute, Routed, Attachment.isRouted, Option.any_eq_true, Option.isSome_iff_exists,
      Bool.and_eq_true, decide_eq_true_eq, Bool.not_eq_true']
    grind)

/-- The `authorize` of the socket is between its claim and its confirmation. -/
def World.Claiming (w : World) (ws : SocketId) : Prop :=
  ∃ h ∈ w.past.claiming, (w.socket ws).authorizer = some h

instance (w : World) (ws : SocketId) : Decidable (w.Claiming ws) :=
  inferInstanceAs (Decidable (∃ h ∈ w.past.claiming, (w.socket ws).authorizer = some h))

/-- When the handler of a ping or of a datagram starts, and when an alarm or a
retirement goes on to where it sends, no socket that it would send to has its
`authorize` suspended between its claim and its confirmation. -/
def sparingClaims (P : Platform) : Trigger Event Point → World → Prop
  | .start (.message ws m), w =>
      match clientFrame m with
      | some (.ping _) => HasRoute w.info ws → ¬ w.Claiming ws
      | some (.datagram destination _) =>
          HasRoute w.info ws → ∀ T ∈ w.listing, Routed w.info T destination → ¬ w.Claiming T
      | _ => True
  | .resume (.answered (.fold _ (some id))), w =>
      ∀ T ∈ w.listing, HasRoute w.info T → ¬ Routed w.info T id → ¬ w.Claiming T
  | .resume (.answered site), w => ∀ T ∈ pinged P w site, HasRoute w.info T → ¬ w.Claiming T
  | _, _ => True

instance (t : RoomTrigger) (w : World) : Decidable (sparingClaims P t w) := by
  unfold sparingClaims
  split
  · split <;> infer_instance
  all_goals infer_instance

/-! ## Between a claim and its confirmation -/

/-- A routable socket was sent its confirmation, or is between its claim and that. -/
def Claimed (w : World) : Prop := ∀ ws, HasRoute w.info ws → w.Confirmed ws ∨ w.Claiming ws

/-- Handlers enter the stretch between claim and confirmation by a claim, and leave
it when they have sent the confirmation. -/
theorem Act.claiming_cases (h : Act P κ w w') :
    w'.past.claiming = w.past.claiming ∨
      w'.past.claiming = w.past.current :: w.past.claiming ∨
      (∃ ws, (w.socket ws).authorizer = some w.past.current ∧ w.Confirmed ws) ∧
        w'.past.claiming = w.past.claiming.erase w.past.current := by
  cases h with
  | claim => exact .inr (.inl (by simp))
  | reclaim => exact .inr (.inl (by simp))
  | endClaim hauthorizer hconfirmed => exact .inr (.inr ⟨⟨_, hauthorizer, hconfirmed⟩, by simp⟩)
  | touch h => exact .inl (by cases h <;> simp)
  | depart h => exact .inl (by cases h <;> simp)
  | _ => exact .inl (by simp)

/-- The answer of one socket is taken up by one handler. -/
theorem Inv.authorizer_unique (hI : Inv P w) {a b : SocketId} {h : ℕ}
    (ha : (w.socket a).authorizer = some h) (hb : (w.socket b).authorizer = some h) : a = b := by
  have hevent : ∀ T, (w.socket T).authorizer = some h →
      ∃ frame, w.past.arrivals[h]? = some (.message T (.binary frame)) := by
    intro T hT
    by_cases hcount : T < w.count
    · obtain ⟨info, hinfo⟩ := Option.isSome_iff_exists.mp ((hI.known T).mp hcount)
      exact (hI.shape T info hinfo).authorizer h hT
    · rw [hI.blank T (not_lt.mp hcount)] at hT
      cases hT
  obtain ⟨frame, hframe⟩ := hevent a ha
  obtain ⟨frame', hframe'⟩ := hevent b hb
  have hsame := hframe.symm.trans hframe'
  simp only [Option.some.injEq, Event.message.injEq] at hsame
  exact hsame.1

theorem World.Claiming.act (hI : Inv P w) {ws : SocketId} (hc : w.Claiming ws)
    (ha : Act P κ w w') : w.Confirmed ws ∨ w'.Claiming ws := by
  obtain ⟨h, hmem, hauth⟩ := hc
  have hauth' : (w'.socket ws).authorizer = some h :=
    ((ha.extends hI).socket ws (hI.authorizer_lt hauth)).authorizer h hauth
  rcases ha.claiming_cases with hsame | hmore | ⟨⟨T, hT, hconfirmed⟩, hless⟩
  · exact .inr ⟨h, hsame ▸ hmem, hauth'⟩
  · exact .inr ⟨h, hmore ▸ List.mem_cons_of_mem _ hmem, hauth'⟩
  · by_cases hcur : h = w.past.current
    · -- the handler that is through is the one that took the answer of `ws` up
      subst hcur
      exact .inl (hI.authorizer_unique hT hauth ▸ hconfirmed)
    · refine .inr ⟨h, ?_, hauth'⟩
      rw [hless]
      exact (List.mem_erase_of_ne hcur).mpr hmem

theorem Claimed.act (hI : Inv P w) (hj : Claimed w) (ha : Act P κ w w') : Claimed w' := by
  have hext := ha.extends hI
  rintro ws ⟨id, hrouted⟩
  rcases (ha.alters ws).routed hrouted with hbefore | ⟨⟨info, hclaim⟩, hclaiming, -⟩
  · rcases hj ws ⟨id, hbefore⟩ with hconfirmed | hc
    · exact .inl (hext.confirmed hconfirmed)
    · exact (hc.act hI ha).imp_left hext.confirmed
  · refine .inr ⟨w.past.current, by simp [hclaiming], ?_⟩
    exact (hext.socket ws (hI.lt_count hclaim.stored)).authorizer _ hclaim.authorizer

theorem Claimed.rests (hj : Claimed w) (hrest : Rests P w w') : Claimed w' := by
  intro ws hroute
  rw [hrest.info_eq] at hroute
  rcases hj ws hroute with hconfirmed | ⟨h, hmem, hauth⟩
  · exact .inl (hrest.extends_.confirmed hconfirmed)
  · obtain ⟨r, hsocket⟩ := hrest.socket ws
    refine .inr ⟨h, by rw [hrest.past]; exact hmem, ?_⟩
    rw [hsocket]
    exact hauth

/-! ## What is sent when -/

theorem Routed.unique {view : View} {ws : SocketId} {id id' : Text} (h : Routed view ws id)
    (h' : Routed view ws id') : id' = id := by
  obtain ⟨info, hinfo, -, -, hid⟩ := h
  obtain ⟨info', hinfo', -, -, hid'⟩ := h'
  obtain rfl := Option.some.inj (hinfo.symm.trans hinfo')
  exact Option.some.inj (hid'.symm.trans hid)

/-- Under the condition, traffic is sent to confirmed sockets. -/
theorem Emits.order (hκ : ∀ t w, κ t w → sparingClaims P t w ∧ Inv P w ∧ Claimed w) (hI : Inv P w)
    {e : Sent} (h : Emits P κ w e) :
    (e.bytes = challengeFrame (w.socket e.target).issued ∧ w.framesTo e.target = []) ∨
    (e.bytes = [2] ∧ [2] ∉ w.framesTo e.target ∧ w.framesTo e.target ≠ []) ∨
    (IsTraffic e.bytes ∧ w.Confirmed e.target) := by
  -- a socket with a route is confirmed, or its claim is suspended
  have hconfirmed : ∀ {t w₀ ws}, κ t w₀ → w₀.Calm w → HasRoute w₀.info ws → ¬ w₀.Claiming ws →
      w.Confirmed ws := fun hκ₀ hcalm hroute hfree =>
    hcalm.confirmed _ (((hκ _ _ hκ₀).2.2 _ hroute).resolve_right hfree)
  cases h with
  | @control ws info bytes category about hs hinfo hlive =>
    cases hs with
    | challenge _ _ hfirst =>
      refine .inl ⟨rfl, ?_⟩
      simpa [World.framesTo] using hfirst
    | confirmation hauthorizer _ hfirst =>
      refine .inr (.inl ⟨rfl, World.confirmed_iff.not.mp hfirst, ?_⟩)
      obtain ⟨frame, hevent⟩ := (hI.shape ws info hinfo).authorizer _ hauthorizer
      obtain ⟨-, hconnected⟩ := hI.clients ws _ (List.mem_of_getElem? hevent)
      exact List.ne_nil_of_mem (World.mem_framesTo.mpr (hI.greeted ws hconnected))
    | pong hevent hframe hrouted _ hstart hcalm =>
      have hroute : HasRoute _ ws := ⟨_, hcalm.routed _ _ hrouted⟩
      have hspared := (hκ _ _ hstart).1
      simp only [sparingClaims, hframe] at hspared
      exact .inr (.inr ⟨⟨10, by simp, rfl⟩, hconfirmed hstart hcalm hroute (hspared hroute)⟩)
    | @ping id ping w₀ site hevent hrouted hresume hpoint hcalm =>
      have hroute : HasRoute w₀.info ws := ⟨_, hcalm.routed _ _ hrouted⟩
      have hspared := (hκ _ _ hresume).1
      refine .inr (.inr ⟨⟨9, by simp, rfl⟩, hconfirmed hresume hcalm hroute ?_⟩)
      cases site <;> first
        | exact hspared ws hpoint hroute
        | cases hpoint
    | @gone about id id' seen missed w₀ _ _ hrouted hne _ _ hresume hcalm =>
      have hrouted₀ := hcalm.routed _ _ hrouted
      obtain ⟨hspared, hI₀, -⟩ := hκ _ _ hresume
      exact .inr (.inr ⟨⟨8, by simp, rfl⟩, hconfirmed hresume hcalm ⟨_, hrouted₀⟩
        (hspared ws (hI₀.lists ws hrouted₀.live) ⟨_, hrouted₀⟩ fun h => hne (h.unique hrouted₀))⟩)
  | @datagram ws info target other bytes hf =>
    obtain ⟨destination, frame, source, hs, hid, hrouted, -⟩ := hf.datagram
    obtain ⟨m, w₀, hstart, hevent, hcalm⟩ := hf.since
    obtain ⟨m', hevent', hframe⟩ := hs.event
    obtain rfl : m = m' := by simpa using hevent.symm.trans hevent'
    obtain ⟨key, frame', hc⟩ := hf.carries hI
    obtain ⟨hspared, hI₀, -⟩ := hκ _ _ hstart
    simp only [sparingClaims, hframe] at hspared
    have hrouted₀ := hcalm.routed _ _ hrouted
    refine .inr (.inr ⟨?_, hconfirmed hstart hcalm ⟨_, hrouted₀⟩ (hspared
      ⟨_, hcalm.routed _ _ hc.source⟩ target (hI₀.lists target hrouted₀.live) hrouted₀)⟩)
    obtain ⟨tag, rfl | rfl, -, hbytes⟩ := hc.bytes
    · exact ⟨6, by simp, by rw [show bytes = _ from hbytes]; rfl⟩
    · exact ⟨7, by simp, by rw [show bytes = _ from hbytes]; rfl⟩

/-- Every socket is sent its challenge, then its confirmation, and then the rest. -/
theorem handshake_order (hr : Runs (room P) (sparingClaims P) freshRoom ls c) (ws : SocketId) :
    Handshake (c.state.socket ws).issued (c.state.framesTo ws) := by
  refine (room_keeps (J := fun w => Claimed w ∧
    ∀ ws, Handshake (w.socket ws).issued (w.framesTo ws)) (runsFrom_fresh hr) ⟨?_, fun _ => trivial⟩
    (fun w w' _ hJ hrest => ⟨hJ.1.rests hrest, fun ws => ?_⟩)
    (fun w w' hI hJ ha => ⟨hJ.1.act hI ha, fun ws => ?_⟩)).2 ws
  · rintro ws ⟨id, info, hinfo, -⟩
    cases hinfo
  · obtain ⟨r, hsocket⟩ := hrest.socket ws
    rw [hsocket, World.framesTo, hrest.wire_eq]
    exact hJ.2 ws
  · -- a socket that frames were sent to exists, so its challenge is settled
    have hissued : ∀ T < w.count, (w'.socket T).issued = (w.socket T).issued := fun T hT =>
      ((ha.extends hI).socket T hT).issued
    have hsame : Handshake (w'.socket ws).issued (w.framesTo ws) := by
      by_cases hws : ws < w.count
      · exact hissued ws hws ▸ hJ.2 ws
      · have hnone : w.framesTo ws = [] := List.eq_nil_iff_forall_not_mem.mpr fun frame hframe => by
          obtain ⟨e, he, rfl, -⟩ := World.mem_framesTo.mp hframe
          exact hws (hI.target_lt e he)
        rw [hnone]
        trivial
    obtain hw | ⟨e, hemits, hw⟩ := ha.wire_cases
    · rwa [World.framesTo, hw]
    · rw [framesTo_append hw]
      split_ifs with htarget
      · subst htarget
        obtain ⟨hbytes, hnone⟩ | ⟨hbytes, hfirst, hsome⟩ | ⟨htraffic, hconfirmed⟩ :=
          hemits.order (fun t w hκ => ⟨hκ.1, hκ.2.1, hκ.2.2.1⟩) hI
        · rw [hnone, hbytes, hissued _ ((hI.known _).mpr hemits.info_isSome)]
          rfl
        · rw [hbytes]
          exact hsame.confirm hsome hfirst
        · exact hsame.traffic (World.confirmed_iff.mp hconfirmed) htraffic
      · rwa [List.append_nil]

/-- A datagram arrives after the confirmation. -/
theorem handshake_order_datagram : ∃ c : RoomConfig, (c.state.framesTo 1).length = 3 ∧
    Handshake (c.state.socket 1).issued (c.state.framesTo 1) := by
  have hrun : (freshRoom.replay (room calmPlatform) (sparingClaims calmPlatform)
      datagramSchedule).any (fun c => decide ((c.state.framesTo 1).length = 3)) = true := by
    decide +kernel
  obtain ⟨c, hc, hlen⟩ := Option.any_eq_true .. |>.mp hrun
  exact ⟨c, of_decide_eq_true hlen, handshake_order (runs_of_replay hc) 1⟩

/-- The endpoint of socket 0 comes back on socket 2, which waits in `finish`; a
datagram from socket 1 to that endpoint is delivered. -/
def overtakingSchedule : List (Label Event Effect) :=
  threeUpgrades ++ handled 3 17 (.message 0 (.binary (authFrame 7))) ++
    handled 4 15 (.message 1 (.binary (authFrame 8))) ++
    handled 5 7 (.message 2 (.binary (authFrame 7))) ++
    handled 6 1 (.message 1 (.binary (datagramFrame 7)))

/-- Socket 2 is sent the datagram before its confirmation. -/
theorem handshake_overtaken : ¬ ∀ (ls : List (Label Event Effect)) (c : RoomConfig),
    Runs (room calmPlatform) anytime freshRoom ls c →
      ∀ ws, Handshake (c.state.socket ws).issued (c.state.framesTo ws) := by
  intro h
  have hrun : (freshRoom.replay (room calmPlatform) anytime overtakingSchedule).any (fun c =>
      decide (¬ Handshake (c.state.socket 2).issued (c.state.framesTo 2))) = true := by
    decide +kernel
  obtain ⟨c, hc, hbad⟩ := Option.any_eq_true .. |>.mp hrun
  exact of_decide_eq_true hbad (h _ c (runs_of_replay hc) 2)

end IrohExperiment.Relay
