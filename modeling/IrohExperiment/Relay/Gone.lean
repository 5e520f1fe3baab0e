/-
# The announcement of departures (`finish` in `worker/src/iroh-relay.js`)

When a socket is retired, the other endpoints are told that its endpoint is gone.
That is true, and everybody is told exactly once, in every run in which an endpoint
comes back only after all its earlier sockets are gone and this was announced
(`gone_truthful`).  When it comes back before, the others are told that it is gone
although it is there (`gone_untruthful`).

Who could not be told because `send` threw is recorded socket by socket: one failed
call of `send` says nothing about the others.
-/
import IrohExperiment.Relay.Ledger

namespace IrohExperiment.Relay

open Coop

variable {P : Platform} {κ : Trigger Event Point → World → Prop} {ls : List (Label Event Effect)}
  {c c₀ : RoomConfig} {w w' : World}

/-! ## Coming back -/

/-- The others have been told of the departure. -/
def Departure.isAnnounced : Departure → Bool
  | .announced _ _ _ _ => true
  | _ => false

instance (view : View) (ws : SocketId) (id : Text) : Decidable (Authenticated view ws id) :=
  decidable_of_iff ((view ws).any fun info =>
      decide (info.phase = .authenticated) && decide (info.id = some id))
    (by simp [Authenticated, Option.any_eq_true])

/-- When a live socket goes on to claim an id, the departure of every earlier socket
of that id has been announced. -/
def afterDeparture : Trigger Event Point → World → Prop
  | .resume (.answered (.identities ws id)), w => Live w.info ws → ∀ T < w.count, T ≠ ws →
      Authenticated w.info T id → (w.socket T).departure.isAnnounced = true
  | _, _ => True

instance (t : RoomTrigger) (w : World) : Decidable (afterDeparture t w) := by
  unfold afterDeparture
  split <;> infer_instance

/-- While the departure of a socket has not been announced, no other socket has the
route of its endpoint. -/
def Cleared (w : World) : Prop :=
  ∀ a T id, a ≠ T → Authenticated w.info a id → Routed w.info T id →
    (w.socket a).departure.isAnnounced = true

/-- A departure that was announced stays as it is. -/
theorem Alters.announced (hI : Inv P w) {ws : SocketId} (h : Alters P κ w w' ws)
    (ha : (w.socket ws).departure.isAnnounced = true) :
    (w'.socket ws).departure = (w.socket ws).departure := by
  cases h with
  | accepted hws => rw [hI.blank ws hws.ge] at ha; cases ha
  | retired hinfo hlive =>
    rw [(hI.shape ws _ hinfo).departure_live hlive] at ha
    cases ha
  | departed howner =>
    revert ha howner
    cases (w.socket ws).departure <;> simp [Departure.isAnnounced, Departure.debtor]
  | same hsocket => rw [hsocket]
  | touched _ _ _ _ _ hsocket => rw [hsocket]
  | connected _ _ hsocket => rw [hsocket]
  | verify _ _ _ _ hsocket => rw [hsocket]
  | verified _ _ hsocket => rw [hsocket]
  | claimed _ _ hsocket => rw [hsocket]

/-- A socket whose departure was announced has no route. -/
theorem Inv.not_routed (hI : Inv P w) {ws : SocketId}
    (ha : (w.socket ws).departure.isAnnounced = true) (id : Text) : ¬ Routed w.info ws id := by
  rintro ⟨info, hinfo, -, hlive, -⟩
  rw [(hI.shape ws info hinfo).departure_live hlive] at ha
  cases ha

/-- The earlier sockets of an id that is claimed are gone. -/
theorem Claims.cleared (hκ : ∀ t w, κ t w → afterDeparture t w ∧ Inv P w) {ws T : SocketId}
    {info : Attachment} {id : Text} (hc : Claims P κ w ws info id) (hne : T ≠ ws)
    (ha : Authenticated w.info T id) : (w.socket T).departure.isAnnounced = true := by
  obtain ⟨w₀, hresume, hlater⟩ := hc.since
  obtain ⟨hafter, hI₀⟩ := hκ _ _ hresume
  have hinfo : w₀.info = w.info := by
    funext T
    rw [World.info, World.info, hlater.socket]
  rw [← hinfo] at ha
  rw [hlater.socket]
  exact hafter ⟨info, hinfo ▸ hc.stored, hc.live⟩ T (hI₀.lt_of_authenticated ha) hne ha

theorem Cleared.act (hκ : ∀ t w, κ t w → afterDeparture t w ∧ Inv P w) (hI : Inv P w)
    (hcleared : Cleared w) (h : Act P κ w w') : Cleared w' := by
  intro a T id hne ha hT
  suffices hs : (w.socket a).departure.isAnnounced = true by
    rw [(h.alters a).announced hI hs]
    exact hs
  rcases (h.alters a).authenticated ha with ha | ⟨info, hc⟩
  · rcases (h.alters T).routed hT with hT | ⟨⟨info, hc⟩, -⟩
    · exact hcleared a T id hne ha hT
    · exact hc.cleared hκ hne ha
  · -- `a` claims the id that `T` has, but then `T` is gone
    have hT' : Routed w.info T id := by
      rcases (h.alters T).routed hT with hT | ⟨⟨info', hc'⟩, -⟩
      · exact hT
      · obtain ⟨frame, hevent, -⟩ := hc.event
        obtain ⟨frame', hevent', -⟩ := hc'.event
        have hsame := hevent.symm.trans hevent'
        simp only [Option.some.injEq, Event.message.injEq] at hsame
        exact absurd hsame.1 hne
    exact absurd hT' (hI.not_routed (hc.cleared hκ (Ne.symm hne) hT'.authenticated) id)

/-! ## Announcements -/

/-- A frame that announces a departure is sent while that departure is being
announced, to somebody who was not told of it. -/
theorem Emits.gone_cases (hI : Inv P w) {e : Sent} (h : Emits P κ w e)
    (hgone : e.bytes.head? = some 8 ∨ e.about.isSome = true) :
    ∃ a id seen missed, e.about = some a ∧ e.bytes = 8 :: unhex id ∧ e.seen = w.info ∧
      Authenticated w.info a id ∧ (w.socket a).departure = .announcing e.handler seen missed ∧
      e.target ≠ a ∧ ∀ e' ∈ w.past.wire, e'.target = e.target → e'.about ≠ some a := by
  cases h with
  | @control ws info bytes category about hs hinfo hlive =>
    cases hs with
    | @gone a id id' seen missed _ hdeparture habout hrouted hne hfirst =>
      refine ⟨a, id, seen, missed, rfl, rfl, rfl, habout, hdeparture, ?_, hfirst⟩
      intro heq
      obtain rfl : ws = a := heq
      obtain ⟨info', hinfo', -, -, hid'⟩ := hrouted
      obtain ⟨info'', hinfo'', -, hid⟩ := habout
      obtain rfl := Option.some.inj (hinfo'.symm.trans hinfo'')
      exact hne (Option.some.inj (hid'.symm.trans hid))
    | challenge => simp [challengeFrame] at hgone
    | confirmation => simp at hgone
    | pong => simp at hgone
    | ping => simp at hgone
  | @datagram ws info target other bytes hf =>
    obtain ⟨key, frame, hc⟩ := hf.carries hI
    obtain ⟨tag, htag, -, hbytes⟩ := hc.bytes
    have hbytes' : bytes = (tag + 2) :: key ++ frame.drop 33 := hbytes
    rcases htag with rfl | rfl <;> simp [hbytes'] at hgone

/-- The departure of a socket is changed by a retirement, by a step of a departure,
or not at all. -/
theorem Act.departure_cases (h : Act P κ w w') (a : SocketId) :
    (w'.socket a).departure = (w.socket a).departure ∨ Depart P w w' ∨
      (w'.socket a).departure = .live ∨ ∃ k seen, (w'.socket a).departure = .retired k seen := by
  cases h with
  | depart h => exact .inr (.inl h)
  | touch h =>
    rcases h.touched a with hsocket | ⟨_, _, _, -, -, -, -, -, hsocket⟩ <;>
      exact .inl (by rw [hsocket])
  | @accept r room challenge due bucket =>
    by_cases ha : a = w.count
    · subst ha
      exact .inr (.inr (.inl (by simp [Socket.none])))
    · exact .inl (by simp [ha])
  | @connect ws | @verify ws | @verified ws | @claim ws =>
    by_cases ha : a = ws
    · subst ha
      exact .inl (by simp)
    · exact .inl (by simp [ha])
  | @reclaim ws info id old other hc hne =>
    by_cases ha : a = old
    · subst ha
      exact .inr (.inr (.inr ⟨_, _, retired_departure _ _ _⟩))
    · by_cases ha' : a = ws
      · subst ha'
        exact .inl (by simp [ha])
      · exact .inl (by simp [ha, ha'])
  | @retire ws =>
    by_cases ha : a = ws
    · subst ha
      exact .inr (.inr (.inr ⟨_, _, retired_departure _ _ _⟩))
    · exact .inl (by simp [ha])
  | _ => exact .inl rfl

/-- A departure was announced before, or its announcement ends now. -/
theorem Act.announced_cases (h : Act P κ w w') {a : SocketId} {k : ℕ} {seen told : View}
    {missed : List SocketId} (hd : (w'.socket a).departure = .announced k seen told missed) :
    (w.socket a).departure = .announced k seen told missed ∨
      (w.socket a).departure = .announcing k seen missed ∧ told = w.info ∧ w'.past = w.past ∧
        ∀ id, Authenticated w.info a id → ∀ peer id', peer ≠ a → Routed w.info peer id' → id' ≠ id →
          peer ∈ missed ∨ ∃ e ∈ w.past.wire, e.target = peer ∧ e.about = some a := by
  have hsame : (w'.socket a).departure = (w.socket a).departure →
      (w.socket a).departure = .announced k seen told missed := fun heq => heq ▸ hd
  rcases h.departure_cases a with heq | hstep | hlive | ⟨_, _, hretired⟩
  · exact .inl (hsame heq)
  · cases hstep with
    | @announced ws seen' missed' hdeparture htold =>
      by_cases ha : a = ws
      · subst ha
        simp only [World.depart_socket, Function.update_self, hdeparture, Departure.conclude,
          Departure.announced.injEq] at hd
        obtain ⟨rfl, rfl, rfl, rfl⟩ := hd
        exact .inr ⟨hdeparture, rfl, rfl, htold⟩
      · exact .inl (hsame (by simp [ha]))
    | @close ws _ _ _ hdeparture =>
      by_cases ha : a = ws
      · subst ha
        exact .inl (hsame (by simp))
      · exact .inl (hsame (by simp [ha]))
    | @fold ws _ _ _ hdeparture =>
      by_cases ha : a = ws
      · subst ha
        simp [hdeparture, Departure.fold] at hd
      · exact .inl (hsame (by simp [ha]))
    | @announcing ws _ hdeparture =>
      by_cases ha : a = ws
      · subst ha
        simp [hdeparture, Departure.announce] at hd
      · exact .inl (hsame (by simp [ha]))
    | @missed ws _ _ _ _ hdeparture =>
      by_cases ha : a = ws
      · subst ha
        simp [hdeparture, Departure.miss] at hd
      · exact .inl (hsame (by simp [ha]))
  · rw [hlive] at hd
    cases hd
  · rw [hretired] at hd
    cases hd

/-- The sockets that could not be told. -/
def Departure.missed : Departure → List SocketId
  | .announcing _ _ missed => missed
  | .announced _ _ _ missed => missed
  | _ => []

/-- A socket is missed because a call of `send` threw. -/
theorem Act.missed_cases (h : Act P κ w w') (a : SocketId) :
    (w'.socket a).departure.missed ⊆ (w.socket a).departure.missed ∨
      ∃ n < w.calls, P.throws n = true := by
  have hsame : (w'.socket a).departure.missed = (w.socket a).departure.missed →
      (w'.socket a).departure.missed ⊆ (w.socket a).departure.missed ∨
        ∃ n < w.calls, P.throws n = true := fun heq => .inl (by rw [heq]; exact List.Subset.refl _)
  rcases h.departure_cases a with heq | hstep | hlive | ⟨_, _, hretired⟩
  · exact hsame (by rw [heq])
  · cases hstep with
    | missed _ hn hthrows => exact .inr ⟨_, hn, hthrows⟩
    | @announced ws _ _ hdeparture | @close ws _ _ _ hdeparture | @fold ws _ _ _ hdeparture
    | @announcing ws _ hdeparture =>
      by_cases ha : a = ws
      · subst ha
        exact hsame (by simp [hdeparture, Departure.missed, Departure.conclude, Departure.fold,
          Departure.announce])
      · exact hsame (by simp [ha])
  · exact .inl (by rw [hlive]; exact List.nil_subset _)
  · exact .inl (by rw [hretired]; exact List.nil_subset _)

/-- Nobody was missed but by a call of `send` that threw. -/
def MissedByThrow (P : Platform) (w : World) : Prop :=
  ∀ a T, T ∈ (w.socket a).departure.missed → ∃ n < w.calls, P.throws n = true

theorem MissedByThrow.act (hj : MissedByThrow P w) (h : Act P κ w w') : MissedByThrow P w' := by
  intro a T hT
  have hcalls := h.calls_le
  rcases h.missed_cases a with hsub | ⟨n, hn, hthrows⟩
  · obtain ⟨n, hn, hthrows⟩ := hj a T (hsub hT)
    exact ⟨n, hn.trans_le hcalls, hthrows⟩
  · exact ⟨n, hn.trans_le hcalls, hthrows⟩

/-- What is known of announcements. -/
structure Announcing (w : World) : Prop where
  cleared : Cleared w
  /-- A frame that announces a departure is true when it is sent. -/
  truthful : ∀ e ∈ w.past.wire, e.bytes.head? = some 8 ∨ e.about.isSome = true →
    ∃ a id, e.about = some a ∧ e.bytes = 8 :: unhex id ∧ Authenticated w.info a id ∧
      ∀ T, ¬ Routed e.seen T id
  /-- Nobody is told of a departure twice. -/
  once : w.past.wire.Pairwise fun e e' => e.target = e'.target → e'.about.isSome = true →
    e.about ≠ e'.about
  /-- When a departure has been announced, those who had a route have been told. -/
  told : ∀ a k seen told missed, (w.socket a).departure = .announced k seen told missed →
    ∀ id, Authenticated w.info a id → ∀ T, T ≠ a → HasRoute told T →
      T ∈ missed ∨ ∃ e ∈ w.past.wire, e.target = T ∧ e.about = some a

theorem Announcing.act (hκ : ∀ t w, κ t w → afterDeparture t w ∧ Inv P w) (hI : Inv P w)
    (hj : Announcing w) (h : Act P κ w w') : Announcing w' := by
  have hext := h.extends hI
  -- a frame that is sent now is about an id that no socket is routed as
  have hemits : ∀ {e}, Emits P κ w e → (e.bytes.head? = some 8 ∨ e.about.isSome = true) →
      ∃ a id, e.about = some a ∧ e.bytes = 8 :: unhex id ∧ Authenticated w.info a id ∧
        ∀ T, ¬ Routed e.seen T id := by
    intro e he hgone
    obtain ⟨a, id, seen, missed, habout, hbytes, hseen, hauth, hdeparture, -, -⟩ :=
      he.gone_cases hI hgone
    refine ⟨a, id, habout, hbytes, hauth, fun T hT => ?_⟩
    rw [hseen] at hT
    have hne : a ≠ T := by
      rintro rfl
      obtain ⟨info, hinfo, -, hlive, -⟩ := hT
      rw [(hI.shape _ info hinfo).departure_live hlive] at hdeparture
      cases hdeparture
    have hannounced := hj.cleared a T id hne hauth hT
    rw [hdeparture] at hannounced
    cases hannounced
  constructor
  · exact hj.cleared.act hκ hI h
  · intro e he hgone
    suffices hs : ∃ a id, e.about = some a ∧ e.bytes = 8 :: unhex id ∧ Authenticated w.info a id ∧
        ∀ T, ¬ Routed e.seen T id by
      obtain ⟨a, id, habout, hbytes, hauth, hnone⟩ := hs
      exact ⟨a, id, habout, hbytes, hext.authenticated hI hauth, hnone⟩
    rcases h.mem_wire he with he | he'
    · exact hj.truthful e he hgone
    · exact hemits he' hgone
  · rcases h.wire_cases with hw | ⟨e', he', hw⟩
    · rw [hw]
      exact hj.once
    · rw [hw, List.pairwise_append]
      refine ⟨hj.once, List.pairwise_singleton .., fun e he e'' he'' htarget hsome => ?_⟩
      obtain rfl := List.mem_singleton.mp he''
      obtain ⟨a, id, _, _, habout, -, -, -, -, -, hfirst⟩ := he'.gone_cases hI (.inr hsome)
      rw [habout]
      exact hfirst e he htarget
  · intro a k seen told missed hd id hauth T hne hroute
    have hwire := hext.wire
    -- the retirement came to its end before, or does so now
    rcases h.announced_cases hd with hd' | ⟨hd', rfl, hpast, htold⟩
    · have hauth' : Authenticated w.info a id := by
        rcases (h.alters a).authenticated hauth with hauth' | ⟨info, hc⟩
        · exact hauth'
        · rw [(hI.shape a info hc.stored).departure_live hc.live] at hd'
          cases hd'
      refine (hj.told a k seen told missed hd' id hauth' T hne hroute).imp_right ?_
      rintro ⟨e, he, htarget, habout⟩
      exact ⟨e, hwire.subset he, htarget, habout⟩
    · obtain ⟨id', hT⟩ := hroute
      have hauth' : Authenticated w.info a id := by
        rcases (h.alters a).authenticated hauth with hauth' | ⟨info, hc⟩
        · exact hauth'
        · rw [(hI.shape a info hc.stored).departure_live hc.live] at hd'
          cases hd'
      have hother : id' ≠ id := by
        rintro rfl
        have hannounced := hj.cleared a T id' (Ne.symm hne) hauth' hT
        rw [hd'] at hannounced
        cases hannounced
      rw [hpast]
      exact htold id hauth' T id' hne hT hother

theorem Announcing.rests (hj : Announcing w) (hrest : Rests P w w') : Announcing w' := by
  have hd : ∀ ws, (w'.socket ws).departure = (w.socket ws).departure := by
    intro ws
    obtain ⟨r, hsocket⟩ := hrest.socket ws
    rw [hsocket]
  constructor
  · intro a T id
    rw [hrest.info_eq, hd]
    exact hj.cleared a T id
  · rw [hrest.wire_eq, hrest.info_eq]
    exact hj.truthful
  · rw [hrest.wire_eq]
    exact hj.once
  · intro a
    rw [hd, hrest.wire_eq, hrest.info_eq]
    exact hj.told a

/-- Of a list in which nobody is told twice, one frame tells `T` about `a`. -/
theorem filter_eq_singleton {wire : List Sent}
    (honce : wire.Pairwise fun e e' => e.target = e'.target → e'.about.isSome = true →
      e.about ≠ e'.about) {e : Sent} {a T : SocketId} (he : e ∈ wire) (htarget : e.target = T)
    (habout : e.about = some a) :
    wire.filter (fun e => e.target = T ∧ e.about = some a) = [e] := by
  induction wire with
  | nil => cases he
  | cons first rest ih =>
    rw [List.pairwise_cons] at honce
    rcases List.mem_cons.mp he with rfl | hrest
    · have hnil : rest.filter (fun e => e.target = T ∧ e.about = some a) = [] := by
        rw [List.filter_eq_nil_iff]
        intro e' he' htold
        obtain ⟨htarget', habout'⟩ := of_decide_eq_true htold
        exact honce.1 e' he' (htarget.trans htarget'.symm) (by rw [habout']; rfl)
          (habout.trans habout'.symm)
      rw [List.filter_cons_of_pos (by simp [htarget, habout]), hnil]
    · rw [List.filter_cons_of_neg, ih honce.2 hrest]
      intro htold
      obtain ⟨htarget', habout'⟩ := of_decide_eq_true htold
      exact honce.1 e hrest (htarget'.trans htarget.symm) (by rw [habout]; rfl)
        (habout'.trans habout.symm)

/-- The frames that tell `T` of the departure of `a`. -/
def World.tellings (w : World) (T a : SocketId) : List Sent :=
  w.past.wire.filter fun e => e.target = T ∧ e.about = some a

/-- When an endpoint comes back only after all its earlier sockets are gone and this
was announced: every announcement is true; at the end of a retirement everybody else
who has a route was told exactly once, or could not be told because that `send` threw;
and when nothing is in flight, the retirement of every archived socket has come to
that end. -/
theorem gone_truthful (hr : Runs (room P) afterDeparture freshRoom ls c) :
    (∀ e ∈ c.state.past.wire, e.bytes.head? = some 8 →
      ∃ key, e.bytes = 8 :: key ∧ ∀ T, ¬ Routed e.seen T (hex key)) ∧
    (∀ a k seen told missed, (c.state.socket a).departure = .announced k seen told missed →
      ∀ key, Authenticated c.state.info a (hex key) → ∀ T, T ≠ a → HasRoute told T →
        (∃ e, c.state.tellings T a = [e] ∧ e.bytes = 8 :: key) ∨
          T ∈ missed ∧ ∃ n < c.state.calls, P.throws n = true) ∧
    (c.Quiet → ∀ a, Archived c.state.info a →
      (c.state.socket a).departure.isAnnounced = true) := by
  have hrun := runsFrom_fresh hr
  have hI := hrun.inv_end
  have hj : Announcing c.state := by
    refine room_keeps (J := Announcing) hrun ?_ ?_ ?_
    · constructor
      · rintro a T id - ⟨info, hinfo, -⟩
        cases hinfo
      · exact nofun
      · exact .nil
      · exact nofun
    · exact fun _ _ _ hJ hrest => hJ.rests hrest
    · exact fun _ _ hI hJ ha => hJ.act (fun _ _ hκ => ⟨hκ.1, hκ.2.1⟩) hI ha
  have hmissed : MissedByThrow P c.state := by
    refine room_keeps (J := MissedByThrow P) hrun nofun ?_ fun _ _ _ hJ ha => hJ.act ha
    intro w w' _ hJ hrest a
    obtain ⟨r, hsocket⟩ := hrest.socket a
    rw [hsocket, hrest.calls]
    exact hJ a
  -- the id of an authenticated socket is a key, spelled in hexadecimal
  have hkey : ∀ a id, Authenticated c.state.info a id → hex (unhex id) = id := by
    rintro a id ⟨info, hinfo, hphase, hid⟩
    obtain ⟨key, hk, -⟩ := (hI.shape a info hinfo).identity hphase
    obtain rfl : id = hex key := Option.some.inj (hid.symm.trans hk)
    rw [unhex_hex]
  refine ⟨?_, ?_, ?_⟩
  · intro e he htag
    obtain ⟨a, id, -, hbytes, hauth, hnone⟩ := hj.truthful e he (.inl htag)
    exact ⟨unhex id, hbytes, (hkey a id hauth).symm ▸ hnone⟩
  · intro a k seen told missed hd key hauth T hne hroute
    rcases hj.told a k seen told missed hd _ hauth T hne hroute with hmem | ⟨e, he, htarget, habout⟩
    · exact .inr ⟨hmem, hmissed a T (by rw [hd]; exact hmem)⟩
    · refine .inl ⟨e, filter_eq_singleton hj.once he htarget habout, ?_⟩
      obtain ⟨a', id, habout', hbytes, hauth', -⟩ := hj.truthful e he (.inr (by rw [habout]; rfl))
      obtain rfl : a = a' := Option.some.inj (habout.symm.trans habout')
      obtain ⟨info, hinfo, -, hid⟩ := hauth
      obtain ⟨info', hinfo', -, hid'⟩ := hauth'
      obtain rfl := Option.some.inj (hinfo.symm.trans hinfo')
      obtain rfl := Option.some.inj (hid.symm.trans hid')
      rw [hbytes, unhex_hex]
  · intro hq a harch
    obtain ⟨_, _, _, _, hd⟩ := hrun.announced hq harch
    rw [hd]
    rfl

/-- Two endpoints, one of which then leaves, and the other is told. -/
theorem gone_truthful_close : ∃ c : RoomConfig,
    (∃ e ∈ c.state.past.wire, e.target = 1 ∧ e.bytes = 8 :: sampleKey 7) ∧
      ∀ e ∈ c.state.past.wire, e.bytes.head? = some 8 →
        ∃ key, e.bytes = 8 :: key ∧ ∀ T, ¬ Routed e.seen T (hex key) := by
  have hrun : (freshRoom.replay (room calmPlatform) afterDeparture
      (datagramSchedule ++ handled 5 8 (.close 0 1000 []))).any (fun c =>
      decide (∃ e ∈ c.state.past.wire, e.target = 1 ∧ e.bytes = 8 :: sampleKey 7)) = true := by
    decide +kernel
  obtain ⟨c, hc, hrun⟩ := Option.any_eq_true .. |>.mp hrun
  exact ⟨c, of_decide_eq_true hrun, (gone_truthful (runs_of_replay hc)).1⟩

/-- The endpoint of socket 0 comes back on socket 2, while socket 1 is there. -/
def comebackSchedule : List (Label Event Effect) :=
  threeUpgrades ++ handled 3 17 (.message 0 (.binary (authFrame 7))) ++
    handled 4 15 (.message 1 (.binary (authFrame 8))) ++
    handled 5 23 (.message 2 (.binary (authFrame 7)))

/-- Socket 1 is told that the endpoint is gone, which has a route on socket 2. -/
theorem gone_untruthful : ¬ ∀ (ls : List (Label Event Effect)) (c : RoomConfig),
    Runs (room calmPlatform) anytime freshRoom ls c →
      ∀ e ∈ c.state.past.wire, e.bytes.head? = some 8 →
        ∃ key, e.bytes = 8 :: key ∧ ∀ T, ¬ Routed e.seen T (hex key) := by
  intro h
  have hrun : (freshRoom.replay (room calmPlatform) anytime comebackSchedule).any (fun c =>
      decide (∃ e ∈ c.state.past.wire, e.bytes = 8 :: sampleKey 7 ∧
        Routed e.seen 2 (hex (sampleKey 7)))) = true := by
    decide +kernel
  obtain ⟨c, hc, hrun⟩ := Option.any_eq_true .. |>.mp hrun
  obtain ⟨e, he, hbytes, hrouted⟩ := of_decide_eq_true hrun
  obtain ⟨key, hkey, hnone⟩ := h _ c (runs_of_replay hc) e he (by rw [hbytes]; rfl)
  obtain rfl : sampleKey 7 = key := by simpa [hbytes] using hkey
  exact hnone 2 hrouted

end IrohExperiment.Relay
