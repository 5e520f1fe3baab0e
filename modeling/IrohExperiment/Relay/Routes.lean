/-
# Routes (`worker/src/iroh-relay.js`)

A route of an endpoint is a live socket that is authenticated as it.  At every
moment an endpoint has at most one, an archived socket stays archived, and no write
of an attachment ever cleared the flag (`single_route`): `authorize` claims an id
and retires the socket that had it without awaiting anything in between.

The second half says who gains and who loses a route: a socket becomes authenticated
by a claim (`Alters.authenticated`), and it is archived by another socket's claim or
by a retirement for one of the causes listed in `Cause` (`Act.retires`).
-/
import IrohExperiment.Relay.Runs

namespace IrohExperiment.Relay

open Coop

variable {P : Platform} {κ : Trigger Event Point → World → Prop}
    {ls ls' : List (Label Event Effect)}
  {c c' c₀ : RoomConfig} {w w' : World}

/-! ## One route for an endpoint -/

/-- Storing an attachment over that of a live socket clears no `archived` flag. -/
theorem setInfo_revived {ws : SocketId} {info : Attachment} (hinfo : w.info ws = some info)
    (hlive : info.archived = false) (new : Attachment) :
    (w.setInfo ws new).past.revived = w.past.revived := by
  simp [hinfo, hlive]

theorem amend_revived {ws : SocketId} {info : Attachment} (hinfo : w.info ws = some info)
    (hlive : info.archived = false) (new : Attachment) (made : Counters) :
    (w.amend ws new made).past.revived = w.past.revived :=
  setInfo_revived (w := w.charge made) hinfo hlive _

theorem Touch.revived_eq (h : Touch P κ w w') : w'.past.revived = w.past.revived := by
  cases h with
  | take hr => exact amend_revived hr.stored hr.live _ _
  | refuse hr => exact amend_revived hr.stored hr.live _ _
  | send hs hinfo hlive => exact amend_revived (w := w.transmit _ _ _) hinfo hlive _ _
  | count hs => obtain ⟨hs, -⟩ | ⟨hs, -⟩ := hs <;> exact amend_revived hs.stored hs.live _ _
  | datagram hs => exact amend_revived hs.stored hs.live _ _
  | @forward ws info target other bytes hf =>
    obtain ⟨_, _, _, hs, -, hrouted, -⟩ := hf.datagram
    have hother := hrouted.live_of_info hf.stored
    have hstored : (w.sent target other bytes none none).info ws = some info := by
      have hinfo : (w.socket ws).attachment = some info := hs.stored
      simp [World.info, hf.ne.symm, hinfo]
    exact (amend_revived hstored hs.live _ _).trans
      (amend_revived (w := w.transmit _ _ _) hf.stored hother _ _)
  | drop hs => exact amend_revived hs.stored hs.live _ _
  | clear hs => exact setInfo_revived hs.stored hs.live _
  | arm _ hinfo hlive => exact setInfo_revived hinfo hlive _

/-- No act clears the `archived` flag of a socket. -/
theorem Act.revived_eq (h : Act P κ w w') : w'.past.revived = w.past.revived := by
  cases h with
  | touch h => exact h.revived_eq
  | depart h => cases h <;> simp
  | @accept r room challenge due bucket =>
    simp [World.info]
    simp [Socket.none]
  | verify _ _ hinfo hlive => exact setInfo_revived hinfo hlive _
  | claim hc => exact amend_revived hc.stored hc.live _ _
  | @reclaim ws info id old other hc hne hother hrouted =>
    have hclaimed : (w.claimed ws info id).past.revived = w.past.revived :=
      amend_revived hc.stored hc.live _ _
    rw [← hclaimed]
    exact setInfo_revived (w := w.claimed ws info id) (by rw [World.claimed_info_ne hne, hother])
      (hrouted.live_of_info hother) _
  | retire hinfo hlive => exact setInfo_revived hinfo hlive _
  | _ => simp

/-- At every suspension point an endpoint has at most one live authenticated socket,
an archived socket stays archived, and no attachment write ever cleared the flag. -/
theorem single_route (hr : Runs (room P) anytime freshRoom ls c)
    (hr' : Runs (room P) anytime c ls' c') :
    (∀ id a b, Routed c.state.info a id → Routed c.state.info b id → a = b) ∧
      (∀ ws, Archived c.state.info ws → Archived c'.state.info ws) ∧
      c.state.past.revived = false := by
  have hrun := runsFrom_fresh hr
  refine ⟨fun id a b ha hb => hrun.inv_end.sole a b id ha hb,
    fun ws harch => (hrun.extends_later hr').archived hrun.inv_end harch, ?_⟩
  refine room_keeps (J := fun w => w.past.revived = false) hrun rfl (fun w w' _ hJ hrest => ?_)
    fun w w' _ hJ ha => ha.revived_eq.trans hJ
  rw [hrest.past]
  exact hJ

/-- Two sockets that authenticate with one key, one after the other. -/
def reconnectSchedule : List (Label Event Effect) :=
  handled 0 8 (.fetch upgradeRequest) ++ handled 1 8 (.fetch upgradeRequest) ++
    handled 2 17 (.message 0 (.binary (authFrame 7))) ++
    handled 3 23 (.message 1 (.binary (authFrame 7)))

theorem single_route_reconnect :
    ∃ c c' : RoomConfig, Routed c.state.info 1 (hex (sampleKey 7)) ∧ Archived c.state.info 0 ∧
      Archived c'.state.info 1 ∧
      (∀ id a b, Routed c.state.info a id → Routed c.state.info b id → a = b) ∧
      (∀ ws, Archived c.state.info ws → Archived c'.state.info ws) ∧
      c.state.past.revived = false := by
  have hrun : (freshRoom.replay (room calmPlatform) anytime reconnectSchedule).any (fun c =>
      decide (Routed c.state.info 1 (hex (sampleKey 7)) ∧ Archived c.state.info 0) &&
        (c.replay (room calmPlatform) anytime [.start (.close 1 1000 [])]).any fun c' =>
          decide (Archived c'.state.info 1)) = true := by decide +kernel
  obtain ⟨c, hc, hrun⟩ := Option.any_eq_true .. |>.mp hrun
  obtain ⟨hbefore, hrun⟩ := Bool.and_eq_true_iff.mp hrun
  obtain ⟨c', hc', hafter⟩ := Option.any_eq_true .. |>.mp hrun
  obtain ⟨hrouted, harch⟩ := of_decide_eq_true hbefore
  exact ⟨c, c', hrouted, harch, of_decide_eq_true hafter,
    single_route (runs_of_replay hc) (runs_of_replay hc')⟩

/-! ## Gaining and losing a route -/

/-- A socket becomes authenticated by a claim. -/
theorem Alters.authenticated {ws : SocketId} {id : Text} (h : Alters P κ w w' ws)
    (ha : Authenticated w'.info ws id) :
    Authenticated w.info ws id ∨ ∃ info, Claims P κ w ws info id := by
  obtain ⟨info', hinfo', hphase, hid⟩ := ha
  simp only [World.info] at hinfo'
  cases h with
  | same hsocket => exact .inl ⟨info', by rw [World.info, ← hsocket, hinfo'], hphase, hid⟩
  | touched hinfo _ halike _ _ hsocket =>
    rw [hsocket] at hinfo'
    obtain rfl := Option.some.inj hinfo'
    exact .inl ⟨_, hinfo, halike.phase ▸ hphase, halike.id ▸ hid⟩
  | accepted _ _ _ _ _ hsocket =>
    rw [hsocket] at hinfo'
    obtain rfl := Option.some.inj hinfo'
    cases hphase
  | connected _ _ hsocket =>
      exact .inl ⟨info', by rw [hsocket] at hinfo'; exact hinfo', hphase, hid⟩
  | verify _ _ _ _ hsocket =>
    rw [hsocket] at hinfo'
    obtain rfl := Option.some.inj hinfo'
    cases hphase
  | verified _ _ hsocket => exact .inl ⟨info', by rw [hsocket] at hinfo'; exact hinfo', hphase, hid⟩
  | claimed hc _ hsocket =>
    rw [hsocket] at hinfo'
    obtain rfl := Option.some.inj hinfo'
    obtain rfl := Option.some.inj hid
    exact .inr ⟨_, hc⟩
  | retired hinfo _ _ hsocket =>
    rw [hsocket] at hinfo'
    obtain rfl := Option.some.inj hinfo'
    exact .inl ⟨_, hinfo, hphase, hid⟩
  | departed _ _ _ _ hsocket =>
    exact .inl ⟨info', by rw [hsocket] at hinfo'; exact hinfo', hphase, hid⟩

/-- Sockets are retired by claims and by retirements. -/
theorem Act.retires (h : Act P κ w w') :
    (∀ ws, Archived w'.info ws → Archived w.info ws) ∨
    (∃ ws info id old other, Claims P κ w ws info id ∧ old ≠ ws ∧ w.info old = some other ∧
      Routed w.info old id ∧ w' = (w.claimed ws info id).retired old other) ∨
    (∃ ws info, w.info ws = some info ∧ info.archived = false ∧ Cause P κ w ws info ∧
      w' = w.retired ws info) := by
  have hother : ∀ {T : SocketId}, (∀ ws, ws ≠ T → w'.socket ws = w.socket ws) →
      (∀ info, (w'.socket T).attachment = some info → info.archived = true → Archived w.info T) →
      ∀ ws, Archived w'.info ws → Archived w.info ws := by
    rintro T hne hself ws ⟨info, hinfo, harch⟩
    by_cases hws : ws = T
    · exact hws ▸ hself info (hws ▸ hinfo) harch
    · exact ⟨info, by rw [World.info, ← hne ws hws]; exact hinfo, harch⟩
  cases h with
  | touch ht =>
    refine .inl fun ws hws => ?_
    obtain ⟨info, hinfo, harch⟩ := hws
    simp only [World.info] at hinfo
    obtain hsame | ⟨_, info', _, -, hlive, halike, -, -, hsocket⟩ := ht.touched ws
    · exact ⟨info, by rw [World.info, ← hsame]; exact hinfo, harch⟩
    · rw [hsocket] at hinfo
      obtain rfl := Option.some.inj hinfo
      simp [halike.archived, hlive] at harch
  | depart hd => exact .inl (by rw [hd.info_eq]; exact fun _ => id)
  | accept =>
    exact .inl (hother (T := w.count) (fun ws hws => by simp [hws]) fun info hinfo harch => by
      simp at hinfo
      simp [← hinfo, Attachment.opening] at harch)
  | @connect T =>
    exact .inl (hother (T := T) (fun ws hws => by simp [hws]) fun info hinfo harch =>
      ⟨info, by simpa [World.info] using hinfo, harch⟩)
  | @verify T _ info _ _ _ _ hlive =>
    exact .inl (hother (T := T) (fun ws hws => by simp [hws]) fun info hinfo harch => by
      simp at hinfo
      simp [← hinfo, hlive] at harch)
  | @verified T =>
    exact .inl (hother (T := T) (fun ws hws => by simp [hws]) fun info hinfo harch =>
      ⟨info, by simpa [World.info] using hinfo, harch⟩)
  | @claim T info id hc =>
    exact .inl (hother (T := T) (fun ws hws => by simp [hws]) fun info hinfo harch => by
      simp at hinfo
      simp [← hinfo, hc.live, Attachment.plus] at harch)
  | @reclaim ws info id old other hc hne hold hrouted =>
    exact .inr (.inl ⟨ws, info, id, old, other, hc, hne, hold, hrouted, rfl⟩)
  | @retire ws info hinfo hlive hcause => exact .inr (.inr ⟨ws, info, hinfo, hlive, hcause, rfl⟩)
  | _ => exact .inl fun ws => by simp [Archived, World.info]

/-- The record of a retirement keeps its owner and its view. -/
theorem Alters.owner {ws : SocketId} (hI : Inv P w) (h : Alters P κ w w' ws)
    (harch : Archived w.info ws ∨ ¬ Archived w'.info ws) :
    (w'.socket ws).departure.owner = (w.socket ws).departure.owner ∧
      (w'.socket ws).departure.view = (w.socket ws).departure.view := by
  cases h with
  | accepted hws _ _ _ _ hsocket => rw [hsocket, hI.blank ws hws.ge]; exact ⟨rfl, rfl⟩
  | @retired info seen hinfo hlive _ hsocket =>
    refine absurd harch (not_or.mpr ⟨?_, not_not.mpr ⟨{ info with archived := true }, ?_, rfl⟩⟩)
    · exact Live.not_archived ⟨info, hinfo, hlive⟩
    · rw [World.info, hsocket]
  | departed howner hnew _ hview _ =>
    exact ⟨hnew.trans (Departure.owner_of_debtor howner).symm, hview⟩
  | same hsocket => rw [hsocket]; exact ⟨rfl, rfl⟩
  | touched _ _ _ _ _ hsocket => rw [hsocket]; exact ⟨rfl, rfl⟩
  | connected _ _ hsocket => rw [hsocket]; exact ⟨rfl, rfl⟩
  | verify _ _ _ _ hsocket => rw [hsocket]; exact ⟨rfl, rfl⟩
  | verified _ _ hsocket => rw [hsocket]; exact ⟨rfl, rfl⟩
  | claimed _ _ hsocket => rw [hsocket]; exact ⟨rfl, rfl⟩

/-- A route stays until its socket is archived. -/
theorem Routed.extends {ws : SocketId} {id : Text} (hr : Routed w.info ws id) (hI : Inv P w)
    (hext : w.Extends w') (harch : ¬ Archived w'.info ws) : Routed w'.info ws id := by
  obtain ⟨info, hinfo, hphase, hid⟩ := hext.authenticated hI hr.authenticated
  refine ⟨info, hinfo, hphase, ?_, hid⟩
  by_contra h
  exact harch ⟨info, hinfo, by simpa using h⟩

/-- The message proves one key at most. -/
theorem ValidAuth.unique {challenge frame : Bytes} {id id' : Text}
    (h : ValidAuth P challenge frame id) (h' : ValidAuth P challenge frame id') : id' = id := by
  obtain ⟨auth, hauth, -, -, rfl⟩ := h
  obtain ⟨auth', hauth', -, -, rfl⟩ := h'
  rw [Option.some.inj (hauth.symm.trans hauth')]

/-- The handler of a message that the run delivered is over by its end. -/
theorem RunsFrom.answered (hr : RunsFrom P κ c₀ ls c)
    (h₀ : c₀.state.past.arrivals.length = c₀.started) (hover : c.Quiet)
    {ws : SocketId} {m : Message} (hm : Label.start (.message ws m) ∈ ls) :
    c.state.Answered ws := by
  obtain ⟨harr, hlen⟩ := hr.arrivals h₀
  have hmem : Event.message ws m ∈ ls.filterMap delivered :=
    List.mem_filterMap.mpr ⟨_, hm, rfl⟩
  obtain ⟨i, hi, hget⟩ := List.mem_iff_getElem.mp hmem
  have he : c.state.past.arrivals[c₀.started + i]? = some (.message ws m) := by
    rw [harr, List.getElem?_append_right (by omega), h₀, Nat.add_sub_cancel_left,
      List.getElem?_eq_getElem hi, hget]
  have hlt : c₀.started + i < c.started := hlen ▸ (List.getElem?_eq_some_iff.mp he).1
  obtain ⟨r, -, hleaves⟩ := hr.leaves (Nat.le_add_right _ _) hlt (hover _ hlt)
  exact hleaves.message ws m he

/-- Three sockets are accepted. -/
def threeUpgrades : List (Label Event Effect) :=
  handled 0 8 (.fetch upgradeRequest) ++ handled 1 8 (.fetch upgradeRequest) ++
    handled 2 8 (.fetch upgradeRequest)

end IrohExperiment.Relay
