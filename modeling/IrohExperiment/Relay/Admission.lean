/-
# Admission of upgrade requests (`worker/src/iroh-relay.js`)

At most 20 upgrades are accepted in a room, at most 4 of its sockets are live at a
time, all of them were opened with the ping interval of the first, and a request
that arrives after the room has expired is refused.  This holds as long as nobody is
admitted while another handler has been admitted and its socket would be one too
many, and nobody is admitted to a room whose storage was deleted.

The main result is `admission_bounds`; `admission_crowded` is a run in which five sockets
are live, because five upgrades were admitted before any of them was accepted.
-/
import IrohExperiment.Relay.RoomMeta

namespace IrohExperiment.Relay

open Coop

variable {P : Platform} {κ : Trigger Event Point → World → Prop} {ls : List (Label Event Effect)}
  {c c' c₀ : RoomConfig} {w w' : World}

/-! ## Live sockets -/

/-- The socket holds an admission slot: it is not archived, and its connection is
neither closing nor closed. -/
def World.holdsSlot (w : World) (ws : SocketId) : Bool :=
  !(w.info ws).any (·.archived) && (w.socket ws).readyState = .open

/-- The accepted sockets that are live. -/
def World.slotCount (w : World) : ℕ := (List.range w.count).countP w.holdsSlot

theorem holdsSlot_iff (hI : Inv P w) {ws : SocketId} (hws : ws < w.count) :
    w.holdsSlot ws = true ↔ Live w.info ws ∧ (w.socket ws).readyState = .open := by
  obtain ⟨info, hinfo⟩ := Option.isSome_iff_exists.mp ((hI.known ws).mp hws)
  simp [World.holdsSlot, Live, hinfo]

/-- `admit` counts all live sockets. -/
theorem slotCount_le_liveCount (hI : Inv P w) : w.slotCount ≤ w.liveCount := by
  have hsame : w.liveCount = w.listing.countP w.holdsSlot := by
    unfold World.liveCount
    apply List.countP_congr
    intro ws _
    unfold World.holdsSlot
    cases (w.socket ws).readyState <;> simp
  rw [hsame, World.slotCount, List.countP_eq_length_filter, List.countP_eq_length_filter]
  apply List.Subperm.length_le
  apply List.subperm_of_subset (List.nodup_range.filter _)
  intro ws hws
  rw [List.mem_filter, List.mem_range] at hws
  exact List.mem_filter.mpr ⟨hI.lists ws ((holdsSlot_iff hI hws.1).mp hws.2).1, hws.2⟩

/-- A slot is taken by nothing but the acceptance of a socket. -/
theorem Alters.holdsSlot (hI : Inv P w) (hI' : Inv P w') {ws : SocketId} (h : Alters P κ w w' ws)
    (hws : ws < w.count) (hws' : ws < w'.count) (hslot : w'.holdsSlot ws = true) :
    w.holdsSlot ws = true := by
  obtain ⟨hlive, hopen⟩ := (holdsSlot_iff hI' hws').mp hslot
  rw [holdsSlot_iff hI hws]
  refine ⟨(h.live hlive).resolve_right fun hnew => hws.ne hnew.1, ?_⟩
  cases h with
  | same hsocket => rwa [hsocket] at hopen
  | touched _ _ _ _ _ hsocket => rwa [hsocket] at hopen
  | accepted hnew => exact absurd hnew hws.ne
  | connected _ _ hsocket => rwa [hsocket] at hopen
  | verify _ _ _ _ hsocket => rwa [hsocket] at hopen
  | verified _ _ hsocket => rwa [hsocket] at hopen
  | claimed _ _ hsocket => rwa [hsocket] at hopen
  | retired _ _ _ hsocket => rwa [hsocket] at hopen
  | departed howner _ _ _ hsocket =>
    -- a socket that is being retired is archived
    obtain ⟨info, hinfo, hlive⟩ := hlive
    rw [World.info, hsocket] at hinfo
    have hd := (hI.shape ws info hinfo).departed.not.mp (by simp [hlive])
    rw [not_not.mp hd] at howner
    cases howner

/-! ## What admissions do -/

/-- An act admits the running handler, accepts the socket of an admitted one, or
does neither. -/
inductive Seats (P : Platform) (κ : Trigger Event Point → World → Prop) (w w' : World) : Prop
  | neither (hcount : w'.count = w.count) (hentering : w'.past.entering = w.past.entering)
      (hpings : w'.past.pings = w.past.pings)
      (hstorage : w'.past.wiped = true ∨ w'.storage.attempts = w.storage.attempts ∧
        (w'.storage.roomMeta = none → w.storage.roomMeta = none))
  | admitted {r : Request} {room : Room} {w₀ : World} (hr : Requests P w r room)
      (hκ : κ (.resume (.issued (.admission room))) w₀) (hlater : w₀.Later w)
      (hattempts : w.storage.attempts.getD 0 < 20) (hlive : w.liveCount < 4)
      (hcount : w'.count = w.count)
      (hentering : w'.past.entering = w.past.current :: w.past.entering)
      (hattempts' : w'.storage.attempts = some (w.storage.attempts.getD 0 + 1))
      (hmeta : w'.storage.roomMeta.isSome = true)
      (hpings : (w.storage.roomMeta = none ∧ w'.past.pings = w.past.pings ++ [room.ping]) ∨
        (∃ m, w.storage.roomMeta = some m ∧ m.ping = room.ping) ∧ w'.past.pings = w.past.pings)
  | accepted (hadmitted : w.past.current ∈ w.past.entering) (hcount : w'.count = w.count + 1)
      (hentering : w'.past.entering = w.past.entering.erase w.past.current)
      (hpings : w'.past.pings = w.past.pings) (hattempts : w'.storage.attempts = w.storage.attempts)
      (hmeta : w'.storage.roomMeta = w.storage.roomMeta)
      (hopener : (w'.socket w.count).opener = w.past.current)

theorem Act.seats (h : Act P κ w w') : Seats P κ w w' := by
  cases h with
  | @admitUpgrade r room created w₀ hr hattempts hlive hmeta hκ hlater =>
    rcases hmeta with ⟨hnone, hcreated⟩ | ⟨hsome, rfl⟩
    · obtain ⟨t, rfl⟩ := Option.isSome_iff_exists.mp hcreated
      exact .admitted hr hκ hlater hattempts hlive (by simp) (by simp) (by simp) (by simp)
        (.inl ⟨hnone, by simp⟩)
    · have hm := hsome
      obtain ⟨m, hm, -⟩ := hm
      exact .admitted hr hκ hlater hattempts hlive (by simp) (by simp) (by simp) (by simp [hm])
        (.inr ⟨hsome, by simp⟩)
  | accept hr hentering =>
    exact .accepted hentering (by simp) (by simp) (by simp) (by simp) (by simp) (by simp)
  | touch h => cases h <;> exact .neither (by simp) (by simp) (by simp) (.inr (by simp))
  | depart h => cases h <;> exact .neither (by simp) (by simp) (by simp) (.inr (by simp))
  | wipe => exact .neither (by simp) (by simp) (by simp) (.inl (by simp))
  | _ => exact .neither (by simp) (by simp) (by simp) (.inr (by simp))

/-- The ping interval that a request asks for. -/
def requestedPing (number : Text → Option ℕ) (request : Request) : Option ℕ :=
  match request.ping with
  | some text => number text
  | none => some 15

theorem relayRoom_ping {number : Text → Option ℕ} {request : Request} {now : ℕ} {history : Bool}
    {room : Room} (h : relayRoom number request now history = some room) :
    requestedPing number request = some room.ping := by
  unfold relayRoom at h
  unfold requestedPing
  cases hping : request.ping with
  | none =>
    simp only [hping] at h ⊢
    split_ifs at h <;> rw [← Option.some.inj h]
  | some text =>
    cases hnumber : number text with
    | none => simp [hping, hnumber] at h
    | some ping =>
      simp only [hping, hnumber] at h ⊢
      split_ifs at h <;> rw [← Option.some.inj h]

/-- An expired room is refused. -/
theorem relayRoom_expired {number : Text → Option ℕ} {request : Request} {now : ℕ} {token : Text}
    (hroom : request.room = some token) (hexpired : tokenExpires token ≤ now) :
    relayRoom number request now false = none := by
  by_contra hne
  obtain ⟨room, h⟩ := Option.ne_none_iff_exists'.mp hne
  obtain ⟨htoken, hexpires, -, hlt⟩ := relayRoom_eq_some h
  rw [htoken, hroom, Option.getD_some] at hexpires
  rw [hexpires] at hlt
  simp only [Bool.false_eq_true, if_false] at hlt
  omega

/-! ## The bounds -/

/-- The handler was started by a request for one of the ping intervals that `meta`
was created with. -/
def World.Opens (P : Platform) (w : World) (h : ℕ) : Prop :=
  ∃ r, w.past.arrivals[h]? = some (.fetch r) ∧
    ∃ ping ∈ w.past.pings, requestedPing P.number r = some ping

/-- Nobody is admitted to a room whose storage was deleted, or while the sockets of
those admitted before would leave no slot. -/
def slotsLeft : Trigger Event Point → World → Prop
  | .resume (.issued (.admission _)), w => w.past.wiped = false ∧
      (w.liveCount < 4 → w.liveCount + w.past.entering.length < 4)
  | _, _ => True

instance (t : RoomTrigger) (w : World) : Decidable (slotsLeft t w) := by
  unfold slotsLeft
  split <;> infer_instance

/-- The bounds on a room, counting those who were admitted and have no socket yet. -/
structure Bounded (P : Platform) (w : World) : Prop where
  lifetime : w.count + w.past.entering.length ≤ 20
  attempts : w.past.wiped = false →
    w.storage.attempts.getD 0 = w.count + w.past.entering.length
  live : w.slotCount + w.past.entering.length ≤ 4
  pings : w.past.pings.length ≤ 1
  unset : w.past.wiped = false → w.storage.roomMeta = none → w.past.pings = []
  opened : ∀ ws < w.count, w.Opens P (w.socket ws).opener
  entered : ∀ h ∈ w.past.entering, w.Opens P h

theorem World.Opens.extends (hext : w.Extends w') {h : ℕ} (ho : w.Opens P h) : w'.Opens P h := by
  obtain ⟨r, hr, ping, hping, hrequested⟩ := ho
  exact ⟨r, hext.event hr, ping, hext.pings.subset hping, hrequested⟩

theorem slotCount_le (hI : Inv P w) (hI' : Inv P w') (ha : Act P κ w w')
    (hcount : w'.count = w.count) :
    w'.slotCount ≤ w.slotCount := by
  rw [World.slotCount, World.slotCount, hcount]
  apply List.countP_mono_left
  intro ws hws
  rw [List.mem_range] at hws
  exact (ha.alters ws).holdsSlot hI hI' hws (hcount ▸ hws)

theorem slotCount_succ_le (hI : Inv P w) (hI' : Inv P w') (ha : Act P κ w w')
    (hcount : w'.count = w.count + 1) : w'.slotCount ≤ w.slotCount + 1 := by
  rw [World.slotCount, World.slotCount, hcount, List.range_succ, List.countP_append]
  apply Nat.add_le_add
  · apply List.countP_mono_left
    intro ws hws
    rw [List.mem_range] at hws
    exact (ha.alters ws).holdsSlot hI hI' hws (hcount ▸ hws.trans (Nat.lt_succ_self _))
  · exact List.countP_le_length

/-- What is deleted stays deleted. -/
theorem Act.present (ha : Act P κ w w') (h : w'.past.wiped = false) : w.past.wiped = false := by
  by_contra hwiped
  simp [ha.wiped_mono (by simpa using hwiped)] at h

/-- The openers of known sockets are requests still. -/
theorem Bounded.opens (hb : Bounded P w) (hext : w.Extends w') {ws : SocketId}
    (hws : ws < w.count) :
    w'.Opens P (w'.socket ws).opener := by
  rw [(hext.socket ws hws).opener]
  exact (hb.opened ws hws).extends hext

/-- Nobody takes a seat. -/
theorem Bounded.neither (hI : Inv P w) (hb : Bounded P w) (ha : Act P κ w w')
    (hcount : w'.count = w.count) (hentering : w'.past.entering = w.past.entering)
    (hpings : w'.past.pings = w.past.pings)
    (hstorage : w'.past.wiped = true ∨ w'.storage.attempts = w.storage.attempts ∧
      (w'.storage.roomMeta = none → w.storage.roomMeta = none)) : Bounded P w' where
  lifetime := by
    rw [hcount, hentering]
    exact hb.lifetime
  attempts hw := by
    rcases hstorage with hw' | ⟨hattempts, -⟩
    · simp [hw] at hw'
    · rw [hattempts, hcount, hentering]
      exact hb.attempts (ha.present hw)
  live := by
    have hslots := slotCount_le hI (hI.act ha) ha hcount
    have hlive := hb.live
    rw [hentering]
    omega
  pings := by
    rw [hpings]
    exact hb.pings
  unset hw hnone := by
    rcases hstorage with hw' | ⟨-, hmeta⟩
    · simp [hw] at hw'
    · rw [hpings]
      exact hb.unset (ha.present hw) (hmeta hnone)
  opened ws hws := hb.opens (ha.extends hI) (hcount ▸ hws)
  entered h hh := (hb.entered h (hentering ▸ hh)).extends (ha.extends hI)

/-- A request is admitted; there is a seat for it. -/
theorem Bounded.admitted (hI : Inv P w) (hb : Bounded P w) (ha : Act P κ w w') {r : Request}
    {room : Room} (hr : Requests P w r room) (hw : w.past.wiped = false)
    (hseat : w.liveCount + w.past.entering.length < 4)
    (hattempts : w.storage.attempts.getD 0 < 20) (hcount : w'.count = w.count)
    (hentering : w'.past.entering = w.past.current :: w.past.entering)
    (hattempts' : w'.storage.attempts = some (w.storage.attempts.getD 0 + 1))
    (hmeta : w'.storage.roomMeta.isSome = true)
    (hpings : (w.storage.roomMeta = none ∧ w'.past.pings = w.past.pings ++ [room.ping]) ∨
      (∃ m, w.storage.roomMeta = some m ∧ m.ping = room.ping) ∧ w'.past.pings = w.past.pings) :
    Bounded P w' := by
  have hext := ha.extends hI
  have hspent := hb.attempts hw
  have hlength : w'.past.entering.length = w.past.entering.length + 1 := by
    rw [hentering, List.length_cons]
  have hping : room.ping ∈ w'.past.pings := by
    rcases hpings with ⟨-, hpings⟩ | ⟨⟨m, hm, hping⟩, hpings⟩
    · simp [hpings]
    · rw [hpings, ← hping]
      exact (hI.roomMeta m hm).2
  constructor
  · omega
  · intro _
    rw [hattempts', Option.getD_some]
    omega
  · have hle := slotCount_le hI (hI.act ha) ha hcount
    have hle' := slotCount_le_liveCount hI
    omega
  · rcases hpings with ⟨hnone, hpings⟩ | ⟨-, hpings⟩
    · rw [hpings, hb.unset hw hnone]
      rfl
    · rw [hpings]
      exact hb.pings
  · intro _ hnone
    rw [hnone] at hmeta
    cases hmeta
  · exact fun ws hws => hb.opens hext (hcount ▸ hws)
  · intro h hh
    rw [hentering] at hh
    rcases List.mem_cons.mp hh with rfl | hh
    · obtain ⟨t, -, hgranted⟩ := hr.granted
      exact ⟨r, hext.event hr.event, room.ping, hping, relayRoom_ping hgranted⟩
    · exact (hb.entered h hh).extends hext

/-- A request that was admitted takes its seat. -/
theorem Bounded.accepted (hI : Inv P w) (hb : Bounded P w) (ha : Act P κ w w')
    (hadmitted : w.past.current ∈ w.past.entering) (hcount : w'.count = w.count + 1)
    (hentering : w'.past.entering = w.past.entering.erase w.past.current)
    (hpings : w'.past.pings = w.past.pings) (hattempts : w'.storage.attempts = w.storage.attempts)
    (hmeta : w'.storage.roomMeta = w.storage.roomMeta)
    (hopener : (w'.socket w.count).opener = w.past.current) : Bounded P w' := by
  have hext := ha.extends hI
  have hlength := List.length_erase_of_mem hadmitted
  have hpos := List.length_pos_of_mem hadmitted
  rw [← hentering] at hlength
  constructor
  · have hlifetime := hb.lifetime
    omega
  · intro hw
    rw [hattempts, hb.attempts (ha.present hw)]
    omega
  · have hle := slotCount_succ_le hI (hI.act ha) ha hcount
    have hlive := hb.live
    omega
  · rw [hpings]
    exact hb.pings
  · rw [hpings, hmeta]
    exact fun hw => hb.unset (ha.present hw)
  · intro ws hws
    rcases Nat.lt_succ_iff_lt_or_eq.mp (hcount ▸ hws) with hws | rfl
    · exact hb.opens hext hws
    · rw [hopener]
      exact (hb.entered _ hadmitted).extends hext
  · rw [hentering]
    exact fun h hh => (hb.entered h (List.mem_of_mem_erase hh)).extends hext

/-- The bounds are kept by every act. -/
theorem Bounded.act (hκ : ∀ t w, κ t w → slotsLeft t w) (hI : Inv P w) (hb : Bounded P w)
    (ha : Act P κ w w') : Bounded P w' := by
  cases ha.seats with
  | neither hcount hentering hpings hstorage =>
      exact hb.neither hI ha hcount hentering hpings hstorage
  | @admitted r room w₀ hr hκ₀ hlater hattempts hlive hcount hentering hattempts' hmeta hpings =>
    -- the seats were counted when the handler was resumed, and nothing has happened since
    obtain ⟨hw, hslots⟩ := hκ _ _ hκ₀
    rw [← hlater.past] at hw
    have hlive₀ : w₀.liveCount = w.liveCount := by
      simp only [World.liveCount, World.info, hlater.socket, hlater.listing]
    rw [hlive₀, ← hlater.past] at hslots
    exact hb.admitted hI ha hr hw (hslots hlive) hattempts hcount hentering hattempts' hmeta hpings
  | accepted hadmitted hcount hentering hpings hattempts hmeta hopener =>
    exact hb.accepted hI ha hadmitted hcount hentering hpings hattempts hmeta hopener

theorem Bounded.rests (hb : Bounded P w) (hrest : Rests P w w') : Bounded P w' := by
  have hext := hrest.extends_
  have hslots : w'.slotCount ≤ w.slotCount := by
    rw [World.slotCount, World.slotCount, hrest.count]
    apply List.countP_mono_left
    intro ws _ hslot
    simp only [World.holdsSlot, Bool.and_eq_true, decide_eq_true_eq, hrest.info_eq] at hslot ⊢
    exact ⟨hslot.1, hrest.reopens ws hslot.2⟩
  have hlive := hb.live
  constructor
  · rw [hrest.count, hrest.entering_eq]
    exact hb.lifetime
  · rw [hrest.count, hrest.entering_eq, hrest.wiped_eq, hrest.attempts]
    exact hb.attempts
  · rw [hrest.entering_eq]
    omega
  · rw [hrest.pings_eq]
    exact hb.pings
  · rw [hrest.wiped_eq, hrest.roomMeta, hrest.pings_eq]
    exact hb.unset
  · intro ws hws
    rw [hrest.count] at hws
    rw [(hext.socket ws hws).opener]
    exact (hb.opened ws hws).extends hext
  · rw [hrest.entering_eq]
    exact fun h hh => (hb.entered h hh).extends hext

/-- A request that arrives when the room has expired is refused at once. -/
theorem fetch_expired {r : Request} (hstats : r.stats = false)
    (hexpired : tokenExpires P.token ≤ P.clock c.state.reads)
    (hstep : c.step (room P) (.start (.fetch r)) = some c') :
    c'.result c.started = some (.ok (some (.refused 410))) ∧ c'.pool c.started = none ∧
      c'.state.count = c.state.count := by
  simp only [Config.step, room] at hstep
  split at hstep
  · rename_i w hw
    obtain rfl := Option.some.inj hstep
    split_ifs at hw with hd
    obtain rfl := Option.some.inj hw
    have hroom : r.room = some P.token := of_decide_eq_true hd.2
    have hnone : relayRoom P.number r (P.clock c.state.reads) r.stats = none := by
      rw [hstats]
      exact relayRoom_expired hroom hexpired
    have hrun : handler P (.fetch r) (c.state.begin c.started (.fetch r)) =
        .done (some (.refused 410)) (c.state.begin c.started (.fetch r)).tick := by
      simp [handler, fetch, dateNow, World.begin, hnone]
    rw [hrun]
    refine ⟨Function.update_self .., Function.update_self .., rfl⟩
  · cases hstep

/-- As long as a slot is left for everybody who is admitted: at most 20 sockets are
accepted, at most 4 are live, all were opened with one ping interval, and a request
that arrives when the room has expired is refused. -/
theorem admission_bounds (hr : Runs (room P) slotsLeft freshRoom ls c) :
    c.state.count ≤ 20 ∧ c.state.slotCount ≤ 4 ∧
      (∃ ping, ∀ ws < c.state.count, ∃ r, requestedPing P.number r = some ping ∧
        c.state.past.arrivals[(c.state.socket ws).opener]? = some (.fetch r)) ∧
      ∀ r c', r.stats = false → tokenExpires P.token ≤ P.clock c.state.reads →
        c.step (room P) (.start (.fetch r)) = some c' →
        c'.result c.started = some (.ok (some (.refused 410))) ∧ c'.pool c.started = none ∧
          c'.state.count = c.state.count := by
  have hb : Bounded P c.state := by
    refine room_keeps (J := Bounded P) (runsFrom_fresh hr) ?_ ?_ ?_
    · constructor <;> simp [freshRoom, Config.initial, World.initial, World.slotCount]
    · exact fun _ _ _ hJ hrest => hJ.rests hrest
    · exact fun _ _ hI hJ ha => hJ.act (fun _ _ hκ => hκ.1) hI ha
  have hlifetime := hb.lifetime
  have hlive := hb.live
  refine ⟨by omega, by omega, ?_, fun r c' hstats hexpired hstep =>
    fetch_expired hstats hexpired hstep⟩
  refine ⟨c.state.past.pings.headD 0, fun ws hws => ?_⟩
  obtain ⟨r, hr, ping, hping, hrequested⟩ := hb.opened ws hws
  refine ⟨r, ?_, hr⟩
  -- there is at most one interval
  have hpings := hb.pings
  cases hlist : c.state.past.pings with
  | nil => simp [hlist] at hping
  | cons only rest =>
    obtain rfl : rest = [] := by
      rw [hlist, List.length_cons] at hpings
      exact List.length_eq_zero_iff.mp (by omega)
    rw [hlist, List.mem_singleton] at hping
    rw [hrequested, hping]
    rfl

/-- Four upgrades, one after the other. -/
theorem admission_bounds_four : ∃ c : RoomConfig, c.state.slotCount = 4 ∧ c.state.count = 4 ∧
    ∃ ping, ∀ ws < c.state.count, ∃ r, requestedPing calmPlatform.number r = some ping ∧
      c.state.past.arrivals[(c.state.socket ws).opener]? = some (.fetch r) := by
  have hrun : (freshRoom.replay (room calmPlatform) slotsLeft
      (threeUpgrades ++ handled 3 8 (.fetch upgradeRequest))).any (fun c =>
      decide (c.state.slotCount = 4 ∧ c.state.count = 4)) = true := by
    decide +kernel
  obtain ⟨c, hc, hrun⟩ := Option.any_eq_true .. |>.mp hrun
  obtain ⟨hslots, hcount⟩ := of_decide_eq_true hrun
  exact ⟨c, hslots, hcount, (admission_bounds (runs_of_replay hc)).2.2.1⟩

/-- Five requests are admitted before any of their sockets is accepted. -/
def crowdSchedule : List (Label Event Effect) :=
  (List.range 5).flatMap (fun h => handled h 1 (.fetch upgradeRequest)) ++
    (List.range 5).flatMap fun h => List.replicate 7 (.resume h)

/-- Five sockets of a room can be live at once. -/
theorem admission_crowded : ¬ ∀ (ls : List (Label Event Effect)) (c : RoomConfig),
    Runs (room calmPlatform) anytime freshRoom ls c → c.state.count ≤ 20 ∧
      c.state.slotCount ≤ 4 := by
  intro h
  have hrun : (freshRoom.replay (room calmPlatform) anytime crowdSchedule).any (fun c =>
      decide (c.state.slotCount = 5)) = true := by
    decide +kernel
  obtain ⟨c, hc, hrun⟩ := Option.any_eq_true .. |>.mp hrun
  have hslots := of_decide_eq_true hrun
  have hlive := (h _ c (runs_of_replay hc)).2
  omega

end IrohExperiment.Relay
