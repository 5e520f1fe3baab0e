/-
# Conservation of the counters (`worker/src/iroh-relay.js`)

A socket's counters live in its attachment until the socket is retired, and are then
added to those of the closed ones, once.  So the counters of a snapshot are all the
increments that were ever made, the closed connections are the archived sockets, and
every datagram of a live socket was forwarded or dropped.

The main result is `counters_conserved`, for every quiet state that has not been deleted;
the books are the record of all increments that `World.amend` makes (`Balanced`).
-/
import IrohExperiment.Relay.Admission

namespace IrohExperiment.Relay

open Coop

variable {P : Platform} {κ : Trigger Event Point → World → Prop} {ls : List (Label Event Effect)}
  {c c₀ : RoomConfig} {w w' : World}

/-! ## The books -/

/-- The closed counters include those of the socket. -/
def Departure.isFolded : Departure → Bool
  | .live => false
  | .retired _ _ => false
  | _ => true

/-- The counters of a socket that are not among the closed ones. -/
def Socket.outstanding (s : Socket) : Counters :=
  if s.departure.isFolded then 0 else (s.attachment.map (·.counts)).getD 0

/-- What the storage holds about closed sockets. -/
def World.closedBooks (w : World) : Closed := w.storage.closed.getD Closed.none

/-- The counters of the closed sockets and of the others are all increments that were
made, and every closed socket is counted once. -/
structure Balanced (w : World) : Prop where
  counts : w.closedBooks.counts + ∑ ws ∈ Finset.range w.count, (w.socket ws).outstanding =
    w.past.made
  connections : w.closedBooks.connections =
    ∑ ws ∈ Finset.range w.count, (w.socket ws).departure.isFolded.toNat

/-- A sum in which one term is replaced. -/
theorem sum_replace {M : Type} [AddCommMonoid M] {n ws : ℕ} {f g : ℕ → M} (hws : ws < n)
    (hne : ∀ T, T ≠ ws → g T = f T) :
    ∑ T ∈ Finset.range n, g T + f ws = ∑ T ∈ Finset.range n, f T + g ws := by
  have hmem : ws ∈ Finset.range n := Finset.mem_range.mpr hws
  have hrest : ∑ T ∈ (Finset.range n).erase ws, g T = ∑ T ∈ (Finset.range n).erase ws, f T := by
    apply Finset.sum_congr rfl
    intro T hT
    exact hne T (Finset.ne_of_mem_erase hT)
  rw [← Finset.add_sum_erase _ f hmem, ← Finset.add_sum_erase _ g hmem, hrest]
  abel

/-- Nothing happened to the books. -/
theorem Balanced.same (hb : Balanced w) (hcount : w'.count = w.count)
    (hclosed : w'.storage.closed = w.storage.closed) (hmade : w'.past.made = w.past.made)
    (hsocket : ∀ ws, (w'.socket ws).outstanding = (w.socket ws).outstanding ∧
      (w'.socket ws).departure.isFolded = (w.socket ws).departure.isFolded) : Balanced w' := by
  constructor
  · rw [World.closedBooks, hclosed, hcount, hmade, ← hb.counts]
    simp only [hsocket]
    rfl
  · rw [World.closedBooks, hclosed, hcount]
    simp only [hsocket]
    exact hb.connections

/-- One entry of the books changes. -/
theorem Balanced.replace (hb : Balanced w) {ws : SocketId} (hws : ws < w.count)
    (hcount : w'.count = w.count) (hne : ∀ T, T ≠ ws → w'.socket T = w.socket T) (made : Counters)
    (hmade : w'.past.made = w.past.made + made)
    (hcounts : w'.closedBooks.counts + (w'.socket ws).outstanding =
      w.closedBooks.counts + (w.socket ws).outstanding + made)
    (hconnections : w'.closedBooks.connections + (w.socket ws).departure.isFolded.toNat =
      w.closedBooks.connections + (w'.socket ws).departure.isFolded.toNat) : Balanced w' := by
  have hsum : ∑ T ∈ Finset.range w.count, (w'.socket T).outstanding + (w.socket ws).outstanding =
      ∑ T ∈ Finset.range w.count, (w.socket T).outstanding + (w'.socket ws).outstanding :=
    sum_replace (f := fun T => (w.socket T).outstanding)
      (g := fun T => (w'.socket T).outstanding) hws
      fun T hT => by rw [hne T hT]
  have hsum' : ∑ T ∈ Finset.range w.count, (w'.socket T).departure.isFolded.toNat +
        (w.socket ws).departure.isFolded.toNat =
      ∑ T ∈ Finset.range w.count, (w.socket T).departure.isFolded.toNat +
        (w'.socket ws).departure.isFolded.toNat :=
    sum_replace (f := fun T => (w.socket T).departure.isFolded.toNat)
      (g := fun T => (w'.socket T).departure.isFolded.toNat) hws fun T hT => by rw [hne T hT]
  constructor
  · rw [hcount, hmade, ← hb.counts]
    funext key
    have h1 := congrFun hcounts key
    have h2 := congrFun hsum key
    simp only [Pi.add_apply] at h1 h2 ⊢
    omega
  · have h := hb.connections
    rw [hcount]
    omega

/-! ## Entries -/

/-- The counters of a socket that is not folded are incremented. -/
theorem Balanced.amend (hb : Balanced w) {ws : SocketId} {info info' : Attachment} {made : Counters}
    (hws : ws < w.count) (hinfo : w.info ws = some info)
    (hfolded : (w.socket ws).departure.isFolded = false) (hcounts : info'.counts = info.counts) :
    Balanced (w.amend ws info' made) := by
  have hinfo' : (w.socket ws).attachment = some info := hinfo
  refine hb.replace hws rfl (fun T hT => by simp [hT]) made rfl ?_ (by simp [World.closedBooks])
  simp [World.closedBooks, Socket.outstanding, hfolded, hinfo', hcounts, Attachment.plus, add_assoc]

/-- An attachment with the same counters is stored. -/
theorem Balanced.setInfo (hb : Balanced w) {ws : SocketId} {info info' : Attachment}
    (hinfo : w.info ws = some info) (hcounts : info'.counts = info.counts) :
    Balanced (w.setInfo ws info') := by
  have hinfo' : (w.socket ws).attachment = some info := hinfo
  refine hb.same rfl rfl rfl fun T => ?_
  by_cases hT : T = ws
  · subst hT
    simp [Socket.outstanding, hinfo', hcounts]
  · simp [hT]

/-- A change of a socket that leaves its attachment and its departure as they are. -/
theorem Balanced.setSocket (hb : Balanced w) (ws : SocketId) {f : Socket → Socket}
    (hattachment : (f (w.socket ws)).attachment = (w.socket ws).attachment)
    (hdeparture : (f (w.socket ws)).departure.isFolded = (w.socket ws).departure.isFolded) :
    Balanced (w.setSocket ws f) := by
  refine hb.same rfl rfl rfl fun T => ?_
  by_cases hT : T = ws
  · subst hT
    simp [Socket.outstanding, hattachment, hdeparture]
  · simp [hT]

/-- Frames on the wire are not in the books. -/
theorem Balanced.transmit (hb : Balanced w) (ws : SocketId) (bytes : Bytes)
    (about : Option SocketId) :
    Balanced (w.transmit ws bytes about) :=
  hb.same rfl rfl rfl fun _ => ⟨rfl, rfl⟩

theorem Balanced.sent (hb : Balanced w) {ws : SocketId} {info : Attachment} {bytes : Bytes}
    {category : Option Counter} {about : Option SocketId} (hws : ws < w.count)
    (hinfo : w.info ws = some info) (hfolded : (w.socket ws).departure.isFolded = false) :
    Balanced (w.sent ws info bytes category about) :=
  (hb.transmit ws bytes about).amend hws hinfo hfolded rfl

/-- A socket that is live or retired is archived. -/
theorem Balanced.retired (hb : Balanced w) {ws : SocketId} {info : Attachment}
    (hinfo : w.info ws = some info) (hfolded : (w.socket ws).departure.isFolded = false) :
    Balanced (w.retired ws info) := by
  have hb' : Balanced (w.setInfo ws { info with archived := true }) := hb.setInfo hinfo rfl
  unfold World.retired
  refine hb'.setSocket ws rfl ?_
  simpa [Departure.isFolded] using hfolded.symm

/-- The counters of a retired socket are added to the closed ones. -/
theorem Balanced.folded (hb : Balanced w) {ws : SocketId} {info : Attachment} {entry : RecentClose}
    {h : ℕ} {seen : View} (hws : ws < w.count) (hinfo : w.info ws = some info)
    (hdeparture : (w.socket ws).departure = .retired h seen) :
    Balanced (w.folded ws info entry) := by
  have hinfo' : (w.socket ws).attachment = some info := hinfo
  refine hb.replace hws rfl (fun T hT => by simp [hT]) 0 rfl ?_ ?_
  · funext key
    simp [World.closedBooks, Socket.outstanding, hdeparture, hinfo', Departure.fold,
      Departure.isFolded, foldClosed, addCounters]
  · simp [World.closedBooks, hdeparture, Departure.fold, Departure.isFolded, foldClosed]

/-- A new socket has counted nothing. -/
theorem Balanced.accepted (hb : Balanced w) (challenge : Bytes) (due expires bucket : ℕ) :
    Balanced (w.accepted (.opening challenge due expires bucket) challenge due) := by
  have hold : ∀ ws ∈ Finset.range w.count,
      ((w.accepted (.opening challenge due expires bucket) challenge due).socket ws) =
        w.socket ws := by
    intro ws hws
    have hne : ws ≠ w.count := (Finset.mem_range.mp hws).ne
    simp [hne]
  have hnew : ((w.accepted (.opening challenge due expires bucket) challenge due).socket
      w.count).outstanding = 0 := by
    simp [Socket.outstanding, Socket.none, Departure.isFolded, Attachment.opening]
    rfl
  have hlive : ((w.accepted (.opening challenge due expires bucket) challenge due).socket
      w.count).departure.isFolded = false := by
    simp [Socket.none, Departure.isFolded]
  constructor
  · rw [World.accepted_count, Finset.sum_range_succ, hnew, add_zero,
      Finset.sum_congr rfl fun ws hws => congrArg Socket.outstanding (hold ws hws)]
    exact hb.counts
  · rw [World.accepted_count, Finset.sum_range_succ, hlive, Finset.sum_congr rfl fun ws hws =>
        congrArg (fun s : Socket => s.departure.isFolded.toNat) (hold ws hws)]
    exact hb.connections

/-! ## Acts keep the books -/

theorem Shape.departure_live {ws : SocketId} {info : Attachment} (h : Shape P w ws info)
    (hlive : info.archived = false) : (w.socket ws).departure = .live :=
  not_not.mp (h.departed.not.mp (by simp [hlive]))

theorem Shape.not_folded {ws : SocketId} {info : Attachment} (h : Shape P w ws info)
    (hlive : info.archived = false) : (w.socket ws).departure.isFolded = false := by
  rw [h.departure_live hlive]
  rfl

theorem Touch.balanced (hI : Inv P w) (hb : Balanced w) (h : Touch P κ w w') : Balanced w' := by
  have hfolded : ∀ {ws info}, w.info ws = some info → info.archived = false →
      (w.socket ws).departure.isFolded = false := fun hinfo hlive =>
    (hI.shape _ _ hinfo).not_folded hlive
  have hreception : ∀ {ws bytes tested info info'}, Reception P w ws bytes tested info info' →
      ∀ made, Balanced (w.amend ws info' made) := by
    intro ws bytes tested info info' hr made
    refine hb.amend (hI.lt_count hr.stored) hr.stored (hfolded hr.stored hr.live) ?_
    rcases hr.bucket with ⟨-, rfl⟩ | ⟨-, now, -, -, rfl⟩ <;> rfl
  have hserves : ∀ {ws info data}, Serves w ws info data →
      ∀ made, Balanced (w.amend ws info made) :=
    fun hs made => hb.amend (hI.lt_count hs.stored) hs.stored (hfolded hs.stored hs.live) rfl
  cases h with
  | take hr => exact (hreception hr _).same rfl rfl rfl fun _ => ⟨rfl, rfl⟩
  | refuse hr => exact hreception hr _
  | send hs hinfo hlive => exact hb.sent (hI.lt_count hinfo) hinfo (hfolded hinfo hlive)
  | count hs => rcases hs with ⟨hs, -⟩ | ⟨hs, -⟩ <;> exact hserves hs _
  | datagram hs => exact (hserves hs _).setSocket _ rfl rfl
  | @forward ws info target other bytes hf =>
    obtain ⟨_, _, _, hs, -, hrouted, -⟩ := hf.datagram
    have hsent : Balanced (w.sent target other bytes none none) :=
      hb.sent (hI.lt_count hf.stored) hf.stored (hfolded hf.stored (hrouted.live_of_info hf.stored))
    have hsocket : (w.sent target other bytes none none).socket ws = w.socket ws := by
      simp [hf.ne.symm]
    have hstored : (w.sent target other bytes none none).info ws = some info := by
      rw [World.info, hsocket]
      exact hs.stored
    refine (hsent.amend (hI.lt_count hs.stored) hstored ?_ rfl).setSocket _ rfl rfl
    rw [hsocket]
    exact hfolded hs.stored hs.live
  | drop hs => exact (hserves hs _).setSocket _ rfl rfl
  | clear hs => exact hb.setInfo hs.stored rfl
  | arm _ hinfo => exact hb.setInfo hinfo rfl

theorem Depart.balanced (hI : Inv P w) (hb : Balanced w) (h : Depart P w w') : Balanced w' := by
  cases h with
  | close => exact hb.setSocket _ rfl rfl
  | fold hdeparture hinfo => exact hb.folded (hI.lt_count hinfo) hinfo hdeparture
  | announcing hdeparture =>
    exact hb.setSocket _ rfl (by simp [hdeparture, Departure.announce, Departure.isFolded])
  | missed hdeparture =>
    exact hb.setSocket _ rfl (by simp [hdeparture, Departure.miss, Departure.isFolded])
  | announced hdeparture =>
    exact hb.setSocket _ rfl (by simp [hdeparture, Departure.conclude, Departure.isFolded])

/-- A claim is counted on the socket that makes it. -/
theorem Balanced.claimed (hb : Balanced w) (hI : Inv P w) {ws : SocketId} {info : Attachment}
    {id : Text} (hc : Claims P κ w ws info id) : Balanced (w.claimed ws info id) := by
  have hfolded := (hI.shape _ _ hc.stored).not_folded hc.live
  have hamended : Balanced (w.amend ws { info with
      id := some id, phase := .authenticated, challenge := none, deadline := none }
      (Pi.single .auth 1)) := hb.amend (hI.lt_count hc.stored) hc.stored hfolded rfl
  exact hamended.same rfl rfl rfl fun _ => ⟨rfl, rfl⟩

theorem Act.balanced (hI : Inv P w) (hb : Balanced w) (h : Act P κ w w') :
    w'.past.wiped = true ∨ Balanced w' := by
  cases h with
  | accept hr hentering =>
    exact .inr (hb.accepted _ _ _ _)
  | touch h => exact .inr (h.balanced hI hb)
  | depart h => exact .inr (h.balanced hI hb)
  | connect => exact .inr (hb.setSocket _ rfl rfl)
  | @verify ws _ info _ _ _ hinfo =>
    have hb' : Balanced (w.setInfo ws { info with phase := .verifying }) := hb.setInfo hinfo rfl
    exact .inr (hb'.setSocket _ rfl rfl)
  | verified => exact .inr (hb.setSocket _ rfl rfl)
  | claim hc => exact .inr (hb.claimed hI hc)
  | @reclaim ws info id old other hc hne hother hrouted =>
    have hclaimed : Balanced (w.claimed ws info id) := hb.claimed hI hc
    have hsocket : (w.claimed ws info id).socket old = w.socket old := by simp [hne]
    have hstored : (w.claimed ws info id).info old = some other := by
      rw [World.info, hsocket]
      exact hother
    refine .inr (hclaimed.retired hstored ?_)
    rw [hsocket]
    exact (hI.shape _ _ hother).not_folded (hrouted.live_of_info hother)
  | retire hinfo hlive => exact .inr (hb.retired hinfo ((hI.shape _ _ hinfo).not_folded hlive))
  | wipe => exact .inl rfl
  | _ => exact .inr (hb.same rfl rfl rfl fun _ => ⟨rfl, rfl⟩)

/-! ## Datagrams -/

/-- While the socket is live, each of its datagrams was forwarded, was dropped or is
not settled yet. -/
def Socket.Fair (s : Socket) : Prop :=
  ∀ info, s.attachment = some info → info.archived = false →
    info.counts .datagram = info.counts .forwarded + info.counts .dropped + s.unsettled.length

/-- The counters of a live socket are incremented, and as many datagrams become
unsettled as are counted and neither forwarded nor dropped. -/
theorem Socket.Fair.add {s : Socket} (h : s.Fair) {info : Attachment}
    (hinfo : s.attachment = some info) (hlive : info.archived = false) (new : Attachment)
    (hcounts : new.counts = info.counts) (made : Counters) (unsettled : List ℕ)
    (hmade : made .datagram + s.unsettled.length =
      made .forwarded + made .dropped + unsettled.length) :
    Socket.Fair { s with attachment := some (new.plus made), unsettled := unsettled } := by
  intro info' hinfo' hlive'
  obtain rfl := Option.some.inj hinfo'
  have hfair := h info hinfo hlive
  simp only [Attachment.plus, Pi.add_apply, hcounts]
  omega

/-- One socket changes. -/
theorem fair_one (h : ∀ ws, (w.socket ws).Fair) {T : SocketId}
    (hne : ∀ ws, ws ≠ T → w'.socket ws = w.socket ws) (hself : (w'.socket T).Fair)
    (ws : SocketId) : (w'.socket ws).Fair := by
  by_cases hws : ws = T
  · exact hws ▸ hself
  · rw [hne ws hws]
    exact h ws

/-- The counters of one socket are incremented. -/
theorem fair_amend (h : ∀ ws, (w.socket ws).Fair) {T : SocketId} {info : Attachment}
    (hinfo : w.info T = some info) (hlive : info.archived = false) (new : Attachment)
    (hcounts : new.counts = info.counts) (made : Counters)
    (hmade : made .datagram = made .forwarded + made .dropped) (ws : SocketId) :
    ((w.amend T new made).socket ws).Fair := by
  refine fair_one h (T := T) (fun ws hws => by simp [hws]) ?_ ws
  have hself := (h T).add hinfo hlive new hcounts made (w.socket T).unsettled (by omega)
  simpa using hself

theorem Touch.fair (hf : ∀ ws, (w.socket ws).Fair) (h : Touch P κ w w')
    (ws : SocketId) : (w'.socket ws).Fair := by
  have hreception : ∀ {T bytes tested info info'}, Reception P w T bytes tested info info' →
      ((w.amend T info' (World.messageCounts bytes)).socket ws).Fair := by
    intro T bytes tested info info' hr
    refine fair_amend hf hr.stored hr.live info' ?_ _ (by simp [World.messageCounts]) ws
    rcases hr.bucket with ⟨-, rfl⟩ | ⟨-, now, -, -, rfl⟩ <;> rfl
  cases h with
  | take hr => exact hreception hr
  | refuse hr => exact hreception hr
  | @send T info bytes category about hs hinfo hlive =>
    refine fair_amend (w := w.transmit T bytes about) hf hinfo hlive info rfl _ ?_ ws
    cases hs <;> simp [World.sentCounts]
  | @count T info frame key hs =>
    rcases hs with ⟨hs, rfl⟩ | ⟨hs, rfl⟩ <;>
      exact fair_amend hf hs.stored hs.live info rfl _ (by simp) ws
  -- a datagram that is counted is unsettled from then on
  | @datagram T info destination frame hs hfresh =>
    refine fair_one hf (T := T) (fun ws hws => by simp [hws]) ?_ ws
    have hself := (hf T).add hs.stored hs.live info rfl (Pi.single .datagram 1)
      (w.past.current :: (w.socket T).unsettled) (by simp; omega)
    simpa using hself
  -- and settled when it is forwarded or dropped
  | @forward T info target other bytes hfwd =>
    obtain ⟨_, _, _, hs, -, hrouted, -⟩ := hfwd.datagram
    have hlength := List.length_erase_of_mem hfwd.unsettled
    have hpos := List.length_pos_of_mem hfwd.unsettled
    have hsent := fair_amend (w := w.transmit target bytes none) hf hfwd.stored
      (hrouted.live_of_info hfwd.stored) other rfl (World.sentCounts bytes none)
      (by simp [World.sentCounts])
    refine fair_one hsent (T := T) (fun ws hws => by simp [hws]) ?_ ws
    have hself := (hf T).add hs.stored hs.live info rfl (Pi.single .forwarded 1)
      ((w.socket T).unsettled.erase w.past.current) (by simp; omega)
    simpa [hfwd.ne.symm] using hself
  | @drop T info destination frame hs hunsettled =>
    have hlength := List.length_erase_of_mem hunsettled
    have hpos := List.length_pos_of_mem hunsettled
    refine fair_one hf (T := T) (fun ws hws => by simp [hws]) ?_ ws
    have hself := (hf T).add hs.stored hs.live info rfl (Pi.single .dropped 1)
      ((w.socket T).unsettled.erase w.past.current) (by simp; omega)
    simpa using hself
  | @clear T info frame hs =>
    refine fair_one hf (T := T) (fun ws hws => by simp [hws]) ?_ ws
    have hself := (hf T).add hs.stored hs.live { info with pendingPing := none, deadline := none }
      rfl 0 (w.socket T).unsettled (by simp)
    simpa [Attachment.plus] using hself
  | @arm T info ping deadline _ hinfo hlive =>
    refine fair_one hf (T := T) (fun ws hws => by simp [hws]) ?_ ws
    have hself := (hf T).add hinfo hlive
      { info with pendingPing := some ping, deadline := some deadline }
      rfl 0 (w.socket T).unsettled (by simp)
    simpa [Attachment.plus] using hself

theorem Depart.unsettled_eq (h : Depart P w w') (ws : SocketId) :
    (w'.socket ws).unsettled = (w.socket ws).unsettled := by
  cases h with
  | @close T
  | @fold T
  | @announcing T
  | @missed T
  | @announced T =>
    by_cases hws : ws = T
    · simp [hws]
    · simp [hws]

/-- A socket that is archived is fair. -/
theorem Socket.fair_archived {s : Socket}
    (h : ∀ info, s.attachment = some info → info.archived = true) :
    s.Fair := by
  intro info hinfo hlive
  simp [h info hinfo] at hlive

theorem fair_claimed (hf : ∀ ws, (w.socket ws).Fair) {T : SocketId} {info : Attachment} {id : Text}
    (hc : Claims P κ w T info id) (ws : SocketId) : ((w.claimed T info id).socket ws).Fair :=
  fair_amend hf hc.stored hc.live { info with
    id := some id, phase := .authenticated, challenge := none, deadline := none } rfl
    (Pi.single .auth 1) (by simp) ws

theorem Act.fair (hf : ∀ ws, (w.socket ws).Fair) (h : Act P κ w w')
    (ws : SocketId) : (w'.socket ws).Fair := by
  cases h with
  | touch h => exact h.fair hf ws
  | depart h =>
    have hsame := h.info_eq
    intro info hinfo hlive
    have hinfo' : (w.socket ws).attachment = some info := by
      have h1 : w'.info ws = some info := hinfo
      rwa [hsame] at h1
    rw [h.unsettled_eq]
    exact hf ws info hinfo' hlive
  | @accept r room challenge due bucket =>
    refine fair_one hf (T := w.count) (fun ws hws => by simp [hws]) ?_ ws
    intro info hinfo _
    simp only [World.accepted_socket, Function.update_self] at hinfo
    obtain rfl := Option.some.inj hinfo
    simp [Socket.none, Attachment.opening, counters]
  | @connect T =>
    exact fair_one hf (T := T) (fun ws hws => by simp [hws]) (by simpa [Socket.Fair] using hf T) ws
  | @verify T frame info t _ _ hinfo hlive =>
    refine fair_one hf (T := T) (fun ws hws => by simp [hws]) ?_ ws
    have hself := (hf T).add hinfo hlive { info with phase := .verifying } rfl 0
      (w.socket T).unsettled (by simp)
    simpa [Attachment.plus, Socket.Fair] using hself
  | @verified T =>
    refine fair_one hf (T := T) (fun ws hws => by simp [hws]) ?_ ws
    intro info hinfo hlive
    rw [World.verified_socket, Function.update_self] at hinfo ⊢
    exact hf T info hinfo hlive
  | @claim T info id hc => exact fair_claimed hf hc ws
  | @reclaim T info id old other hc =>
    have hclaimed := fair_claimed hf hc
    refine fair_one hclaimed (T := old) (fun ws hws => by simp [hws]) ?_ ws
    apply Socket.fair_archived
    simp
  | @retire T info =>
    refine fair_one hf (T := T) (fun ws hws => by simp [hws]) ?_ ws
    apply Socket.fair_archived
    simp
  | _ => exact hf ws

/-! ## The snapshot -/

/-- The counters that `snapshot` adds for a socket. -/
def World.liveCounts (w : World) (ws : SocketId) : Counters :=
  match w.info ws with
  | some info => if info.archived then 0 else info.counts
  | none => 0

theorem tallyLive_counts (w : World) (listing : List SocketId) (counts : Counters)
    (peers : List (Option Text × Phase)) :
    (tallyLive w listing counts peers).1 = counts + (listing.map w.liveCounts).sum := by
  induction listing generalizing counts peers with
  | nil => simp [tallyLive]
  | cons ws rest ih =>
    rw [List.map_cons, List.sum_cons, tallyLive, World.liveCounts]
    cases hinfo : w.info ws with
    | none => simp only [ih, zero_add]
    | some info =>
      cases harch : info.archived with
      | true => simp only [harch, if_true, ih, zero_add]
      | false =>
        simp only [harch, Bool.false_eq_true, if_false, ih]
        exact add_assoc counts info.counts _

/-- The sockets that are listed are all that count. -/
theorem sum_liveCounts (hI : Inv P w) :
    (w.listing.map w.liveCounts).sum = ∑ ws ∈ Finset.range w.count, w.liveCounts ws := by
  rw [← List.sum_toFinset _ hI.nodup]
  apply Finset.sum_subset
  · intro ws hws
    exact Finset.mem_range.mpr (hI.listed ws (List.mem_toFinset.mp hws))
  · intro ws _ hws
    have hnotlive : ¬ Live w.info ws := fun hlive => hws (List.mem_toFinset.mpr (hI.lists ws hlive))
    unfold World.liveCounts
    cases hinfo : w.info ws with
    | none => rfl
    | some info =>
      cases harch : info.archived with
      | true => simp [harch]
      | false => exact absurd ⟨info, hinfo, harch⟩ hnotlive

/-- Run by itself, `snapshot` reports the closed counters and those of the sockets
that are listed and live. -/
theorem snapshot_alone (w : World) : ∃ s, (snapshot P w).alone.1 = .ok s ∧
    s.counts = w.closedBooks.counts + (w.listing.map w.liveCounts).sum ∧
    s.closedConnections = w.closedBooks.connections := by
  refine ⟨_, rfl, ?_, rfl⟩
  exact tallyLive_counts w w.listing _ []

/-! ## Conservation -/

/-- When nothing is in flight, the retirement of every archived socket is over. -/
theorem RunsFrom.announced (hr : RunsFrom P κ freshRoom ls c) (hq : c.Quiet) {ws : SocketId}
    (harch : Archived c.state.info ws) :
    ∃ h seen told missed, (c.state.socket ws).departure = .announced h seen told missed := by
  obtain ⟨info, hinfo, harch⟩ := harch
  have hshape := hr.inv_end.shape ws info hinfo
  have hdeparted := hshape.departed.mp harch
  obtain ⟨h, howner⟩ := Option.ne_none_iff_exists'.mp (Departure.owner_live.not.mpr hdeparted)
  obtain ⟨e, he, -⟩ := hshape.owner h howner
  have hh : h < c.started := (hr.arrivals rfl).2 ▸ (List.getElem?_eq_some_iff.mp he).1
  -- the handler that retired it has ended, so it owes nothing
  obtain ⟨r, -, hleaves⟩ := hr.leaves (Nat.zero_le h) hh (hq h hh)
  have howes := hleaves.settled.owes ws
  unfold World.Owes at howes
  revert howner howes
  cases (c.state.socket ws).departure <;> simp [Departure.owner, Departure.debtor]

/-- When nothing is in flight, the archived sockets are those that were added to the
closed counters. -/
theorem RunsFrom.folded_iff (hr : RunsFrom P κ freshRoom ls c) (hq : c.Quiet) {ws : SocketId}
    {info : Attachment} (hinfo : c.state.info ws = some info) :
    (c.state.socket ws).departure.isFolded = info.archived := by
  cases harch : info.archived with
  | false => exact (hr.inv_end.shape ws info hinfo).not_folded harch
  | true =>
    obtain ⟨h, seen, told, missed, hd⟩ := hr.announced hq ⟨info, hinfo, harch⟩
    rw [hd]
    rfl

/-- In every state with nothing in flight, before the storage is deleted: a snapshot
reports all increments ever made, counts every archived socket once, and each
datagram of a live socket was either forwarded or dropped. -/
theorem counters_conserved (hr : Runs (room P) anytime freshRoom ls c) (hq : c.Quiet)
    (hpresent : c.state.past.wiped = false) :
    (∃ s, (snapshot P c.state).alone.1 = .ok s ∧ s.counts = c.state.past.made ∧
      s.closedConnections =
        ((Finset.range c.state.count).filter fun ws => Archived c.state.info ws).card) ∧
      ∀ ws info, c.state.info ws = some info → info.archived = false →
        info.counts .datagram = info.counts .forwarded + info.counts .dropped := by
  have hrun := runsFrom_fresh hr
  have hI := hrun.inv_end
  -- the books balance until the storage is wiped
  have hbooks : c.state.past.wiped = true ∨ Balanced c.state := by
    refine room_keeps (J := fun w => w.past.wiped = true ∨ Balanced w) hrun ?_ ?_ ?_
    · refine .inr ⟨?_, ?_⟩ <;> simp [freshRoom, Config.initial, World.initial, World.closedBooks,
        Closed.none]
    · intro w w' _ hJ hrest
      rw [hrest.wiped_eq]
      refine hJ.imp_right fun hb =>
        hb.same hrest.count hrest.closed (by rw [hrest.past]) fun ws => ?_
      obtain ⟨r, hsocket⟩ := hrest.socket ws
      rw [hsocket]
      exact ⟨rfl, rfl⟩
    · intro w w' hI hJ ha
      rcases hJ with hw | hb
      · exact .inl (ha.wiped_mono hw)
      · exact ha.balanced hI hb
  -- a datagram of a live socket is forwarded, dropped or unsettled
  have hfair : ∀ ws, (c.state.socket ws).Fair := by
    refine room_keeps (J := fun w => ∀ ws, (w.socket ws).Fair) hrun ?_ ?_ ?_
    · intro ws info hinfo
      cases hinfo
    · intro w w' _ hJ hrest ws
      obtain ⟨r, hsocket⟩ := hrest.socket ws
      rw [hsocket]
      exact hJ ws
    · exact fun w w' _ hJ ha ws => ha.fair hJ ws
  have hb := hbooks.resolve_left (by simp [hpresent])
  have hinfo : ∀ ws ∈ Finset.range c.state.count, ∃ info, c.state.info ws = some info := by
    intro ws hws
    exact Option.isSome_iff_exists.mp ((hI.known ws).mp (Finset.mem_range.mp hws))
  constructor
  -- a quiet room has folded in the counters of exactly its archived sockets
  · obtain ⟨s, hs, hcounts, hconnections⟩ := snapshot_alone (P := P) c.state
    refine ⟨s, hs, ?_, ?_⟩
    · rw [hcounts, sum_liveCounts hI, ← hb.counts]
      congr 1
      apply Finset.sum_congr rfl
      intro ws hws
      obtain ⟨info, hi⟩ := hinfo ws hws
      have hi' : (c.state.socket ws).attachment = some info := hi
      rw [World.liveCounts, hi, Socket.outstanding, hrun.folded_iff hq hi, hi']
      rfl
    · rw [hconnections, hb.connections, Finset.card_filter]
      apply Finset.sum_congr rfl
      intro ws hws
      obtain ⟨info, hi⟩ := hinfo ws hws
      rw [hrun.folded_iff hq hi]
      cases harch : info.archived <;> simp [Archived, hi, harch]
  · intro ws info hi hlive
    -- when every handler has finished nothing is unsettled
    have hnone : (c.state.socket ws).unsettled = [] := by
      rw [List.eq_nil_iff_forall_not_mem]
      intro h hh
      have hlt : h < c.started := (hrun.arrivals rfl).2 ▸ (hI.shape ws info hi).unsettled_lt h hh
      obtain ⟨r, -, hleaves⟩ := hrun.leaves (Nat.zero_le h) hlt (hq h hlt)
      exact Live.not_archived ⟨info, hi, hlive⟩ (hleaves.settled.unsettled ws hh)
    have h := hfair ws info hi hlive
    rw [hnone] at h
    exact h

/-- A datagram between two endpoints, one of which then leaves. -/
theorem counters_conserved_close : ∃ c : RoomConfig, c.state.past.made .datagram = 1 ∧
    ∃ s, (snapshot calmPlatform c.state).alone.1 = .ok s ∧ s.counts = c.state.past.made ∧
      s.closedConnections =
        ((Finset.range c.state.count).filter fun ws => Archived c.state.info ws).card := by
  have hrun : (freshRoom.replay (room calmPlatform) anytime
      (datagramSchedule ++ handled 5 8 (.close 0 1000 []))).any (fun c =>
      decide (c.Quiet ∧ c.state.past.wiped = false ∧ c.state.past.made .datagram = 1)) = true := by
    decide +kernel
  obtain ⟨c, hc, hrun⟩ := Option.any_eq_true .. |>.mp hrun
  obtain ⟨hq, hpresent, hmade⟩ := of_decide_eq_true hrun
  exact ⟨c, hmade, (counters_conserved (runs_of_replay hc) hq hpresent).1⟩

end IrohExperiment.Relay
