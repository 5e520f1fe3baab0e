/-
# What a signaling room can be made to do (`worker/src/signal-room.js`)

Over the whole life of a room and every interleaving of joins, messages, closes and the
alarm that wipes its storage: who is admitted, and what is forwarded.

`room_bounds` says that a room keeps its bounds in every run in which no transaction of a
join finds the storage wiped after somebody has been admitted, and no message is printed
longer than it has come.  `room_overrun` shows that each of the two is needed: a join that
passes its checks in time and has its transaction carried out after the alarm's deletion is
a third one, and the limit of 65536 bytes is on the texts that come in, not on the texts of
`JSON.stringify` that go out.

Neither condition is on anything but the event and the state before it.
-/
import IrohExperiment.Signal.Room

namespace IrohExperiment.Signal

/-! ## Accepted messages -/

/-- `data.type === name` -/
def Json.hasType (data : Json) (name : String) : Bool :=
  match data.access "type" with
  | .ok type => isString type (· = units name)
  | .error _ => false

/-- A candidate, whose text is not too long. -/
def Json.IsCandidate (data : Json) : Prop :=
  data.hasType "candidate" = true ∧ ∃ candidate text, data.access "candidate" = .ok candidate ∧
    accessOptional candidate "candidate" = .ok (some (.string text)) ∧ text.length ≤ 2048

/-- An offer or an answer. -/
def Json.isSdp (data : Json) : Bool := data.hasType "offer" || data.hasType "answer"

theorem isString_eq_true {value : Option Json} {p : List UInt16 → Bool} :
    isString value p = true ↔ ∃ text, value = some (.string text) ∧ p text = true := by
  unfold isString
  split
  · simp
  · rename_i h
    simp only [Bool.false_eq_true, false_iff, not_exists, not_and]
    rintro text rfl
    exact absurd rfl (h text)

/-- A value has one type. -/
theorem Json.hasType_unique {data : Json} {name name' : String} (h : data.hasType name = true)
    (h' : data.hasType name' = true) : units name = units name' := by
  unfold hasType at h h'
  cases htype : data.access "type" with
  | error r => simp [htype] at h
  | ok type =>
    rw [htype] at h h'
    obtain ⟨text, rfl, htext⟩ := isString_eq_true.mp h
    obtain ⟨text', hsame, htext'⟩ := isString_eq_true.mp h'
    obtain rfl : text = text' := by simpa using hsame
    rw [← of_decide_eq_true htext, ← of_decide_eq_true htext']

theorem bind_eq_ok {α β : Type} {x : Except Rejected α} {f : α → Except Rejected β} {b : β} :
    x >>= f = .ok b ↔ ∃ a, x = .ok a ∧ f a = .ok b := by
  cases x with
  | error r => simp [bind, Except.bind]
  | ok a => simp [bind, Except.bind]

/-- What passes is a candidate, or the one SDP of the role. -/
theorem validateSignal_ok {data : Json} {info info' : Info}
    (h : validateSignal data info = .ok info') :
    info' = info ∧ data.IsCandidate ∨
      info' = { info with sdpSent := true } ∧ info.sdpSent = false ∧
        data.hasType info.role.sdpType = true := by
  unfold validateSignal at h
  obtain ⟨type, htype, h⟩ := bind_eq_ok.mp h
  have hhas : ∀ name, data.hasType name = isString type (· = units name) := by
    intro name
    unfold Json.hasType
    rw [htype]
  split_ifs at h with hcandidate horder
  · obtain ⟨candidate, haccess, h⟩ := bind_eq_ok.mp h
    obtain ⟨value, hvalue, h⟩ := bind_eq_ok.mp h
    split_ifs at h with hlen
    obtain ⟨text, rfl, hle⟩ := isString_eq_true.mp hlen
    obtain rfl := Except.ok.inj h
    exact .inl ⟨rfl, (hhas _).trans hcandidate, candidate, text, haccess, hvalue,
      of_decide_eq_true hle⟩
  · obtain ⟨sdp, -, h⟩ := bind_eq_ok.mp h
    split_ifs at h with hsdp
    obtain rfl := Except.ok.inj h
    rw [Bool.or_eq_true, not_or, Bool.not_eq_true', Bool.not_eq_false] at horder
    exact .inr ⟨rfl, by simpa using horder.2, (hhas _).trans horder.1⟩

/-- What an accepted message has passed, and what it leaves in the attachment. -/
structure Accepted (info : Info) (message : Message) (now : ℕ) (text : Text) (data : Json)
    (info' : Info) : Prop where
  message : message = .text text
  unexpired : now < info.expires
  role : info'.role = info.role
  expires : info'.expires = info.expires
  messages : info'.messages = info.messages + 1 ∧ info'.messages ≤ 32
  bytes : info'.bytes = info.bytes + Rust.utf8Len text ∧ info'.bytes ≤ 65536
  kind : info'.sdpSent = info.sdpSent ∧ data.IsCandidate ∨
    info'.sdpSent = true ∧ info.sdpSent = false ∧ data.hasType info.role.sdpType = true

section

variable {parse : Text → Option Json} {stringify : Json → Text}

theorem checkMessage_ok {info info' : Info} {message : Message} {now : ℕ} {text : Text}
    {data : Json} (h : checkMessage parse info message now = .ok (text, data, info')) :
    Accepted info message now text data info' := by
  unfold checkMessage at h
  split_ifs at h with hexpired
  cases message with
  | binary bytes => cases h
  | text sent =>
    simp only at h
    split_ifs at h with hlarge hlimit
    rw [not_or, not_lt, not_lt] at hlimit
    cases hparse : parse sent with
    | none =>
      rw [hparse] at h
      cases h
    | some value =>
      rw [hparse] at h
      cases hvalid : validateSignal value
          { info with messages := info.messages + 1, bytes := info.bytes + Rust.utf8Len sent } with
      | error r =>
        simp only [hvalid] at h
        cases h
      | ok info₁ =>
        simp only [hvalid] at h
        obtain ⟨rfl, rfl, rfl⟩ : sent = text ∧ value = data ∧ info₁ = info' := by
          simpa [Except.map] using h
        rcases validateSignal_ok hvalid with ⟨rfl, hcandidate⟩ | ⟨rfl, hnone, hsdp⟩
        · exact ⟨rfl, not_le.mp hexpired, rfl, rfl, ⟨rfl, hlimit.1⟩, ⟨rfl, hlimit.2⟩,
            .inl ⟨rfl, hcandidate⟩⟩
        · exact ⟨rfl, not_le.mp hexpired, rfl, rfl, ⟨rfl, hlimit.1⟩, ⟨rfl, hlimit.2⟩,
            .inr ⟨rfl, hnone, hsdp⟩⟩

/-! ## The invariant -/

/-- The accepted messages of a socket. -/
def Room.sentBy (room : Room) (ws : ℕ) : List Forwarded := room.forwarded.filter fun entry =>
    entry.sender = ws

/-- How many bytes the messages have, as they have come. -/
def totalBytes (sent : List Forwarded) : ℕ := (sent.map fun entry => Rust.utf8Len entry.text).sum

/-- How many bytes the messages have, as they are forwarded. -/
def forwardedBytes (stringify : Json → Text) (sent : List Forwarded) : ℕ :=
  (sent.map fun entry => Rust.utf8Len (stringify entry.data)).sum

theorem forwardedBytes_singleton (entry : Forwarded) :
    forwardedBytes stringify [entry] = Rust.utf8Len (stringify entry.data) :=
  List.sum_singleton

/-- Messages that are not printed longer than they have come. -/
theorem forwardedBytes_le {sent : List Forwarded}
    (h : ∀ entry ∈ sent, Rust.utf8Len (stringify entry.data) ≤ Rust.utf8Len entry.text) :
    forwardedBytes stringify sent ≤ totalBytes sent :=
  List.sum_le_sum h

/-- The attachment of a socket keeps account of its accepted messages. -/
structure Accounts (token : Text) (info : Info) (sent : List Forwarded) : Prop where
  expires : info.expires = expiry token
  messages : info.messages = sent.length ∧ sent.length ≤ 32
  bytes : info.bytes = totalBytes sent ∧ totalBytes sent ≤ 65536
  kind : ∀ entry ∈ sent, entry.time < expiry token ∧
    (entry.data.hasType info.role.sdpType = true ∨ entry.data.IsCandidate)
  sdp : sent.countP (fun entry => entry.data.isSdp) ≤ if info.sdpSent then 1 else 0

/-- What holds between the events. -/
structure Inv (token : Text) (stringify : Json → Text) (room : Room) : Prop where
  alarm : ∀ due, room.alarm = some due → due = expiry token
  joined : room.joined = none ∨ room.joined = some room.admitted.length
  checked : ∀ expires, .checked expires ∈ room.pending → expires = expiry token
  admitted : room.admitted <+: [.offerer, .answerer]
  tickets : (room.sockets.map Info.role ++ room.pending.filterMap Join.role).Subperm room.admitted
  senders : ∀ entry ∈ room.forwarded, entry.sender < room.sockets.length
  accounts : ∀ ws info, room.sockets[ws]? = some info → Accounts token info (room.sentBy ws)
  printed : ∀ entry ∈ room.forwarded, Rust.utf8Len (stringify entry.data) ≤ Rust.utf8Len entry.text
  delivered : ∀ delivery ∈ room.wire, delivery.encoded = stringify delivery.data ∧
    ∀ ws, delivery.origin = some ws →
      delivery.receiver ≠ ws ∧ ∃ entry ∈ room.forwarded, entry.sender = ws ∧
        entry.data = delivery.data

theorem inv_start (token : Text) (now : ℕ) : Inv token stringify (.start now) where
  alarm := nofun
  joined := .inl rfl
  checked := nofun
  admitted := List.nil_prefix
  tickets := List.Subperm.refl _
  senders := nofun
  accounts := nofun
  printed := nofun
  delivered := nofun

theorem isSdp_of_hasType {data : Json} {role : Role} (h : data.hasType role.sdpType = true) :
    data.isSdp = true := by
  unfold Json.isSdp
  rw [Bool.or_eq_true]
  cases role with
  | offerer => exact .inl h
  | answerer => exact .inr h

theorem Json.IsCandidate.not_sdp {data : Json} (h : data.IsCandidate) : data.isSdp = false := by
  unfold Json.isSdp
  rw [Bool.or_eq_false_iff]
  constructor
  · by_contra hoffer
    rw [Bool.not_eq_false] at hoffer
    exact absurd (Json.hasType_unique h.1 hoffer) (by decide)
  · by_contra hanswer
    rw [Bool.not_eq_false] at hanswer
    exact absurd (Json.hasType_unique h.1 hanswer) (by decide)

/-- One more message is accounted for. -/
theorem Accounts.accept {token : Text} {info info' : Info} {sent : List Forwarded}
    {message : Message} {now : ℕ} {text : Text} {data : Json} (h : Accounts token info sent)
    (haccepted : Accepted info message now text data info') (ws : ℕ) :
    Accounts token info' (sent ++ [⟨ws, text, data, now⟩]) := by
  have hlen : (sent ++ [(⟨ws, text, data, now⟩ : Forwarded)]).length = sent.length + 1 :=
    List.length_append
  have hbytes : totalBytes (sent ++ [⟨ws, text, data, now⟩]) = totalBytes sent +
      Rust.utf8Len text := by
    simp [totalBytes]
  obtain ⟨hmessages, -⟩ := h.messages
  obtain ⟨hcounted, hle⟩ := haccepted.messages
  obtain ⟨htotal, -⟩ := h.bytes
  obtain ⟨hadded, hmax⟩ := haccepted.bytes
  refine ⟨haccepted.expires.trans h.expires, ?_, ?_, ?_, ?_⟩
  · rw [hlen]
    omega
  · rw [hbytes]
    omega
  · intro entry hentry
    rcases List.mem_append.mp hentry with hold | hnew
    · rw [haccepted.role]
      exact h.kind entry hold
    · obtain rfl := List.mem_singleton.mp hnew
      rw [haccepted.role, ← h.expires]
      exact ⟨haccepted.unexpired, haccepted.kind.elim (fun hk => .inr hk.2) fun hk => .inl hk.2.2⟩
  · rw [List.countP_append]
    have hsdp := h.sdp
    rcases haccepted.kind with ⟨hsent, hcandidate⟩ | ⟨hsent, hnone, htype⟩
    · rw [hsent, List.countP_singleton, if_neg (by simp [hcandidate.not_sdp])]
      exact hsdp
    · rw [hnone] at hsdp
      rw [hsent, List.countP_singleton, if_pos (isSdp_of_hasType htype)]
      exact Nat.succ_le_succ hsdp

/-! ## What an event keeps -/

theorem sentBy_append (forwarded : List Forwarded) (entry : Forwarded) (ws : ℕ) :
    (forwarded ++ [entry]).filter (fun entry => entry.sender = ws) =
      (forwarded.filter fun entry => entry.sender = ws) ++ if entry.sender = ws then [entry]
        else [] := by
  rw [List.filter_append, List.filter_singleton]
  split_ifs <;> simp_all

/-- Nobody but the room has been heard. -/
theorem Inv.broadcast {token : Text} {room : Room} (h : Inv token stringify room) (lost : List ℕ)
    (data : Json) (except : Option ℕ) :
    Inv token stringify (room.broadcast stringify lost data except none) := by
  refine ⟨h.alarm, h.joined, h.checked, h.admitted, h.tickets, h.senders, h.accounts, h.printed,
    fun delivery hdelivery => ?_⟩
  rcases List.mem_append.mp hdelivery with hold | hnew
  · exact h.delivered delivery hold
  · obtain ⟨receiver, -, rfl⟩ := List.mem_map.mp hnew
    exact ⟨rfl, nofun⟩

variable (parse stringify) in
/-- A message is accepted and forwarded, or its socket is closed. -/
theorem webSocketMessage_cases {ws : ℕ} {room : Room} (hws : ws < room.sockets.length)
    (message : Message) (lost : List ℕ) :
    ∃ info, room.sockets[ws]? = some info ∧
      ((∃ text data info', checkMessage parse info message room.now = .ok (text, data, info') ∧
        webSocketMessage stringify parse ws message lost room = Room.broadcast stringify
          { room with
            sockets := room.sockets.set ws info'
            forwarded := room.forwarded ++ [(⟨ws, text, data, room.now⟩ : Forwarded)] }
          lost data (some ws) (some ws)) ∨
        ∃ r, checkMessage parse info message room.now = .error r ∧
          webSocketMessage stringify parse ws message lost room = room.close ws 1008) := by
  have hsocket := List.getElem?_eq_getElem hws
  refine ⟨room.sockets[ws], hsocket, ?_⟩
  unfold webSocketMessage
  rw [hsocket]
  cases hcheck : checkMessage parse room.sockets[ws] message room.now with
  | error r => exact .inr ⟨r, rfl, by simp only [hcheck]⟩
  | ok checked => exact .inl ⟨checked.1, checked.2.1, checked.2.2, rfl, by simp only [hcheck]⟩

/-- The message is not printed longer than it has come, if it is accepted. -/
def PrintsShort (stringify : Json → Text) (parse : Text → Option Json) (ws : ℕ) (message : Message)
    (room : Room) :
    Prop :=
  ∀ info ∈ room.sockets[ws]?, ∀ accepted ∈ (checkMessage parse info message room.now).toOption,
    Rust.utf8Len (stringify accepted.2.1) ≤ Rust.utf8Len accepted.1

instance (ws : ℕ) (message : Message) (room : Room) :
    Decidable (PrintsShort stringify parse ws message room) := by
  unfold PrintsShort
  infer_instance

/-- The attachments keep their roles when one of them is replaced by its successor. -/
theorem roles_set {sockets : List Info} {ws : ℕ} {info info' : Info}
    (hsocket : sockets[ws]? = some info) (hrole : info'.role = info.role) :
    (sockets.set ws info').map Info.role = sockets.map Info.role := by
  obtain ⟨hlt, rfl⟩ := List.getElem?_eq_some_iff.mp hsocket
  rw [List.map_set, hrole, ← List.getElem_map Info.role (h := by simpa using hlt)]
  exact List.set_getElem_self _

/-- An accepted message is entered in the account of its socket, and in no other. -/
theorem accounts_accept {token : Text} {room : Room} {ws : ℕ} {info info' : Info}
    {message : Message} {text : Text} {data : Json}
    (h : ∀ ws info, room.sockets[ws]? = some info → Accounts token info (room.sentBy ws))
    (hsocket : room.sockets[ws]? = some info)
    (haccepted : Accepted info message room.now text data info') :
    ∀ ws' info'', (room.sockets.set ws info')[ws']? = some info'' →
      Accounts token info'' ((room.forwarded ++ [(⟨ws, text, data, room.now⟩ : Forwarded)]).filter
        fun entry => entry.sender = ws') := by
  intro ws' info'' hsocket'
  rw [sentBy_append]
  by_cases hsame : ws = ws'
  · subst hsame
    rw [if_pos rfl]
    have hws := (List.getElem?_eq_some_iff.mp hsocket).1
    rw [List.getElem?_set_self hws] at hsocket'
    obtain rfl := Option.some.inj hsocket'
    exact (h ws info hsocket).accept haccepted ws
  · rw [if_neg hsame, List.append_nil]
    rw [List.getElem?_set_ne hsame] at hsocket'
    exact h ws' info'' hsocket'

theorem Inv.message {token : Text} {room : Room} (h : Inv token stringify room) {ws : ℕ}
    (hws : ws < room.sockets.length) {message : Message}
    (hshort : PrintsShort stringify parse ws message room) (lost : List ℕ) :
    Inv token stringify (webSocketMessage stringify parse ws message lost room) := by
  obtain ⟨info, hsocket, ⟨text, data, info', hcheck, hnext⟩ | ⟨r, -, hnext⟩⟩ :=
    webSocketMessage_cases parse stringify hws message lost
  · have haccepted := checkMessage_ok hcheck
    rw [hnext]
    refine ⟨h.alarm, h.joined, h.checked, h.admitted, ?_, ?_,
      accounts_accept h.accounts hsocket haccepted, ?_, ?_⟩
    · show ((room.sockets.set ws info').map Info.role ++ room.pending.filterMap Join.role).Subperm
        room.admitted
      rw [roles_set hsocket haccepted.role]
      exact h.tickets
    · intro entry hentry
      show entry.sender < (room.sockets.set ws info').length
      rw [List.length_set]
      rcases List.mem_append.mp hentry with hold | hnew
      · exact h.senders entry hold
      · obtain rfl := List.mem_singleton.mp hnew
        exact hws
    · intro entry hentry
      rcases List.mem_append.mp hentry with hold | hnew
      · exact h.printed entry hold
      · obtain rfl := List.mem_singleton.mp hnew
        have hprinted := hshort info hsocket
        rw [hcheck] at hprinted
        exact hprinted (text, data, info') rfl
    · intro delivery hdelivery
      rcases List.mem_append.mp hdelivery with hold | hnew
      · refine ⟨(h.delivered delivery hold).1, fun ws' horigin => ?_⟩
        obtain ⟨hother, entry, hentry, hsent⟩ := (h.delivered delivery hold).2 ws' horigin
        exact ⟨hother, entry, List.mem_append_left _ hentry, hsent⟩
      · obtain ⟨receiver, hreceiver, rfl⟩ := List.mem_map.mp hnew
        refine ⟨rfl, fun ws' horigin => ?_⟩
        obtain rfl := Option.some.inj horigin
        have hother := of_decide_eq_true (List.mem_filter.mp hreceiver).2
        exact ⟨fun heq => hother.1 (congrArg some heq), _,
          List.mem_append_right _ (List.mem_singleton_self _), rfl, rfl⟩
  · rw [hnext]
    exact ⟨h.alarm, h.joined, h.checked, h.admitted, h.tickets, h.senders, h.accounts, h.printed,
      h.delivered⟩

theorem roomExpiry_eq_some {token : Text} {now expires : ℕ}
    (h : roomExpiry token now = some expires) :
    expires = expiry token ∧ now < expiry token := by
  unfold roomExpiry at h
  split_ifs at h with htoken
  simp only at h
  obtain ⟨⟨-, hlt⟩, rfl⟩ := History.of_guarded h
  exact ⟨rfl, hlt⟩

/-- A join that passes its checks. -/
theorem Inv.join {token : Text} {room : Room} (h : Inv token stringify room)
    (upgrade : Option Text) :
    Inv token stringify (fetch token upgrade room).1 := by
  unfold fetch
  cases hexpiry : roomExpiry token room.now with
  | none => exact h
  | some expires =>
    obtain ⟨rfl, -⟩ := roomExpiry_eq_some hexpiry
    simp only
    split_ifs with hupgrade
    · exact h
    refine ⟨h.alarm, h.joined, ?_, h.admitted, ?_, h.senders, h.accounts, h.printed, h.delivered⟩
    · intro expires hmem
      rcases List.mem_append.mp hmem with hold | hnew
      · exact h.checked expires hold
      · exact Join.checked.inj (List.mem_singleton.mp hnew)
    · show (room.sockets.map Info.role ++
        (room.pending ++ [Join.checked (expiry token)]).filterMap Join.role).Subperm _
      rw [List.filterMap_append, List.filterMap_cons_none (by rfl), List.filterMap_nil,
        List.append_nil]
      exact h.tickets

/-- The storage still has the count of those who have been admitted. -/
def Room.Counted (room : Room) : Prop := room.joined = none → room.admitted = []

instance (room : Room) : Decidable room.Counted := by
  unfold Room.Counted
  infer_instance

theorem Inv.count {token : Text} {room : Room} (h : Inv token stringify room)
    (hcounted : room.Counted) :
    room.joined.getD 0 = room.admitted.length := by
  rcases h.joined with hnone | hsome
  · rw [hcounted hnone, hnone]
    rfl
  · rw [hsome]
    rfl

/-- A suspended join that is given a role is the only one to hold a ticket more. -/
theorem tickets_set {pending : List Join} {i expires : ℕ}
    (hpending : pending[i]? = some (.checked expires)) (role : Option Role) :
    ((pending.set i (Join.decided role)).filterMap Join.role).Perm
      (pending.filterMap Join.role ++ role.toList) := by
  obtain ⟨hlt, hget⟩ := List.getElem?_eq_some_iff.mp hpending
  have hbefore := (List.getElem_cons_eraseIdx_perm hlt).filterMap Join.role
  have hafter := (List.set_perm_cons_eraseIdx hlt (.decided role)).filterMap Join.role
  rw [hget, List.filterMap_cons_none (by rfl)] at hbefore
  cases role with
  | none =>
    rw [List.filterMap_cons_none (by rfl)] at hafter
    simpa using hafter.trans hbefore
  | some role =>
    rw [List.filterMap_cons_some (b := role) (by rfl)] at hafter
    exact hafter.trans ((List.perm_append_singleton role _).symm.trans
      (hbefore.append_right [role]))

/-- The transaction of a join admits the next of the two, or nobody, if the count is there. -/
theorem Inv.transact {token : Text} {room : Room} (h : Inv token stringify room)
    (hcounted : room.Counted) {i expires : ℕ}
    (hpending : room.pending[i]? = some (.checked expires)) :
    Inv token stringify (room.transact i expires) := by
  have hjoined := h.count hcounted
  obtain rfl := h.checked expires (List.mem_of_getElem? hpending)
  have hchecked : ∀ role expires, Join.checked expires ∈ room.pending.set i (.decided role) →
      expires = expiry token := by
    intro role expires hmem
    exact h.checked expires ((List.mem_or_eq_of_mem_set hmem).resolve_right (by simp))
  have hadmit : ∀ role, room.admitted ++ [role] <+: [.offerer, .answerer] →
    Inv token stringify { room with
      joined := some (room.joined.getD 0 + 1), alarm := some (expiry token)
      admitted := room.admitted ++ [role],
        pending := room.pending.set i (.decided (some role)) } := by
    intro role hnext
    refine ⟨fun due hdue => (Option.some.inj hdue).symm, .inr ?_, hchecked _, hnext, ?_,
      h.senders, h.accounts, h.printed, h.delivered⟩
    · rw [hjoined, List.length_append, List.length_singleton]
    · have hperm := (tickets_set hpending (some role)).append_left (room.sockets.map Info.role)
      rw [Option.toList_some, ← List.append_assoc] at hperm
      exact hperm.subperm.trans (h.tickets.append (List.Subperm.refl [role]))
  unfold Room.transact Room.admission
  simp only
  split_ifs with hfull hfirst
  · refine ⟨h.alarm, h.joined, hchecked _, h.admitted, ?_, h.senders, h.accounts, h.printed,
      h.delivered⟩
    have hperm := (tickets_set hpending none).append_left (room.sockets.map Info.role)
    rw [Option.toList_none, List.append_nil] at hperm
    exact hperm.subperm.trans h.tickets
  · have hempty : room.admitted = [] := List.eq_nil_of_length_eq_zero (by omega)
    exact hadmit .offerer (by rw [hempty]; decide)
  · have hone : room.admitted = [.offerer] := by
      have hlen : room.admitted.length = 1 := by omega
      have htake := List.prefix_iff_eq_take.mp h.admitted
      rwa [hlen] at htake
    exact hadmit .answerer (by rw [hone]; decide)

/-- A join that is not accepted after all. -/
theorem Inv.drop {token : Text} {room : Room} (h : Inv token stringify room) (i : ℕ) :
    Inv token stringify { room with pending := room.pending.eraseIdx i } := by
  refine ⟨h.alarm, h.joined, fun expires hmem => h.checked expires (List.mem_of_mem_eraseIdx hmem),
    h.admitted, ?_, h.senders, h.accounts, h.printed, h.delivered⟩
  have hsub := ((List.eraseIdx_sublist room.pending i).filterMap Join.role).append_left
    (room.sockets.map Info.role)
  exact hsub.subperm.trans h.tickets

/-- A socket for a join that has been admitted, which nobody has heard of yet. -/
theorem Inv.open {token : Text} {room : Room} (h : Inv token stringify room) {i : ℕ} {role : Role}
    (hpending : room.pending[i]? = some (.decided (some role))) :
    Inv token stringify { room with
      pending := room.pending.eraseIdx i
      sockets := room.sockets ++ [⟨role, expiry token, 0, 0, false⟩]
      listing := room.listing ++ [room.sockets.length] } := by
  refine ⟨h.alarm, h.joined,
    fun expires hmem => h.checked expires (List.mem_of_mem_eraseIdx hmem), h.admitted,
    ?_, ?_, ?_, h.printed, h.delivered⟩
  · obtain ⟨hi, hticket⟩ := List.getElem?_eq_some_iff.mp hpending
    have hperm := (List.getElem_cons_eraseIdx_perm hi).filterMap Join.role
    rw [hticket, List.filterMap_cons_some (b := role) (by rfl)] at hperm
    show ((room.sockets ++ [_]).map Info.role ++ _).Subperm room.admitted
    rw [List.map_append, List.append_assoc]
    exact (hperm.append_left (room.sockets.map Info.role)).subperm.trans h.tickets
  · intro entry hentry
    exact lt_of_lt_of_le (h.senders entry hentry) (by simp)
  · intro ws info hsocket
    have hsocket' : (room.sockets ++ [⟨role, expiry token, 0, 0, false⟩])[ws]? = some info :=
      hsocket
    rcases Nat.lt_or_ge ws room.sockets.length with hold | hnew
    · rw [List.getElem?_append_left hold] at hsocket'
      exact h.accounts ws info hsocket'
    · -- the new socket has sent nothing
      have hnone : room.forwarded.filter (fun entry => entry.sender = ws) = [] := by
        rw [List.filter_eq_nil_iff]
        intro entry hentry hsender
        have hlt := h.senders entry hentry
        have heq := of_decide_eq_true hsender
        omega
      rw [List.getElem?_append_right hnew, List.getElem?_singleton] at hsocket'
      split_ifs at hsocket' with hzero
      obtain rfl := Option.some.inj hsocket'
      show Accounts token _ (room.forwarded.filter fun entry => entry.sender = ws)
      rw [hnone]
      exact ⟨rfl, ⟨rfl, Nat.zero_le _⟩, ⟨rfl, Nat.zero_le _⟩, nofun, le_rfl⟩

/-- One more message of the room's own. -/
theorem Inv.greet {token : Text} {room : Room} (h : Inv token stringify room) (ws : ℕ)
    (data : Json) :
    Inv token stringify { room with wire := room.wire ++ [⟨ws, data, stringify data, none⟩] } := by
  refine ⟨h.alarm, h.joined, h.checked, h.admitted, h.tickets, h.senders, h.accounts, h.printed,
    fun delivery hdelivery => ?_⟩
  rcases List.mem_append.mp hdelivery with hold | hnew
  · exact h.delivered delivery hold
  · obtain rfl := List.mem_singleton.mp hnew
    exact ⟨rfl, nofun⟩

theorem Inv.accept {token : Text} {room : Room} (h : Inv token stringify room) {i : ℕ} {role : Role}
    (hpending : room.pending[i]? = some (.decided (some role))) (lost : List ℕ) :
    Inv token stringify (accept stringify token role lost
      { room with pending := room.pending.eraseIdx i }) := by
  unfold Signal.accept
  simp only
  split_ifs with hlost hboth
  · exact h.open hpending
  · exact ((h.open hpending).greet _ _).broadcast lost _ _
  · exact (h.open hpending).greet _ _

/-- The storage is wiped, or not. -/
theorem Inv.delete {token : Text} {room : Room} (h : Inv token stringify room) (done : Bool) :
    Inv token stringify (deleteAll done room) := by
  unfold deleteAll
  cases done with
  | false =>
    exact ⟨h.alarm, h.joined, h.checked, h.admitted, h.tickets, h.senders, h.accounts, h.printed,
      h.delivered⟩
  | true =>
    exact ⟨nofun, .inl rfl, h.checked, h.admitted, h.tickets, h.senders, h.accounts, h.printed,
      h.delivered⟩

/-- What is asked of an event, in the state before it: that the transaction of a join finds the
count of those who have been admitted, and that a message is not printed longer than it has come. -/
def Fair (stringify : Json → Text) (parse : Text → Option Json) (event : Event)
    (room : Room) : Prop :=
  match event with
  | .transaction _ => room.Counted
  | .message ws message _ => PrintsShort stringify parse ws message room
  | _ => True

instance (event : Event) (room : Room) : Decidable (Fair stringify parse event room) := by
  unfold Fair
  split <;> infer_instance

/-- Every such event keeps the invariant. -/
theorem Inv.step {token : Text} {event : Event} {room room' : Room} (h : Inv token stringify room)
    (hfair : Fair stringify parse event room)
    (hstep : step stringify parse token event room = some room') :
    Inv token stringify room' := by
  unfold Signal.step at hstep
  cases event with
  | join upgrade =>
    obtain rfl := Option.some.inj hstep
    exact h.join upgrade
  -- the condition on wiped storage is used here
  | transaction i =>
    simp only at hstep
    split at hstep
    · rename_i expires hpending
      obtain rfl := Option.some.inj hstep
      exact h.transact hfair hpending
    · cases hstep
  | admitted i lost =>
    simp only at hstep
    split at hstep
    · rename_i role hpending
      obtain rfl := Option.some.inj hstep
      exact h.accept hpending lost
    · obtain rfl := Option.some.inj hstep
      exact h.drop i
    · cases hstep
  -- and the one on the printed length here
  | message ws message lost =>
    obtain ⟨hws, rfl⟩ := History.of_guarded hstep
    exact h.message hws hfair lost
  | closed ws lost =>
    obtain ⟨hws, rfl⟩ := History.of_guarded hstep
    exact h.broadcast lost _ _
  | failed ws =>
    obtain ⟨hws, rfl⟩ := History.of_guarded hstep
    exact ⟨h.alarm, h.joined, h.checked, h.admitted, h.tickets, h.senders, h.accounts, h.printed,
      h.delivered⟩
  | alarm =>
    simp only at hstep
    cases halarm : room.alarm with
    | none => simp [halarm] at hstep
    | some due =>
      rw [halarm] at hstep
      obtain ⟨hdue, rfl⟩ := History.of_guarded hstep
      exact ⟨h.alarm, h.joined, h.checked, h.admitted, h.tickets, h.senders, h.accounts, h.printed,
        h.delivered⟩
  | deleted done =>
    obtain ⟨hpending, rfl⟩ := History.of_guarded hstep
    exact h.delete done
  | tick ms =>
    obtain rfl := Option.some.inj hstep
    exact ⟨h.alarm, h.joined, h.checked, h.admitted, h.tickets, h.senders, h.accounts, h.printed,
      h.delivered⟩
  | unlisted ws =>
    obtain rfl := Option.some.inj hstep
    exact ⟨h.alarm, h.joined, h.checked, h.admitted, h.tickets, h.senders, h.accounts, h.printed,
      h.delivered⟩
  | givenUp i =>
    obtain ⟨hi, rfl⟩ := History.of_guarded hstep
    exact h.drop i

theorem inv_run {token : Text} {now : ℕ} {events : List Event} {room : Room}
    (hfair : History.Meets (Signal.step stringify parse token) (Fair stringify parse)
      (.start now) events)
    (hrun : History.run (Signal.step stringify parse token) (.start now) events = some room) :
    Inv token stringify room :=
  History.run_induct_meets (P := fun _ room => Inv token stringify room) (inv_start token now)
    (fun _ _ _ _ _ ih hcond hstep => ih.step hcond hstep) hfair hrun

end

/-! ## The room -/

/-- The names of the messages that the room has of its own. -/
def ownTypes : List String := ["hello", "ready", "peer-left"]

/-- What a room has done stays within bounds: at most two are admitted, the first as offerer and the
second as answerer, and the sockets are theirs; of each socket at most 32 messages are forwarded,
with at most 65536 bytes as they come and as they go, all before the room expires, and all of them
candidates but for one SDP, at most, of the role; and nothing else is forwarded, and nothing to
its sender. -/
structure Bounded (stringify : Json → Text) (token : Text) (room : Room) : Prop where
  admitted : room.admitted <+: [.offerer, .answerer]
  sockets : (room.sockets.map Info.role).Subperm room.admitted
  senders : ∀ entry ∈ room.forwarded, entry.sender < room.sockets.length
  messages : ∀ ws info, room.sockets[ws]? = some info →
    (room.sentBy ws).length ≤ 32 ∧
    totalBytes (room.sentBy ws) ≤ 65536 ∧ forwardedBytes stringify (room.sentBy ws) ≤ 65536 ∧
    (∀ entry ∈ room.sentBy ws, entry.time < expiry token ∧
      (entry.data.hasType info.role.sdpType = true ∨ entry.data.IsCandidate)) ∧
    (room.sentBy ws).countP (fun entry => entry.data.isSdp) ≤ 1
  delivered : ∀ delivery ∈ room.wire, delivery.encoded = stringify delivery.data ∧
    ∀ ws, delivery.origin = some ws →
      delivery.receiver ≠ ws ∧ ∃ entry ∈ room.forwarded, entry.sender = ws ∧
        entry.data = delivery.data

theorem Inv.bounded {stringify : Json → Text} {token : Text} {room : Room}
    (h : Inv token stringify room) :
    Bounded stringify token room where
  admitted := h.admitted
  sockets := (List.sublist_append_left _ _).subperm.trans h.tickets
  senders := h.senders
  messages := by
    intro ws info hsocket
    have haccounts := h.accounts ws info hsocket
    have hprinted : forwardedBytes stringify (room.sentBy ws) ≤ totalBytes (room.sentBy ws) :=
      forwardedBytes_le fun entry hentry => h.printed entry (List.mem_filter.mp hentry).1
    refine ⟨haccounts.messages.2, haccounts.bytes.2, hprinted.trans haccounts.bytes.2,
      haccounts.kind, haccounts.sdp.trans ?_⟩
    split_ifs
    · exact le_rfl
    · exact Nat.zero_le _
  delivered := h.delivered

/-- What a message does: it is accepted and, as what it says, delivered to others only, and that is
no message of the room's own; or it is rejected, and nobody gets anything. -/
def Handles (parse : Text → Option Json) (ws : ℕ) (message : Message) (room room' : Room) : Prop :=
  ∃ info, room.sockets[ws]? = some info ∧
    ((∃ text data info', checkMessage parse info message room.now = .ok (text, data, info') ∧
      room'.forwarded = room.forwarded ++ [⟨ws, text, data, room.now⟩] ∧
      (∀ name ∈ ownTypes, data.hasType name = false) ∧
      ∃ deliveries, room'.wire = room.wire ++ deliveries ∧
        ∀ delivery ∈ deliveries, delivery.data = data ∧ delivery.receiver ≠ ws) ∨
      ∃ r, checkMessage parse info message room.now = .error r ∧ room'.forwarded = room.forwarded ∧
        room'.wire = room.wire ∧ room'.sockets = room.sockets)

/-- What is accepted is no message of the room's own. -/
theorem Accepted.not_own {info info' : Info} {message : Message} {now : ℕ} {text : Text}
    {data : Json} (h : Accepted info message now text data info') :
    ∀ name ∈ ownTypes, data.hasType name = false := by
  have htype : ∃ name ∈ ["candidate", "offer", "answer"], data.hasType name = true := by
    rcases h.kind with ⟨-, hcandidate⟩ | ⟨-, -, hsdp⟩
    · exact ⟨"candidate", by decide, hcandidate.1⟩
    · exact ⟨info.role.sdpType, by cases info.role <;> decide, hsdp⟩
  obtain ⟨name, hname, htype⟩ := htype
  intro own hown
  by_contra hhas
  rw [Bool.not_eq_false] at hhas
  have hsame := Json.hasType_unique htype hhas
  have hdistinct : ∀ name ∈ ["candidate", "offer", "answer"],
      ∀ own ∈ ownTypes, units name ≠ units own := by
    decide
  exact hdistinct name hname own hown hsame

/-- A signaling room stays within its bounds over its whole life, whatever the events and in
whatever order, if every transaction of a join finds the count of those who have been admitted and
no accepted message is printed longer than it has come: it is `Bounded`, a join at or after the
expiry is refused and changes nothing, and messages are handled as above. -/
theorem room_bounds (stringify : Json → Text) (parse : Text → Option Json) {token : Text} {now : ℕ}
    {events : List Event} {room : Room}
    (hfair : History.Meets (step stringify parse token) (Fair stringify parse) (.start now) events)
    (hrun : History.run (step stringify parse token) (.start now) events = some room) :
    Bounded stringify token room ∧
    (∀ upgrade, expiry token ≤ room.now → fetch token upgrade room = (room, .refused 410)) ∧
    ∀ ws message lost room', step stringify parse token (.message ws message lost) room =
      some room' →
      Handles parse ws message room room' := by
  refine ⟨(inv_run hfair hrun).bounded, fun upgrade hlate => ?_,
    fun ws message lost room' hstep => ?_⟩
  · unfold fetch
    cases hexpiry : roomExpiry token room.now with
    | none => rfl
    | some expires => exact absurd (roomExpiry_eq_some hexpiry).2 (not_lt.mpr hlate)
  · obtain ⟨hws, rfl⟩ := History.of_guarded hstep
    obtain ⟨info, hsocket, ⟨text, data, info', hcheck, hnext⟩ | ⟨r, hcheck, hnext⟩⟩ :=
      webSocketMessage_cases parse stringify hws message lost
    · refine ⟨info, hsocket,
        .inl ⟨text, data, info', hcheck, ?_, (checkMessage_ok hcheck).not_own, ?_⟩⟩
      · rw [hnext]
        rfl
      · rw [hnext]
        refine ⟨_, rfl, fun delivery hdelivery => ?_⟩
        obtain ⟨receiver, hreceiver, rfl⟩ := List.mem_map.mp hdelivery
        have hother := of_decide_eq_true (List.mem_filter.mp hreceiver).2
        exact ⟨rfl, fun heq => hother.1 (congrArg some heq)⟩
    · refine ⟨info, hsocket, .inr ⟨r, hcheck, ?_⟩⟩
      rw [hnext]
      exact ⟨rfl, rfl, rfl⟩

/-! ## Runs -/

/-- A token of 2023. -/
def sampleToken : Text := "1700000000000-12345678-1234-4321-8321-123456789abc".toList

/-- An offer as it is sent. -/
def sampleOffer : Text := "\x7b\"type\":\"offer\",\"sdp\":\"v=0\\r\\n\"\x7d".toList

/-- A string in quotes, where no characters but CR and LF have to be escaped. -/
def quoted (value : List UInt16) : Text :=
  let spell := fun unit : UInt16 =>
    if unit = 13 then ['\\', 'r'] else if unit = 10 then ['\\', 'n'] else [Char.ofNat unit.toNat]
  '"' :: value.flatMap spell ++ ['"']

mutual

/-- `JSON.stringify`, of such strings. -/
def printSample : Json → Text
  | .null => "null".toList
  | .bool value => if value then "true".toList else "false".toList
  | .number numeral => numeral.map fun unit => Char.ofNat unit.toNat
  | .string value => quoted value
  | .array items => '[' :: (printItems items).drop 1 ++ [']']
  | .object fields => Char.ofNat 0x7b :: (printFields fields).drop 1 ++ [Char.ofNat 0x7d]

/-- Each item after a comma. -/
def printItems : List Json → Text
  | [] => []
  | item :: items => ',' :: printSample item ++ printItems items

/-- Each field after a comma. -/
def printFields : List (List UInt16 × Json) → Text
  | [] => []
  | (name, value) :: fields => ',' :: quoted name ++ ':' :: printSample value ++ printFields fields

end

/-- `JSON.parse`, for the offer. -/
def parseSample (text : Text) : Option Json :=
  if text = sampleOffer then
    some (.object (typed "offer" ++ [(units "sdp", .string (units "v=0\r\n"))])) else none

/-- Three joins of which two are admitted, an offer that is forwarded, one that is not, and the
alarm. -/
def sampleEvents : List Event :=
  [.join (some "WebSocket".toList), .join (some "websocket".toList), .transaction 1, .transaction 0,
    .admitted 0 [], .admitted 0 [], .join (some "websocket".toList), .transaction 0, .admitted 0 [],
    .message 1 (.text sampleOffer) [], .message 1 (.text sampleOffer) [], .tick 600000, .alarm,
    .deleted true]

theorem room_bounds_offer :
    ∃ room, History.run (step printSample parseSample sampleToken)
      (.start 1700000000000) sampleEvents = some room ∧
      room.admitted = [.offerer, .answerer] ∧ room.forwarded.length = 1 ∧ room.joined = none ∧
      Bounded printSample sampleToken room := by
  have hfair : History.Meets (step printSample parseSample sampleToken)
    (Fair printSample parseSample)
      (.start 1700000000000) sampleEvents := by
    decide +kernel
  have hreached : (History.run (step printSample parseSample sampleToken) (.start 1700000000000)
    sampleEvents).map
      (fun room => (room.admitted, room.forwarded.length, room.joined)) =
        some ([.offerer, .answerer], 1, none) := by
    decide +kernel
  obtain ⟨room, hrun, hroom⟩ := Option.map_eq_some_iff.mp hreached
  simp only [Prod.mk.injEq] at hroom
  exact ⟨room, hrun, hroom.1, hroom.2.1, hroom.2.2,
    (room_bounds printSample parseSample hfair hrun).1⟩

/-- Three joins pass their checks in time; the last has its transaction carried out after the
storage has been wiped. -/
def lateEvents : List Event :=
  [.join (some "websocket".toList), .join (some "websocket".toList),
    .join (some "websocket".toList),
    .transaction 0, .transaction 1, .admitted 0 [], .admitted 0 [], .tick 600000, .alarm,
    .deleted true, .transaction 0, .admitted 0 []]

/-- A candidate with a list of numbers that are short to write and long to print. -/
def hugeCandidate (n : ℕ) : Json :=
  .object (typed "candidate" ++ [
    (units "candidate", .object [(units "candidate", .string [])]),
    (units "n", .array (List.replicate n (.number (units "100000000000000000000")) ++
      [.number (units "0")]))])

/-- How it is written. -/
def hugeText (n : ℕ) : Text :=
  "\x7b\"type\":\"candidate\",\"candidate\":\x7b\"candidate\":\"\"\x7d,\"n\":[".toList ++
    (List.replicate n "1e20,".toList).flatten ++ "0]\x7d".toList

/-- `JSON.parse`, for this candidate. -/
def parseHuge (text : Text) : Option Json :=
  if text = hugeText 4000 then some (hugeCandidate 4000) else none

theorem utf8Len_replicate (n : ℕ) (text : Text) :
    Rust.utf8Len (List.replicate n text).flatten = n * Rust.utf8Len text := by
  induction n with
  | zero => simp
  | succ n ih =>
    rw [List.replicate_succ, List.flatten_cons, Rust.utf8Len_append, ih, Nat.succ_mul, Nat.add_comm]

theorem utf16Len_append (first second : Text) :
    utf16Len (first ++ second) = utf16Len first + utf16Len second := by
  unfold utf16Len
  rw [List.map_append, List.sum_append]

theorem utf16Len_replicate (n : ℕ) (text : Text) :
    utf16Len (List.replicate n text).flatten = n * utf16Len text := by
  induction n with
  | zero => simp [utf16Len]
  | succ n ih =>
    rw [List.replicate_succ, List.flatten_cons, utf16Len_append, ih, Nat.succ_mul, Nat.add_comm]

theorem printItems_replicate (n : ℕ) (item : Json) (items : List Json) :
    printItems (List.replicate n item ++ items) =
      (List.replicate n (',' :: printSample item)).flatten ++ printItems items := by
  induction n with
  | zero => rfl
  | succ n ih =>
    rw [List.replicate_succ, List.cons_append, printItems, ih, List.replicate_succ,
      List.flatten_cons, List.append_assoc]

/-- How it is printed. -/
theorem printSample_huge (n : ℕ) :
    printSample (hugeCandidate (n + 1)) =
      "\x7b\"type\":\"candidate\",\"candidate\":\x7b\"candidate\":\"\"\x7d,\"n\":[100000000000000000000".toList ++
        ((List.replicate n ",100000000000000000000".toList).flatten ++ ",0]\x7d".toList) := by
  have hitems : printItems
    (List.replicate (n + 1) (.number (units "100000000000000000000")) ++ [.number (units "0")]) =
      ",100000000000000000000".toList ++
        ((List.replicate n ",100000000000000000000".toList).flatten ++ ",0".toList) := by
    rw [printItems_replicate, List.replicate_succ, List.flatten_cons, List.append_assoc]
    rfl
  have hprinted : printSample (hugeCandidate (n + 1)) =
      "\x7b\"type\":\"candidate\",\"candidate\":\x7b\"candidate\":\"\"\x7d,\"n\":[".toList ++
        ((((printItems (List.replicate (n + 1) (.number (units "100000000000000000000")) ++
          [.number (units "0")])).drop 1 ++ "]".toList) ++ []) ++ "\x7d".toList) := rfl
  rw [hprinted, hitems]
  simp

/-- It is short enough to be accepted, and it is forwarded as a text of more than 65536 bytes. -/
theorem hugeCandidate_grows :
    utf16Len (hugeText 4000) ≤ 24576 ∧ Rust.utf8Len (hugeText 4000) ≤ 65536 ∧
      65536 < Rust.utf8Len (printSample (hugeCandidate 4000)) := by
  refine ⟨?_, ?_, ?_⟩
  · unfold hugeText
    rw [utf16Len_append, utf16Len_append, utf16Len_replicate]
    decide +kernel
  · unfold hugeText
    rw [Rust.utf8Len_append, Rust.utf8Len_append, utf8Len_replicate]
    decide +kernel
  · rw [printSample_huge 3999, Rust.utf8Len_append, Rust.utf8Len_append, utf8Len_replicate]
    decide +kernel

/-- The checks let it pass. -/
theorem checkMessage_huge {now : ℕ} (hnow : now < expiry sampleToken) :
    checkMessage parseHuge ⟨.offerer, expiry sampleToken, 0, 0, false⟩ (.text (hugeText 4000)) now =
      .ok (hugeText 4000, hugeCandidate 4000,
        ⟨.offerer, expiry sampleToken, 1, Rust.utf8Len (hugeText 4000), false⟩) := by
  obtain ⟨hunits, hbytes, -⟩ := hugeCandidate_grows
  have hparse : parseHuge (hugeText 4000) = some (hugeCandidate 4000) := if_pos rfl
  have hvalid : ∀ n info, validateSignal (hugeCandidate n) info = .ok info := fun n info => rfl
  unfold checkMessage
  rw [if_neg (not_le.mpr hnow)]
  simp only [if_neg (not_lt.mpr hunits), Nat.zero_add]
  rw [if_neg (by omega), hparse]
  simp only [hvalid]
  rfl

/-- Both conditions are needed: a third join is admitted after the storage has been wiped, and more
than 65536 bytes of one socket are forwarded in a single message. -/
theorem room_overrun :
    (∃ room, History.run (step printSample parseSample sampleToken) (.start 1700000000000)
      lateEvents = some room ∧
      room.sockets.map Info.role = [.offerer, .answerer, .offerer]) ∧
    ∃ room, History.run (step printSample parseHuge sampleToken) (.start 1700000000000)
        ([.join (some "websocket".toList), .transaction 0, .admitted 0 []] ++
          [.message 0 (.text (hugeText 4000)) []]) = some room ∧
      65536 < forwardedBytes printSample (room.sentBy 0) := by
  constructor
  · have hroles : (History.run (step printSample parseSample sampleToken) (.start 1700000000000)
      lateEvents).map
        (fun room => room.sockets.map Info.role) = some [.offerer, .answerer, .offerer] := by
      decide +kernel
    exact Option.map_eq_some_iff.mp hroles
  · have hready : ∃ room, History.run (step printSample parseHuge sampleToken)
      (.start 1700000000000)
        [.join (some "websocket".toList), .transaction 0, .admitted 0 []] = some room ∧
        room.now = 1700000000000 ∧ room.sockets = [⟨.offerer, expiry sampleToken, 0, 0, false⟩] ∧
        room.forwarded = [] :=
      ⟨_, rfl, rfl, rfl, rfl⟩
    obtain ⟨room, hrun, hnow, hsockets, hforwarded⟩ := hready
    have hws : 0 < room.sockets.length := by rw [hsockets]; decide
    refine ⟨_, History.run_concat.mpr ⟨room, hrun, if_pos hws⟩, ?_⟩
    have hearly : room.now < expiry sampleToken := by
      rw [hnow]
      decide +kernel
    have hcheck := checkMessage_huge hearly
    have hnext : (webSocketMessage printSample parseHuge 0 (.text (hugeText 4000)) []
      room).forwarded =
        [⟨0, hugeText 4000, hugeCandidate 4000, room.now⟩] := by
      unfold webSocketMessage
      rw [hsockets]
      simp only [List.getElem?_cons_zero, hcheck]
      show room.forwarded ++ _ = _
      rw [hforwarded]
      rfl
    show 65536 < forwardedBytes printSample (List.filter _
      (webSocketMessage printSample parseHuge 0 (.text (hugeText 4000)) [] room).forwarded)
    rw [hnext, List.filter_singleton, decide_eq_true rfl, cond_true, forwardedBytes_singleton]
    exact hugeCandidate_grows.2.2

end IrohExperiment.Signal
