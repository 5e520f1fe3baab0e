/-
# Invitations (`worker/public/iroh-invite.js`)

The link that brings a browser into a room, and the address under which it then asks for
the relay.  Links are read by the page and rooms are granted by the relay, each with checks
of its own.  `URL` and `URLSearchParams` are the browser's: what is used of them here is
that plain characters come back as they were.

The main result is `invitations_accepted`: whatever link the page makes it reads back, and
the relay grants the room for as long as the page takes the link.
-/
import IrohExperiment.Relay.Protocol

namespace IrohExperiment.Relay

/-! ## The browser -/

/-- The entries of a query or of a fragment. -/
abbrev Entries := List (Text × Text)

/-- `URL` and `URLSearchParams`, as far as invitations use them. -/
structure Web (Url : Type) where
  /-- `new URL(text)` -/
  parse : Text → Option Url
  /-- `new URL("/", base)` -/
  root : Text → Option Url
  href : Url → Text
  hash : Url → Text
  setHash : Url → Text → Url
  setSearch : Url → Text → Url
  searchParams : Url → Entries
  /-- `new URLSearchParams(text)` -/
  params : Text → Entries
  /-- `new URLSearchParams(entries).toString()` -/
  print : Entries → Text

/-- Letters, digits and hyphens. -/
def isPlain (c : Char) : Bool := c.isAlphanum || c == '-'

/-- Names and values are plain. -/
def PlainEntries (entries : Entries) : Prop :=
  ∀ entry ∈ entries, (∀ c ∈ entry.1, isPlain c = true) ∧ ∀ c ∈ entry.2, isPlain c = true

/-- Plain names and values, with the separators of a query. -/
def PlainFragment (text : Text) : Prop := ∀ c ∈ text, isPlain c = true ∨ c = '=' ∨ c = '&'

/-- Plain entries come back from a text, from a fragment and from a query. -/
structure Web.Faithful {Url : Type} (web : Web Url) : Prop where
  params_nil : web.params [] = []
  params_print : ∀ entries, PlainEntries entries → web.params (web.print entries) = entries
  print_plain : ∀ entries, PlainEntries entries → PlainFragment (web.print entries)
  hash_href : ∀ url text, text ≠ [] → PlainFragment text →
    ∃ url', web.parse (web.href (web.setHash url text)) = some url' ∧ web.hash url' = '#' :: text
  search_href : ∀ url entries, PlainEntries entries →
    ∃ url', web.parse (web.href (web.setSearch url (web.print entries))) = some url' ∧
      web.searchParams url' = entries

/-- A point in time, in milliseconds; a `Date` has no others. -/
structure Time where
  ms : ℤ
  valid : -8640000000000000 ≤ ms ∧ ms ≤ 8640000000000000

/-- `String(n)` -/
def spell (n : ℤ) : Text := n.repr.toList

/-- `Number.isSafeInteger` -/
def isSafeInteger (n : ℤ) : Bool := decide (-(2 ^ 53 - 1) ≤ n ∧ n ≤ 2 ^ 53 - 1)

/-- `Number` reads what `String` writes. -/
def ReadsBack (number : Text → Option ℤ) : Prop :=
  ∀ n, isSafeInteger n = true → number (spell n) = some n

/-! ## The page -/

/-- What `readInvitation` returns. -/
structure Invitation where
  id : Text
  cap : Text
  expires : ℤ
  room : Text
  ping : ℤ
  deriving DecidableEq, Repr

/-- `ROOM_MS` -/
def roomMs : ℤ := 10 * 60000

/-- `[15, 30, 60, 120, 300]` -/
def invitationPings : List ℤ := [15, 30, 60, 120, 300]

/-- The text of the error of `readInvitation`. -/
def invalidInvitation : String := "招待リンクが無効、または期限切れです。PCで新しいリンクを作ってください。"

/-- `fields.get(name)` -/
def getParam (entries : Entries) (name : String) : Option Text :=
  (entries.find? fun entry => entry.1 = name.toList).map Prod.snd

/-- `Number(text ?? missing)`; `number` is `Number` on strings, and gives no value where that
is no integer. -/
def numberOr (number : Text → Option ℤ) (missing : ℤ) (text : Option Text) : Option ℤ :=
  match text with
  | some text => number text
  | none => some missing

/-- `/^[a-f0-9]{n}$/` -/
def isHex (n : ℕ) (text : Text) : Bool := decide (text.length = n) && text.all isHexDigit

/-- `validRelayRoom` -/
def validRelayRoom (room : Option Text) (now : ℤ) : Bool :=
  let room := room.getD []
  spelledBy tokenPattern room && decide ((decimal (room.take 13) : ℤ) ≤ now + 30000) &&
    decide (now < decimal (room.take 13) + 30 * 60000)

/-- `readInvitation`, when the fields are known. -/
def readFields (number : Text → Option ℤ) (fields : Entries) (now : ℤ) :
    Except String (Option Invitation) :=
  let id := getParam fields "id"
  let cap := getParam fields "cap"
  -- `Number(null)` is 0
  let expires := numberOr number 0 (getParam fields "expires")
  let room := getParam fields "room"
  let ping := numberOr number 15 (getParam fields "ping")
  match expires, ping with
  | some expires, some ping =>
    if !isHex 64 (id.getD []) || !isHex 32 (cap.getD []) || !isSafeInteger expires ||
        decide (expires ≤ now) || decide (now + roomMs + 30000 < expires) ||
          !validRelayRoom room now ||
        !invitationPings.contains ping then
      .error invalidInvitation
    else .ok (some ⟨id.getD [], cap.getD [], expires, room.getD [], ping⟩)
  | _, _ => .error invalidInvitation

/-- `readInvitation`: no invitation without a hash. -/
def readInvitation {Url : Type} (web : Web Url) (number : Text → Option ℤ) (hash : Text) (now : ℤ) :
    Except String (Option Invitation) :=
  if hash = [] then .ok none
  else readFields number (web.params (if hash.head? = some '#' then hash.tail else hash)) now

/-- `relayAddress`; without a base there is none. -/
def relayAddress {Url : Type} (web : Web Url) (base room : Text) (ping : ℤ) : Option Text :=
  (web.root base).map fun url =>
    web.href (web.setSearch url (web.print [("room".toList, room), ("ping".toList, spell ping)]))

/-- The fields of an invitation, as `URLSearchParams` takes them. -/
def Invitation.entries (invitation : Invitation) : Entries :=
  [("id".toList, invitation.id), ("cap".toList, invitation.cap),
    ("expires".toList, spell invitation.expires), ("room".toList, invitation.room),
    ("ping".toList, spell invitation.ping)]

/-- `invitationLink` -/
def invitationLink {Url : Type} (web : Web Url) (base : Text) (invitation : Invitation) :
    Option Text :=
  (web.parse base).map fun url => web.href (web.setHash url (web.print invitation.entries))

/-! ## The relay -/

/-- `relayRoom`, at any time -/
def relayRoomAt (number : Text → Option ℤ) (searchParams : Entries) (now : ℤ) (history : Bool) :
    Option Room :=
  let token := (getParam searchParams "room").getD []
  if !spelledBy tokenPattern token then none
  else
    let created := decimal (token.take 13)
    let expires := created + relayTtl
    match numberOr number 15 (getParam searchParams "ping") with
    | some ping =>
      if now + 30000 < created ∨ ((expires + if history then historyTtl else 0 : ℕ) : ℤ) ≤ now ∨
          ¬ ∃ seconds ∈ pingSeconds, (seconds : ℤ) = ping then none
      else some ⟨token, expires, ping.toNat⟩
    | none => none

/-- What the relay reads of an address. -/
def addressRequest (searchParams : Entries) : Request :=
  ⟨false, getParam searchParams "room", getParam searchParams "ping", none, none⟩

/-- `Number`, where only natural numbers count -/
def naturalNumber (number : Text → Option ℤ) (text : Text) : Option ℕ :=
  (number text).bind fun n => if 0 ≤ n then some n.toNat else none

/-- After 1970 this is the relay's `relayRoom`. -/
theorem relayRoomAt_natCast (number : Text → Option ℤ) (searchParams : Entries) (now : ℕ)
    (history : Bool) :
    relayRoomAt number searchParams now history =
      relayRoom (naturalNumber number) (addressRequest searchParams) now history := by
  have hallowed : ∀ ping created expires : ℕ,
      ((now : ℤ) + 30000 < created ∨ (expires : ℤ) ≤ now ∨
        ¬ ∃ seconds ∈ pingSeconds, (seconds : ℤ) = ping) ↔
        (now + 30000 < created ∨ expires ≤ now ∨ ping ∉ pingSeconds) := by
    intro ping created expires
    refine or_congr (by norm_cast) (or_congr Nat.cast_le (not_congr ?_))
    simp only [Nat.cast_inj, exists_eq_right]
  unfold relayRoomAt relayRoom addressRequest
  simp only
  by_cases htoken : (!spelledBy tokenPattern ((getParam searchParams "room").getD [])) = true
  · rw [if_pos htoken, if_pos htoken]
  · rw [if_neg htoken, if_neg htoken]
    cases getParam searchParams "ping" with
    | none => exact if_congr (hallowed 15 _ _) rfl rfl
    | some text =>
      cases hnumber : number text with
      | none => simp only [numberOr, naturalNumber, hnumber, Option.bind_none]
      | some n =>
        by_cases hn : 0 ≤ n
        · -- a natural number
          obtain ⟨ping, rfl⟩ := Int.eq_ofNat_of_zero_le hn
          simp only [numberOr, naturalNumber, hnumber, Option.bind_some, if_pos hn,
            Int.toNat_natCast]
          exact if_congr (hallowed ping _ _) rfl rfl
        · have hnone : ¬ ∃ seconds ∈ pingSeconds, (seconds : ℤ) = n := by
            rintro ⟨seconds, -, rfl⟩
            exact hn (Int.natCast_nonneg seconds)
          simp only [numberOr, naturalNumber, hnumber, Option.bind_some, if_neg hn]
          exact if_pos (.inr (.inr hnone))

/-! ## Valid invitations -/

/-- What an invitation has to be at some time. -/
structure Invitation.Valid (invitation : Invitation) (now : ℤ) : Prop where
  id : isHex 64 invitation.id = true
  cap : isHex 32 invitation.cap = true
  fresh : now < invitation.expires
  near : invitation.expires ≤ now + roomMs + 30000
  room : validRelayRoom (some invitation.room) now = true
  ping : invitation.ping ∈ invitationPings

theorem validRelayRoom_iff {room : Text} {now : ℤ} :
    validRelayRoom (some room) now = true ↔
      spelledBy tokenPattern room = true ∧ (decimal (room.take 13) : ℤ) ≤ now + 30000 ∧
        now < decimal (room.take 13) + 30 * 60000 := by
  simp only [validRelayRoom, Option.getD_some, Bool.and_eq_true, decide_eq_true_eq, and_assoc]

/-- What is accepted has a valid room and an allowed interval. -/
theorem accepted_of_readFields {number : Text → Option ℤ} {fields : Entries} {now : ℤ}
    {invitation : Invitation} (h : readFields number fields now = .ok (some invitation)) :
    validRelayRoom (some invitation.room) now = true ∧ invitation.ping ∈ invitationPings := by
  unfold readFields at h
  cases hexpires : numberOr number 0 (getParam fields "expires") with
  | none =>
    simp only [hexpires] at h
    cases h
  | some expires =>
    cases hping : numberOr number 15 (getParam fields "ping") with
    | none =>
      simp only [hexpires, hping] at h
      cases h
    | some ping =>
      simp only [hexpires, hping] at h
      split_ifs at h with hbad
      obtain rfl := Option.some.inj (Except.ok.inj h)
      simp only [Bool.or_eq_true, not_or, Bool.not_eq_true', Bool.not_eq_false] at hbad
      refine ⟨?_, List.contains_iff_mem.mp hbad.2⟩
      have hroom := hbad.1.2
      rwa [validRelayRoom] at hroom ⊢

theorem accepted_of_readInvitation {Url : Type} {web : Web Url} {number : Text → Option ℤ}
    {hash : Text} {now : ℤ} {invitation : Invitation}
    (h : readInvitation web number hash now = .ok (some invitation)) :
    validRelayRoom (some invitation.room) now = true ∧ invitation.ping ∈ invitationPings := by
  unfold readInvitation at h
  by_cases hempty : hash = []
  · rw [if_pos hempty] at h
    cases h
  · rw [if_neg hempty] at h
    exact accepted_of_readFields h

/-- The fields of a valid invitation give it back. -/
theorem readFields_entries {number : Text → Option ℤ} (hnumber : ReadsBack number) {now : Time}
    {invitation : Invitation} (h : invitation.Valid now.ms) :
    readFields number invitation.entries now.ms = .ok (some invitation) := by
  have hbounds := now.valid
  have hfresh := h.fresh
  have hnear := h.near
  unfold roomMs at hnear
  have hexpires : isSafeInteger invitation.expires = true := decide_eq_true (by omega)
  have hping : isSafeInteger invitation.ping = true := by
    have hmem := h.ping
    simp only [invitationPings, List.mem_cons, List.not_mem_nil, or_false] at hmem
    exact decide_eq_true (by omega)
  have hallowed : invitationPings.contains invitation.ping = true :=
    List.contains_iff_mem.mpr h.ping
  have hid : getParam invitation.entries "id" = some invitation.id := rfl
  have hcap : getParam invitation.entries "cap" = some invitation.cap := rfl
  have hspelled : getParam invitation.entries "expires" = some (spell invitation.expires) := rfl
  have hroom : getParam invitation.entries "room" = some invitation.room := rfl
  have hinterval : getParam invitation.entries "ping" = some (spell invitation.ping) := rfl
  unfold readFields
  simp only [hid, hcap, hspelled, hroom, hinterval, numberOr, hnumber _ hexpires, hnumber _ hping,
    Option.getD_some, h.id, h.cap, hexpires, h.room, hallowed, decide_eq_false (not_le.mpr hfresh),
    decide_eq_false (not_lt.mpr h.near), Bool.not_true, Bool.or_false, Bool.false_eq_true, if_false]

/-! ## Plain texts -/

theorem isPlain_of_isHexDigit {c : Char} (h : isHexDigit c = true) : isPlain c = true := by
  have hbounds : '0' ≤ c ∧ c ≤ '9' ∨ 'a' ≤ c ∧ c ≤ 'f' := by
    simpa [isHexDigit, isDigit] using h
  have halpha : c.isAlphanum = true := by
    simp only [Char.isAlphanum, Char.isAlpha, Char.isUpper, Char.isLower, Char.isDigit,
      Bool.or_eq_true, Bool.and_eq_true, decide_eq_true_eq]
    simp only [Char.le_def, UInt32.le_iff_toNat_le, ge_iff_le, Char.reduceVal,
      UInt32.reduceToNat] at hbounds ⊢
    omega
  rw [isPlain, halpha, Bool.true_or]

theorem isPlain_of_isHex {n : ℕ} {text : Text} (h : isHex n text = true) :
    ∀ c ∈ text, isPlain c = true := by
  rw [isHex, Bool.and_eq_true, List.all_eq_true] at h
  exact fun c hc => isPlain_of_isHexDigit (h.2 c hc)

/-- What a pattern of plain characters spells is plain. -/
theorem isPlain_of_spelledBy {pattern : List (Char → Bool)} {text : Text}
    (hplain : ∀ p ∈ pattern, ∀ c, p c = true → isPlain c = true)
    (h : spelledBy pattern text = true) :
    ∀ c ∈ text, isPlain c = true := by
  induction pattern generalizing text with
  | nil =>
    cases text with
    | nil => exact fun c hc => by cases hc
    | cons c text => cases h
  | cons p pattern ih =>
    cases text with
    | nil => cases h
    | cons c text =>
      rw [spelledBy, Bool.and_eq_true] at h
      intro d hd
      rcases List.mem_cons.mp hd with rfl | hd
      · exact hplain p List.mem_cons_self _ h.1
      · exact ih (fun q hq => hplain q (List.mem_cons_of_mem p hq)) h.2 d hd

theorem tokenPattern_plain : ∀ p ∈ tokenPattern, ∀ c, p c = true → isPlain c = true := by
  intro p hp c hc
  have hcases : p = isDigit ∨ p = (· == '-') ∨ p = (· == '4') ∨ p = isHexDigit ∨
      p = fun c => decide (c = '8' ∨ c = '9' ∨ c = 'a' ∨ c = 'b') := by
    simp only [tokenPattern, List.mem_append, List.mem_cons, List.mem_replicate, List.not_mem_nil,
      or_false] at hp
    tauto
  rcases hcases with rfl | rfl | rfl | rfl | rfl
  · exact isPlain_of_isHexDigit (by rw [isHexDigit, hc, Bool.true_or])
  · rw [beq_iff_eq.mp hc]
    decide
  · rw [beq_iff_eq.mp hc]
    decide
  · exact isPlain_of_isHexDigit hc
  · rcases of_decide_eq_true hc with rfl | rfl | rfl | rfl <;> decide

/-- A spelled number is plain. -/
theorem isPlain_spell (n : ℤ) : ∀ c ∈ spell n, isPlain c = true := by
  have hnat : ∀ k : ℕ, ∀ c ∈ k.repr.toList, isPlain c = true := by
    intro k c hc
    rw [Nat.toList_repr] at hc
    have hdigit : c.isDigit = true := Nat.isDigit_of_mem_toDigits (by decide) (by decide) hc
    rw [isPlain, Char.isAlphanum, hdigit, Bool.or_true, Bool.true_or]
  unfold spell
  rw [Int.repr_eq_if]
  split_ifs
  · exact hnat _
  · rw [String.toList_append]
    intro c hc
    rcases List.mem_append.mp hc with hc | hc
    · obtain rfl := List.mem_singleton.mp hc
      decide
    · exact hnat _ c hc

/-- The names of the fields. -/
theorem plain_names :
    ∀ name ∈ ["id", "cap", "expires", "room", "ping"], ∀ c ∈ name.toList, isPlain c = true := by
  intro name hname
  apply List.all_eq_true.mp
  simp only [List.mem_cons, List.not_mem_nil, or_false] at hname
  rcases hname with rfl | rfl | rfl | rfl | rfl <;> decide

/-- The fields of a valid invitation are plain. -/
theorem plain_entries {now : ℤ} {invitation : Invitation} (h : invitation.Valid now) :
    PlainEntries invitation.entries := by
  have hroom : ∀ c ∈ invitation.room, isPlain c = true :=
    isPlain_of_spelledBy tokenPattern_plain (validRelayRoom_iff.mp h.room).1
  intro entry hentry
  simp only [Invitation.entries, List.mem_cons, List.not_mem_nil, or_false] at hentry
  rcases hentry with rfl | rfl | rfl | rfl | rfl
  · exact ⟨plain_names "id" (by simp), isPlain_of_isHex h.id⟩
  · exact ⟨plain_names "cap" (by simp), isPlain_of_isHex h.cap⟩
  · exact ⟨plain_names "expires" (by simp), isPlain_spell _⟩
  · exact ⟨plain_names "room" (by simp), hroom⟩
  · exact ⟨plain_names "ping" (by simp), isPlain_spell _⟩

/-! ## Round trips -/

section

variable {Url : Type} {web : Web Url} {number : Text → Option ℤ}

/-- Entries are printed as something. -/
theorem Web.Faithful.print_ne_nil (hweb : web.Faithful) {entries : Entries}
    (hplain : PlainEntries entries) (hne : entries ≠ []) : web.print entries ≠ [] := by
  intro hnil
  have hback := hweb.params_print entries hplain
  rw [hnil, hweb.params_nil] at hback
  exact hne hback.symm

/-- The link of a valid invitation is read as the invitation. -/
theorem readInvitation_link (hweb : web.Faithful) (hnumber : ReadsBack number) {now : Time}
    {base : Text} {url : Url} (hbase : web.parse base = some url) {invitation : Invitation}
    (h : invitation.Valid now.ms) :
    ∃ link url', invitationLink web base invitation = some link ∧ web.parse link = some url' ∧
      readInvitation web number (web.hash url') now.ms = .ok (some invitation) := by
  have hplain := plain_entries h
  have hne : web.print invitation.entries ≠ [] :=
    hweb.print_ne_nil hplain (by simp [Invitation.entries])
  obtain ⟨url', hparse, hhash⟩ := hweb.hash_href url _ hne (hweb.print_plain _ hplain)
  refine ⟨_, url', ?_, hparse, ?_⟩
  · unfold invitationLink
    rw [hbase, Option.map_some]
  · unfold readInvitation
    rw [hhash, if_neg (List.cons_ne_nil _ _), List.head?_cons, if_pos rfl, List.tail_cons,
      hweb.params_print _ hplain]
    exact readFields_entries hnumber h

/-- The relay grants the room of an invitation that was accepted. -/
theorem relayRoomAt_address (hnumber : ReadsBack number) {room : Text} {ping now : ℤ}
    (hroom : validRelayRoom (some room) now = true) (hping : ping ∈ invitationPings) :
    ∃ granted, relayRoomAt number [("room".toList, room), ("ping".toList, spell ping)] now false =
      some granted ∧
      granted.token = room ∧ (granted.ping : ℤ) = ping ∧ now < granted.expires := by
  obtain ⟨htoken, hcreated, hfresh⟩ := validRelayRoom_iff.mp hroom
  have hmem := hping
  simp only [invitationPings, List.mem_cons, List.not_mem_nil, or_false] at hmem
  have hsafe : isSafeInteger ping = true := decide_eq_true (by omega)
  have hallowed : ∃ seconds ∈ pingSeconds, (seconds : ℤ) = ping := by
    refine ⟨ping.toNat, ?_, by omega⟩
    simp only [pingSeconds, List.mem_cons, List.not_mem_nil, or_false]
    omega
  have hparam : getParam [("room".toList, room), ("ping".toList, spell ping)] "room" = some room :=
    rfl
  have hspelled : getParam [("room".toList, room), ("ping".toList, spell ping)] "ping" =
    some (spell ping) := rfl
  refine ⟨⟨room, decimal (room.take 13) + relayTtl, ping.toNat⟩, ?_, rfl, by simp; omega, ?_⟩
  · unfold relayRoomAt
    simp only [hparam, hspelled, Option.getD_some, htoken, Bool.not_true, Bool.false_eq_true,
      if_false, numberOr, hnumber ping hsafe]
    refine if_neg ?_
    rintro (hfuture | hexpired | hnot)
    · omega
    · unfold relayTtl at hexpired
      push_cast at hexpired
      omega
    · exact hnot hallowed
  · unfold relayTtl
    push_cast
    omega

/-- **Invitations**: the link of a valid invitation is read as the invitation, and with every
invitation that is read the relay grants its room, with its interval and until later. -/
theorem invitations_accepted (hweb : web.Faithful) (hnumber : ReadsBack number) (now : Time) :
    (∀ base url invitation, web.parse base = some url → invitation.Valid now.ms →
      ∃ link url', invitationLink web base invitation = some link ∧ web.parse link = some url' ∧
        readInvitation web number (web.hash url') now.ms = .ok (some invitation)) ∧
    ∀ hash invitation, readInvitation web number hash now.ms = .ok (some invitation) →
      ∀ base url, web.root base = some url →
        ∃ address url' room, relayAddress web base invitation.room invitation.ping = some address ∧
          web.parse address = some url' ∧
          relayRoomAt number (web.searchParams url') now.ms false = some room ∧
          room.token = invitation.room ∧ (room.ping : ℤ) = invitation.ping ∧
            now.ms < room.expires := by
  refine ⟨fun base url invitation hbase h => readInvitation_link hweb hnumber hbase h, ?_⟩
  intro hash invitation hread base url hroot
  obtain ⟨hroom, hping⟩ := accepted_of_readInvitation hread
  have hplain : PlainEntries
      [("room".toList, invitation.room), ("ping".toList, spell invitation.ping)] := by
    intro entry hentry
    simp only [List.mem_cons, List.not_mem_nil, or_false] at hentry
    rcases hentry with rfl | rfl
    · exact ⟨plain_names "room" (by simp),
        isPlain_of_spelledBy tokenPattern_plain (validRelayRoom_iff.mp hroom).1⟩
    · exact ⟨plain_names "ping" (by simp), isPlain_spell _⟩
  obtain ⟨url', hparse, hsearch⟩ := hweb.search_href url _ hplain
  obtain ⟨room, hgranted, htoken, hinterval, hlater⟩ := relayRoomAt_address hnumber hroom hping
  refine ⟨_, url', room, ?_, hparse, ?_, htoken, hinterval, hlater⟩
  · unfold relayAddress
    rw [hroot, Option.map_some]
  · rw [hsearch]
    exact hgranted

end

/-! ## A plain browser -/

/-- A URL in three parts. -/
structure PlainUrl where
  base : Text
  search : Text
  fragment : Text
  base_plain : '#' ∉ base ∧ '?' ∉ base
  search_plain : '#' ∉ search

/-- What stands before a separator and what behind it. -/
def cutAt (sep : Char) (text : Text) : Text × Text :=
  (text.takeWhile (· ≠ sep), (text.dropWhile (· ≠ sep)).tail)

/-- A part behind its separator, if there is one. -/
def behind (sep : Char) (text : Text) : Text := if text = [] then [] else sep :: text

theorem ne_of_not_mem {sep : Char} {front : Text} (h : sep ∉ front) :
    ∀ c ∈ front, decide (c ≠ sep) = true := by
  intro c hc
  exact decide_eq_true fun heq => h (heq ▸ hc)

theorem cutAt_cons {sep : Char} {front : Text} (h : sep ∉ front) (back : Text) :
    cutAt sep (front ++ sep :: back) = (front, back) := by
  have hall := ne_of_not_mem h
  unfold cutAt
  rw [List.takeWhile_append_of_pos hall, List.dropWhile_append_of_pos hall]
  simp

theorem cutAt_behind {sep : Char} {front : Text} (h : sep ∉ front) (back : Text) :
    cutAt sep (front ++ behind sep back) = (front, back) := by
  unfold behind
  split_ifs with hnil
  · subst hnil
    have hall := ne_of_not_mem h
    unfold cutAt
    rw [List.append_nil, List.takeWhile_eq_self_iff.mpr hall, List.dropWhile_eq_nil_iff.mpr hall]
    rfl
  · exact cutAt_cons h back

theorem not_mem_cutAt_fst (sep : Char) (text : Text) : sep ∉ (cutAt sep text).1 := by
  intro hmem
  have hne := List.mem_takeWhile_imp hmem
  simp at hne

theorem mem_of_mem_cutAt {sep c : Char} {text : Text}
    (h : c ∈ (cutAt sep text).1 ∨ c ∈ (cutAt sep text).2) :
    c ∈ text := by
  rcases h with h | h
  · exact (List.takeWhile_prefix _).subset h
  · exact (List.dropWhile_suffix _).subset (List.mem_of_mem_tail h)

/-- The parts of a text. -/
def parsePlain (text : Text) : PlainUrl where
  base := (cutAt '?' (cutAt '#' text).1).1
  search := (cutAt '?' (cutAt '#' text).1).2
  fragment := (cutAt '#' text).2
  base_plain :=
    ⟨fun hmem => not_mem_cutAt_fst '#' text (mem_of_mem_cutAt (.inl hmem)), not_mem_cutAt_fst '?' _⟩
  search_plain := fun hmem => not_mem_cutAt_fst '#' text (mem_of_mem_cutAt (.inr hmem))

/-- Fields with separators, and nothing to escape. -/
def printPlain (entries : Entries) : Text :=
  ['&'].intercalate (entries.map fun entry => entry.1 ++ '=' :: entry.2)

def paramsPlain (text : Text) : Entries := if text = [] then []
    else (text.splitOn '&').map (cutAt '=')

/-- A browser for plain texts. -/
def plainWeb : Web PlainUrl where
  parse text := some (parsePlain text)
  root base := some { parsePlain
    base with search := [], fragment := [], search_plain := List.not_mem_nil }
  href url := url.base ++ behind '?' url.search ++ behind '#' url.fragment
  hash url := behind '#' url.fragment
  setHash url text := { url with fragment := text }
  setSearch url text :=
    { url with
      search := text.filter (· ≠ '#')
      search_plain := fun hmem => by simpa using (List.mem_filter.mp hmem).2 }
  searchParams url := paramsPlain url.search
  params := paramsPlain
  print := printPlain

theorem parsePlain_href (url : PlainUrl) :
    plainWeb.parse (plainWeb.href url) = some url := by
  have hfront : '#' ∉ url.base ++ behind '?' url.search := by
    rw [List.mem_append, not_or]
    refine ⟨url.base_plain.1, ?_⟩
    unfold behind
    split_ifs
    · exact List.not_mem_nil
    · rw [List.mem_cons, not_or]
      exact ⟨by decide, url.search_plain⟩
  show some (parsePlain (url.base ++ behind '?' url.search ++ behind '#' url.fragment)) = some url
  have hcut := cutAt_behind hfront url.fragment
  have hcut' := cutAt_behind url.base_plain.2 url.search
  unfold parsePlain
  simp only [hcut, hcut']

theorem isPlain_ne {c d : Char} (hc : isPlain c = true) (hd : isPlain d = false) : c ≠ d := by
  rintro rfl
  rw [hc] at hd
  cases hd

theorem paramsPlain_print {entries : Entries} (h : PlainEntries entries) :
    paramsPlain (printPlain entries) = entries := by
  cases hentries : entries with
  | nil => rfl
  | cons entry rest =>
    rw [← hentries]
    have hfields : ∀ field ∈ entries.map fun entry => entry.1 ++ '=' :: entry.2, '&' ∉ field := by
      intro field hfield hmem
      obtain ⟨e, he, rfl⟩ := List.mem_map.mp hfield
      rcases List.mem_append.mp hmem with hname | hvalue
      · exact isPlain_ne ((h e he).1 _ hname) (by decide) rfl
      · rcases List.mem_cons.mp hvalue with heq | hvalue
        · cases heq
        · exact isPlain_ne ((h e he).2 _ hvalue) (by decide) rfl
    have hne : (entries.map fun entry => entry.1 ++ '=' :: entry.2) ≠ [] := by simp [hentries]
    have hsplit := List.splitOn_intercalate '&' hfields hne
    have hsome : printPlain entries ≠ [] := by
      intro hnil
      unfold printPlain at hnil
      rw [hnil, hentries] at hsplit
      have hlen := congrArg (fun fields => (fields.head?.getD []).length) hsplit
      simp at hlen
    unfold paramsPlain
    rw [if_neg hsome, printPlain, hsplit, List.map_map]
    conv_rhs => rw [← List.map_id entries]
    apply List.map_congr_left
    intro e he
    exact cutAt_cons (fun hmem => isPlain_ne ((h e he).1 _ hmem) (by decide) rfl) e.2

theorem printPlain_plain {entries : Entries} (h : PlainEntries entries) :
    PlainFragment (printPlain entries) := by
  intro c hc
  unfold printPlain at hc
  induction entries with
  | nil => cases hc
  | cons entry rest ih =>
    have hentry : ∀ c ∈ entry.1 ++ '=' :: entry.2, isPlain c = true ∨ c = '=' ∨ c = '&' := by
      intro c hc
      rcases List.mem_append.mp hc with hname | hvalue
      · exact .inl ((h entry List.mem_cons_self).1 c hname)
      · rcases List.mem_cons.mp hvalue with heq | hvalue
        · exact .inr (.inl heq)
        · exact .inl ((h entry List.mem_cons_self).2 c hvalue)
    cases rest with
    | nil => exact hentry c (by simpa using hc)
    | cons next rest =>
      rw [List.map_cons, List.map_cons, List.intercalate_cons_cons] at hc
      rcases List.mem_append.mp hc with hc | hc
      · rcases List.mem_append.mp hc with hc | hc
        · exact hentry c hc
        · exact .inr (.inr (List.mem_singleton.mp hc))
      · exact ih (fun e he => h e (List.mem_cons_of_mem _ he)) hc

theorem plainWeb_faithful : plainWeb.Faithful where
  params_nil := rfl
  params_print _ h := paramsPlain_print h
  print_plain _ h := printPlain_plain h
  hash_href url text hne _ := ⟨_, parsePlain_href _, if_neg hne⟩
  search_href url entries h := by
    refine ⟨_, parsePlain_href _, ?_⟩
    show paramsPlain ((printPlain entries).filter (· ≠ '#')) = entries
    have hkept : (printPlain entries).filter (· ≠ '#') = printPlain entries := by
      rw [List.filter_eq_self]
      intro c hc
      rcases printPlain_plain h c hc with hplain | rfl | rfl
      · exact decide_eq_true (isPlain_ne hplain (by decide))
      · decide
      · decide
    rw [hkept, paramsPlain_print h]

/-- `Number` on the spellings of integers -/
def plainNumber (text : Text) : Option ℤ := (String.ofList text).toInt?

theorem plainNumber_readsBack : ReadsBack plainNumber := by
  intro n _
  unfold plainNumber spell
  rw [String.ofList_toList]
  exact Int.toInt?_repr n

/-- A time in 2026. -/
def sampleTime : Time := ⟨1790000000000, by decide⟩

def sampleInvitation : Invitation :=
  ⟨List.replicate 64 'a', List.replicate 32 'b', 1790000600000,
    "1790000000000-12345678-1234-4321-8321-123456789abc".toList, 15⟩

/-- Its link is read as the invitation. -/
theorem invitations_accepted_sample :
    ∃ link url, invitationLink plainWeb "https://observe.example.com/iroh".toList
      sampleInvitation = some link ∧
      plainWeb.parse link = some url ∧
      readInvitation plainWeb plainNumber (plainWeb.hash url) 1790000000000 =
        .ok (some sampleInvitation) :=
  (invitations_accepted plainWeb_faithful plainNumber_readsBack sampleTime).1 _ _ _ rfl
    ⟨by decide, by decide, by decide, by decide, by decide, by decide⟩

end IrohExperiment.Relay
