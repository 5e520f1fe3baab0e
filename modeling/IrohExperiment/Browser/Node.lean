/-
# The browser node (`browser-iroh/src/lib.rs`)

`BrowserNode`, the endpoint of a browser page: what it takes to start one, the payload that goes
by the room's capability, and the measurement that an echo ends with.  Two pages that have
measured something have measured the same thing, for the same room.

`start`, `BrowserNode.connectEcho`, `BrowserNode.listenOnce` and `BrowserNode.measurement` are
the functions that the page calls.  The transfer itself is the one of `Roundtrip`, with the terms
of the room.  The main result is `browser_echo`.
-/
import IrohExperiment.Roundtrip.Completion
import IrohExperiment.Rust.Text

namespace IrohExperiment.Browser

open Rust Roundtrip History

-- `ι` is `EndpointId`
variable {ι : Type}

/-! ## Capabilities and payloads -/

/-- `BYTES` -/
def payloadBytes : ℕ := 65536

/-- `u8::is_ascii_hexdigit` -/
def isAsciiHexdigit (byte : UInt8) : Bool :=
  (48 ≤ byte && byte ≤ 57) || (65 ≤ byte && byte ≤ 70) || (97 ≤ byte && byte ≤ 102)

/-- The check of `start`. -/
def ValidCapability (capability : Text) : Prop :=
  (utf8 capability).length = 32 ∧ (utf8 capability).all isAsciiHexdigit = true

instance (capability : Text) : Decidable (ValidCapability capability) := by
  unfold ValidCapability
  infer_instance

/-- `format!("iroh-experiment/browser-echo/1/{capability}").into_bytes()` -/
def alpnOf (capability : Text) : Bytes :=
  utf8 "iroh-experiment/browser-echo/1/".toList ++ utf8 capability

/-- `payload` -/
@[irreducible] def payload (alpn : Bytes) : Bytes :=
  (List.range payloadBytes).map fun i => UInt8.ofNat i + alpn.getD (i % alpn.length) 0

@[simp] theorem payload_length (alpn : Bytes) : (payload alpn).length = payloadBytes := by
  unfold payload
  rw [List.length_map, List.length_range]

theorem payload_ne_nil (alpn : Bytes) : payload alpn ≠ [] := by
  intro h
  have hlen := payload_length alpn
  rw [h] at hlen
  cases hlen

theorem payload_getElem? {alpn : Bytes} {i : ℕ} (hi : i < alpn.length) (hshort : i < payloadBytes) :
    (payload alpn)[i]? = some (UInt8.ofNat i + alpn[i]) := by
  unfold payload
  rw [List.getElem?_map, List.getElem?_range hshort, Option.map_some, Nat.mod_eq_of_lt hi,
    List.getD_eq_getElem?_getD, List.getElem?_eq_getElem hi, Option.getD_some]

/-- The payload gives the protocol away: other bytes make another payload. -/
theorem payload_injective {alpn alpn' : Bytes} (hlen : alpn.length = alpn'.length)
    (hshort : alpn.length ≤ payloadBytes) (h : payload alpn = payload alpn') : alpn = alpn' := by
  apply List.ext_getElem hlen
  intro i hi hi'
  have hbyte := payload_getElem? hi (hi.trans_le hshort)
  rw [h, payload_getElem? hi' (hi.trans_le hshort)] at hbyte
  exact ((UInt8.add_right_inj _).mp (Option.some.inj hbyte)).symm

/-! ## Nodes -/

/-- `iroh::RelayUrl` -/
structure RelayUrl where
  scheme : Text
  text : Text
  deriving DecidableEq, Repr

/-- A node: its protocol is that of a capability. -/
structure BrowserNode (ι : Type) where
  endpointId : ι
  alpn : Bytes
  relay : RelayUrl
  pingSeconds : UInt32
  capable : ∃ capability, ValidCapability capability ∧ alpn = alpnOf capability

/-- Why a node does not start. -/
inductive StartError where
  /-- `invalid room capability` -/
  | capability
  | relay (cause : Text)
  /-- `HTTP(S) relay required` -/
  | scheme
  | endpoint (cause : Text)
  /-- `iroh relay connection timed out` -/
  | timedOut
  deriving DecidableEq, Repr

/-- `BrowserNode::start`, from how the URL is parsed, what binding an endpoint comes to and
whether it is online in time. -/
def start (parseRelay : Text → Except Text RelayUrl) (bind : Except Text ι) (online : Bool)
    (capability relayUrl : Text) (pingSeconds : UInt32) : Except StartError (BrowserNode ι) :=
  if h : ValidCapability capability then
    match parseRelay relayUrl with
    | .error cause => .error (.relay cause)
    | .ok relay =>
      if relay.scheme ≠ "https".toList ∧ relay.scheme ≠ "http".toList then .error .scheme
      else
        match bind with
        | .error cause => .error (.endpoint cause)
        | .ok id =>
          if online then .ok ⟨id, alpnOf capability, relay, pingSeconds, capability, h, rfl⟩
          else .error .timedOut
  else .error .capability

theorem BrowserNode.alpn_length (node : BrowserNode ι) : node.alpn.length = 63 := by
  obtain ⟨capability, ⟨hlen, -⟩, halpn⟩ := node.capable
  rw [halpn, alpnOf, List.length_append, hlen]
  decide

/-! ## Measurements -/

/-- A path of a connection, as iroh reports it. -/
structure PathState where
  isSelected : Bool
  isRelay : Bool
  isIp : Bool
  remoteAddr : Text
  deriving DecidableEq, Repr

/-- `Path` -/
structure Path where
  selected : Bool
  relay : Bool
  ip : Bool
  address : Text
  deriving DecidableEq, Repr

/-- `text.split('?').next().unwrap_or_default()` -/
def beforeQuery (text : Text) : Text := text.takeWhile (· ≠ '?')

/-- `paths` -/
def paths (connection : List PathState) : List Path :=
  connection.map fun p => ⟨p.isSelected, p.isRelay, p.isIp, beforeQuery p.remoteAddr⟩

/-- Only relay paths, one of which is selected. -/
def relayOnly (list : List Path) : Bool :=
  !list.isEmpty && list.any (fun p => p.selected && p.relay) && list.all fun p => p.relay && !p.ip

/-- `Measurement` -/
structure Measurement (ι : Type) where
  engine : String
  irohVersion : String
  role : String
  endpointId : ι
  remoteId : ι
  payloadBytes : ℕ
  echoSuccess : Bool
  pathsBefore : List Path
  pathsAfter : List Path
  relayOnlyObserved : Bool
  directConnectionTested : Bool
  natTraversalTested : Bool
  natTraversalSuccess : Option Bool
  sameSocketStunH3Tested : Bool
  relayUrl : Text
  relayPingSeconds : UInt32
  deriving DecidableEq, Repr

/-- A connection: who is at the other end, and its paths before and after the echo. -/
structure Connection (ι : Type) where
  remoteId : ι
  before : List PathState
  after : List PathState
  deriving DecidableEq, Repr

/-- Why there is no measurement. -/
inductive NodeError (ε : Type) where
  | endpointId
  /-- `cannot connect to self` -/
  | self
  /-- There is no connection, or time is up. -/
  | connect
  /-- `unexpected authenticated peer` -/
  | peer
  | echo (error : ε)
  /-- `expected selected relay paths before and after echo` -/
  | paths
  deriving DecidableEq, Repr

/-- `measurement` -/
def BrowserNode.measurement {ε : Type} (node : BrowserNode ι) (conn : Connection ι) (role : String)
    (result : Except ε Unit) : Except (NodeError ε) (Measurement ι) :=
  let before := paths conn.before
  let after := paths conn.after
  let relayOnlyObserved := [before, after].all relayOnly
  match result with
  | .error error => .error (.echo error)
  | .ok () =>
    if !relayOnlyObserved then .error .paths
    else
      .ok {
        engine := "iroh-wasm"
        irohVersion := "1.0.3"
        role := role
        endpointId := node.endpointId
        remoteId := conn.remoteId
        payloadBytes := payloadBytes
        echoSuccess := true
        pathsBefore := before
        pathsAfter := after
        relayOnlyObserved := relayOnlyObserved
        directConnectionTested := false
        natTraversalTested := false
        natTraversalSuccess := none
        sameSocketStunH3Tested := false
        relayUrl := beforeQuery node.relay.text
        relayPingSeconds := node.pingSeconds }

/-- `listen_once`, from the connection that is accepted and what `accept_echo` comes to. -/
def BrowserNode.listenOnce (node : BrowserNode ι) (conn : Option (Connection ι))
    (result : Except ListenError Unit) : Except (NodeError ListenError) (Measurement ι) :=
  match conn with
  | none => .error .connect
  | some conn => node.measurement conn "listen" result

/-- `connect_echo`, from the connection that is made and what `dial_echo` comes to. -/
def BrowserNode.connectEcho [DecidableEq ι] (parseId : Text → Option ι) (node : BrowserNode ι)
    (endpointId : Text) (conn : Option (Connection ι)) (result : Except DialError Unit) :
    Except (NodeError DialError) (Measurement ι) :=
  match parseId endpointId with
  | none => .error .endpointId
  | some id =>
    if id = node.endpointId then .error .self
    else
      match conn with
      | none => .error .connect
      | some conn =>
        if conn.remoteId ≠ id then .error .peer else node.measurement conn "dial" result

/-! ## What a measurement says -/

/-- What every measurement says: an echo on relay paths alone, with nothing in it of what stands
behind a question mark. -/
structure Measured (node : BrowserNode ι) (conn : Connection ι) (role : String)
    (m : Measurement ι) : Prop where
  role : m.role = role
  ends : m.endpointId = node.endpointId ∧ m.remoteId = conn.remoteId
  echo : m.echoSuccess = true ∧ m.payloadBytes = payloadBytes
  paths : ∀ list ∈ [m.pathsBefore, m.pathsAfter],
    (∃ p ∈ list, p.selected = true ∧ p.relay = true) ∧
      ∀ p ∈ list, p.relay = true ∧ p.ip = false ∧ '?' ∉ p.address
  url : '?' ∉ m.relayUrl

theorem not_mem_beforeQuery (text : Text) : '?' ∉ beforeQuery text := by
  intro h
  simpa using List.mem_takeWhile_imp h

theorem relayOnly_paths {connection : List PathState} (h : relayOnly (paths connection) = true) :
    (∃ p ∈ paths connection, p.selected = true ∧ p.relay = true) ∧
      ∀ p ∈ paths connection, p.relay = true ∧ p.ip = false ∧ '?' ∉ p.address := by
  unfold relayOnly at h
  rw [Bool.and_eq_true, Bool.and_eq_true, List.any_eq_true, List.all_eq_true] at h
  obtain ⟨⟨-, p, hp, hselected⟩, hall⟩ := h
  refine ⟨⟨p, hp, (Bool.and_eq_true _ _).mp hselected⟩, fun q hq => ?_⟩
  obtain ⟨hrelay, hip⟩ := (Bool.and_eq_true _ _).mp (hall q hq)
  obtain ⟨state, -, rfl⟩ := List.mem_map.mp hq
  exact ⟨hrelay, by simpa using hip, not_mem_beforeQuery _⟩

theorem measured_of_measurement {ε : Type} {node : BrowserNode ι} {conn : Connection ι}
    {role : String} {result : Except ε Unit} {m : Measurement ι}
    (h : node.measurement conn role result = .ok m) :
    result = .ok () ∧ Measured node conn role m := by
  unfold BrowserNode.measurement at h
  cases result with
  | error error => cases h
  | ok u =>
    simp only at h
    split_ifs at h with hpaths
    obtain rfl := Except.ok.inj h
    rw [Bool.not_eq_true', Bool.not_eq_false] at hpaths
    rw [List.all_cons, List.all_cons, List.all_nil, Bool.and_true, Bool.and_eq_true] at hpaths
    refine ⟨rfl, rfl, ⟨rfl, rfl⟩, ⟨rfl, rfl⟩, fun list hlist => ?_, not_mem_beforeQuery _⟩
    rcases List.mem_cons.mp hlist with rfl | hlist
    · exact relayOnly_paths hpaths.1
    · rw [List.mem_singleton.mp hlist]
      exact relayOnly_paths hpaths.2

/-- What an echo between two nodes goes by. -/
def browserTerms (dialer listener : BrowserNode ι) : Terms :=
  ⟨payload dialer.alpn, payload listener.alpn, payloadBytes, some (utf8 "verified".toList, 8)⟩

theorem alpn_eq_of_payload {dialer listener : BrowserNode ι}
    (h : payload dialer.alpn = payload listener.alpn) : dialer.alpn = listener.alpn := by
  refine payload_injective ?_ ?_ h
  · rw [dialer.alpn_length, listener.alpn_length]
  · rw [dialer.alpn_length]
    decide

theorem fits_browserTerms {dialer listener : BrowserNode ι} (h : dialer.alpn = listener.alpn) :
    Exchange.Fits (browserTerms dialer listener) := by
  refine ⟨?_, ?_, fun verification hterms => ?_⟩
  · show payload dialer.alpn = payload listener.alpn
    rw [h]
  · show (payload dialer.alpn).length ≤ payloadBytes
    rw [payload_length]
  · obtain rfl := Option.some.inj hterms
    decide

variable [DecidableEq ι] {parseId : Text → Option ι} {dialer listener : BrowserNode ι}
  {window : ℕ} {events : List ExchangeEvent} {c : Exchange}

theorem connectEcho_eq_ok {endpointId : Text} {conn : Option (Connection ι)}
    {result : Except DialError Unit} {m : Measurement ι}
    (h : dialer.connectEcho parseId endpointId conn result = .ok m) :
    ∃ connection, conn = some connection ∧ parseId endpointId = some connection.remoteId ∧
      connection.remoteId ≠ dialer.endpointId ∧
      dialer.measurement connection "dial" result = .ok m := by
  unfold BrowserNode.connectEcho at h
  split at h
  · cases h
  · next id hid =>
    split_ifs at h with hself
    split at h
    · cases h
    · next connection =>
      split_ifs at h with hpeer
      rw [not_not] at hpeer
      exact ⟨connection, rfl, by rw [hpeer]; exact hid, by rw [hpeer]; exact hself, h⟩

/-- What two nodes agree on: they are in the same room, and everything has come through. -/
def Agreed (dialer listener : BrowserNode ι) (c : Exchange) : Prop :=
  dialer.alpn = listener.alpn ∧ Exchange.AllThrough (browserTerms dialer listener) c

/-- An echo between two pages through a relay, whatever is lost and however the steps are ordered:
a page that has a measurement has the other page's capability, and the payload has come through
both ways and been compared on both sides; the measurement is of relay paths alone and leaks no
query. -/
theorem browser_echo
    (hrun : run (Exchange.step (browserTerms dialer listener) window) .start events = some c) :
    (∀ endpointId conn result m, c.dial = .returned result →
      dialer.connectEcho parseId endpointId conn result = .ok m →
        Agreed dialer listener c ∧ parseId endpointId = some m.remoteId ∧
          m.remoteId ≠ dialer.endpointId ∧
          ∃ connection, conn = some connection ∧ Measured dialer connection "dial" m) ∧
    ∀ conn result m, c.listen = .returned result → listener.listenOnce conn result = .ok m →
      Agreed dialer listener c ∧
        ∃ connection, conn = some connection ∧ Measured listener connection "listen" m := by
  have hsides := Exchange.sides_run hrun
  have hagreed : Exchange.AllThrough (browserTerms dialer listener) c →
      Agreed dialer listener c := by
    intro hall
    have hpayload : payload dialer.alpn = payload listener.alpn := hall.1
    exact ⟨alpn_eq_of_payload hpayload, hall⟩
  constructor
  · intro endpointId conn result m hdial hm
    obtain ⟨connection, rfl, hid, hself, hmeasurement⟩ := connectEcho_eq_ok hm
    obtain ⟨rfl, hmeasured⟩ := measured_of_measurement hmeasurement
    refine ⟨hagreed (hsides.of_dial (payload_ne_nil _) hdial), ?_, ?_, connection, rfl, hmeasured⟩
    · rw [hmeasured.ends.2]
      exact hid
    · rw [hmeasured.ends.2]
      exact hself
  · intro conn result m hlisten hm
    cases conn with
    | none => cases hm
    | some connection =>
      obtain ⟨rfl, hmeasured⟩ := measured_of_measurement hm
      have hsize : (payload dialer.alpn).length = (payload listener.alpn).length := by
        rw [payload_length, payload_length]
      exact ⟨hagreed (hsides.of_listen hsize hlisten), connection, rfl, hmeasured⟩

/-- A node in the room of all zeros. -/
def zeroNode (id : ℕ) : BrowserNode ℕ :=
  ⟨id, alpnOf (List.replicate 32 '0'), ⟨"https".toList, "https://relay/?room=r".toList⟩, 15,
    _, by decide, rfl⟩

/-- A connection through the relay alone. -/
def relayed (id : ℕ) : Connection ℕ :=
  ⟨id, [⟨true, true, false, "https://relay/?room=r".toList⟩],
    [⟨true, true, false, "https://relay/?room=r".toList⟩]⟩

theorem browser_echo_zeroNodes : ∃ events c m m',
    run (Exchange.step (browserTerms (zeroNode 0) (zeroNode 1)) 1200) .start events = some c ∧
      (zeroNode 0).connectEcho (fun _ => some 1) "1".toList (some (relayed 1)) (.ok ()) = .ok m ∧
      (zeroNode 1).listenOnce (some (relayed 0)) (.ok ()) = .ok m' ∧
      Agreed (zeroNode 0) (zeroNode 1) c ∧ Measured (zeroNode 1) (relayed 0) "listen" m' := by
  have hfits : Exchange.Fits (browserTerms (zeroNode 0) (zeroNode 1)) := fits_browserTerms rfl
  have hclear : Exchange.Clear (browserTerms (zeroNode 0) (zeroNode 1)) 1200 .start :=
    Exchange.clear_start
  obtain ⟨events, c, -, hrun, ⟨hdial, hlisten⟩, -⟩ :=
    hclear.completes hfits (payload_ne_nil _) (by decide) Nat.one_pos
  have hm : (zeroNode 0).connectEcho (fun _ => some 1) "1".toList (some (relayed 1)) (.ok ()) =
      .ok _ := rfl
  have hm' : (zeroNode 1).listenOnce (some (relayed 0)) (.ok ()) = .ok _ := rfl
  obtain ⟨hdialed, hlistened⟩ := browser_echo hrun
  obtain ⟨-, connection, hconn, hmeasured⟩ := hlistened _ _ _ hlisten hm'
  obtain rfl := Option.some.inj hconn
  exact ⟨events, c, _, _, hrun, hm, hm', (hdialed _ _ _ _ hdial hm).1, hmeasured⟩

end IrohExperiment.Browser
