/-
# Observations over HTTP/3 (`cloudflare-h3-observer/src/lib.rs`)

What the H3 observer makes of the response of the edge: its headers, its body, and the
observation that they give.  A header that cannot be read as text is taken for a missing one.

`observeConnection` takes the response, or the error, that the connection gives.  The main
result is `enforced_iff`: no observation ignores a value of one of the four fields exactly
if the value can be read as text; `not_enforced_raw` is a port of one byte that cannot.
-/
import IrohExperiment.Rust.Time
import IrohExperiment.Rust.Values

namespace IrohExperiment.Observer

open Rust

/-! ## Responses -/

/-- `x-observed-ip` and the other fields that the observer reads. -/
def hdrObservedIp : Text := "x-observed-ip".toList

def hdrObservedPort : Text := "x-observed-port".toList

def hdrObservedRttMs : Text := "x-observed-rtt-ms".toList

def hdrColo : Text := "x-observed-colo".toList

def hdrIsTcp : Text := "x-observed-is-tcp".toList

def hdrHttpVersion : Text := "x-observed-http-version".toList

def contentLength : Text := "content-length".toList

/-- The response of the edge: its status and header, the lengths of the chunks of its body,
and how reading the body and the trailers ends. -/
structure Response where
  status : ℕ
  headers : HeaderMap
  chunks : List ℕ
  body : Except Text Unit
  trailers : Except Text Unit

/-- What fails before there is a response. -/
inductive Stage where
  /-- `h3 init failed` -/
  | init
  /-- `build request` -/
  | build
  /-- `send H3 request` -/
  | send
  /-- `finish H3 request` -/
  | finish
  /-- `await H3 response` -/
  | await
  deriving DecidableEq, Repr

/-- Why an observation fails. -/
inductive ObserveError where
  | exchange (stage : Stage) (cause : Text)
  /-- `edge returned {status}; check zone config in infra/cloudflare/` -/
  | status (status : ℕ)
  /-- `edge reports a TCP observation` -/
  | tcp
  /-- `edge reports a non-H3 observation` -/
  | notH3
  /-- `response lacks x-observed-ip; check zone config in infra/cloudflare/` -/
  | noIp
  /-- `x-observed-ip is not a valid IP address` -/
  | invalidIp
  /-- `x-observed-port is not a valid u16 port` -/
  | invalidPort
  /-- `x-observed-port must be nonzero` -/
  | portZero
  /-- `x-observed-rtt-ms is not a valid number` -/
  | invalidRtt
  /-- `x-observed-rtt-ms is not a physically valid RTT` -/
  | impossibleRtt
  /-- `invalid H3 Content-Length` -/
  | invalidLength
  /-- `read H3 response body` -/
  | body (cause : Text)
  /-- `H3 response body length overflow` -/
  | lengthOverflow
  /-- `read H3 response trailers` -/
  | trailers (cause : Text)
  /-- `H3 response body length mismatch` -/
  | lengthMismatch
  deriving DecidableEq, Repr

/-- One HTTP/3 observation from the Cloudflare edge. -/
structure H3Observation where
  serverHost : Text
  observedIp : Option IpAddr
  observedPort : Option UInt16
  rttMs : Option F64
  colo : Option Text
  duration : Duration
  sameSocketAsIroh : Bool
  localAddr : Option SocketAddr
  candidateRegistered : Bool

/-! ## Headers -/

/-- The closure `header`: the value of a field, if it is there and can be read. -/
def header (headers : HeaderMap) (name : Text) : Option Text :=
  (headers.get name).bind HeaderValue.toStr

/-- The check of `x-observed-is-tcp`. -/
def checkIsTcp (headers : HeaderMap) : Exec ObserveError Unit :=
  match header headers hdrIsTcp with
  | some isTcp => ensure (isTcp = "false".toList) .tcp
  | none => return

/-- The check of `x-observed-http-version`. -/
def checkHttpVersion (headers : HeaderMap) : Exec ObserveError Unit :=
  match header headers hdrHttpVersion with
  | some version => ensure (version = "HTTP/3".toList ∨ version = "HTTP/3.0".toList) .notH3
  | none => return

/-- `let observed_port = ..` -/
def readPort (headers : HeaderMap) : Exec ObserveError (Option UInt16) :=
  match header headers hdrObservedPort with
  | some [] => return none
  | some v => do
    let port ← okOr (parseU16 v) .invalidPort
    ensure (port ≠ 0) .portZero
    return some port
  | none => return none

/-- `let rtt_ms = ..` -/
def readRtt (headers : HeaderMap) : Exec ObserveError (Option F64) :=
  match header headers hdrObservedRttMs with
  | some [] => return none
  | some v => do
    let parsed ← okOr (parseF64 v) .invalidRtt
    ensure (parsed.isFinite ∧ (Float.Model.ofNat 0) ≤ parsed) .impossibleRtt
    return some parsed
  | none => return none

/-- `let expected_len = ..`: this header must be readable if it is there. -/
def expectedLen (headers : HeaderMap) : Exec ObserveError (Option UInt64) :=
  match headers.get contentLength with
  | some value => do return some (← okOr (value.toStr >>= parseU64) .invalidLength)
  | none => return none

/-- `received_len`, once the chunks that are left have been added. -/
def receiveBody : List ℕ → ℕ → Exec ObserveError ℕ
  | [], received => return received
  | chunk :: chunks, received => do
    ensure (received + chunk < 2 ^ 64) .lengthOverflow
    receiveBody chunks (received + chunk)

/-- `Result` with a context -/
def context (result : Except Text Unit) (error : Text → ObserveError) : Exec ObserveError Unit :=
  match result with
  | .ok () => return
  | .error cause => .err (error cause)

/-- The body has the length that the header announces. -/
def checkBody (response : Response) : Exec ObserveError Unit := do
  let expected ← expectedLen response.headers
  let received ← receiveBody response.chunks 0
  context response.body .body
  context response.trailers .trailers
  match expected with
  | some expected => ensure (received = expected.toNat) .lengthMismatch
  | none => return

/-- `observe_connection`, from the moment when the exchange has given a response or failed. -/
def observeConnection (host : Text) (exchange : Except (Stage × Text) Response) :
    Exec ObserveError H3Observation :=
  match exchange with
  | .error (stage, cause) => .err (.exchange stage cause)
  | .ok response => do
    ensure (200 ≤ response.status ∧ response.status < 300) (.status response.status)
    checkIsTcp response.headers
    checkHttpVersion response.headers
    let rawIp ← okOr (header response.headers hdrObservedIp) .noIp
    let observedIp ← okOr (parseIpAddr rawIp) .invalidIp
    let observedPort ← readPort response.headers
    let rttMs ← readRtt response.headers
    let colo := header response.headers hdrColo
    checkBody response
    return ⟨host, some observedIp, observedPort, rttMs, colo, .zero, false, none, false⟩

/-! ## What is reported -/

theorem header_eq {headers : HeaderMap} {name : Text} {value : HeaderValue}
    (h : headers.get name = some value) : header headers name = value.toStr := by
  unfold header
  rw [h]
  rfl

/-- An accepted `x-observed-is-tcp`. -/
theorem checkIsTcp_ok {headers : HeaderMap} {text : Text} (h : header headers hdrIsTcp = some text)
    (hok : checkIsTcp headers = .ok ()) : text = "false".toList := by
  unfold checkIsTcp at hok
  rw [h] at hok
  exact ensure_eq_ok.mp hok

theorem checkHttpVersion_ok {headers : HeaderMap} {text : Text}
    (h : header headers hdrHttpVersion = some text) (hok : checkHttpVersion headers = .ok ()) :
    text = "HTTP/3".toList ∨ text = "HTTP/3.0".toList := by
  unfold checkHttpVersion at hok
  rw [h] at hok
  exact ensure_eq_ok.mp hok

/-- A port that is there and not empty is the one reported. -/
theorem readPort_ok {headers : HeaderMap} {text : Text}
    (h : header headers hdrObservedPort = some text) (hne : text ≠ []) {port : Option UInt16}
    (hok : readPort headers = .ok port) :
    ∃ p, parseU16 text = some p ∧ p ≠ 0 ∧ port = some p := by
  unfold readPort at hok
  rw [h] at hok
  cases text with
  | nil => exact absurd rfl hne
  | cons c rest =>
    obtain ⟨p, hparse, hok⟩ := Exec.bind_eq_ok.mp hok
    obtain ⟨_, hzero, hok⟩ := Exec.bind_eq_ok.mp hok
    exact ⟨p, okOr_eq_ok.mp hparse, ensure_eq_ok.mp hzero, (Exec.ok.inj hok).symm⟩

/-- An RTT that is there and not empty is the one reported. -/
theorem readRtt_ok {headers : HeaderMap} {text : Text}
    (h : header headers hdrObservedRttMs = some text) (hne : text ≠ []) {rtt : Option F64}
    (hok : readRtt headers = .ok rtt) :
    ∃ r, parseF64 text = some r ∧ (r.isFinite = true ∧ Float.Model.ofNat 0 ≤ r) ∧ rtt = some r := by
  unfold readRtt at hok
  rw [h] at hok
  cases text with
  | nil => exact absurd rfl hne
  | cons c rest =>
    obtain ⟨r, hparse, hok⟩ := Exec.bind_eq_ok.mp hok
    obtain ⟨_, hvalid, hok⟩ := Exec.bind_eq_ok.mp hok
    exact ⟨r, okOr_eq_ok.mp hparse, ensure_eq_ok.mp hvalid, (Exec.ok.inj hok).symm⟩

/-- An observation has passed every check. -/
theorem observeConnection_ok {host : Text} {response : Response} {observation : H3Observation}
    (h : observeConnection host (.ok response) = .ok observation) :
    checkIsTcp response.headers = .ok () ∧ checkHttpVersion response.headers = .ok () ∧
      readPort response.headers = .ok observation.observedPort ∧
      readRtt response.headers = .ok observation.rttMs := by
  unfold observeConnection at h
  obtain ⟨_, -, h⟩ := Exec.bind_eq_ok.mp h
  obtain ⟨_, htcp, h⟩ := Exec.bind_eq_ok.mp h
  obtain ⟨_, hversion, h⟩ := Exec.bind_eq_ok.mp h
  obtain ⟨_, -, h⟩ := Exec.bind_eq_ok.mp h
  obtain ⟨_, -, h⟩ := Exec.bind_eq_ok.mp h
  obtain ⟨port, hport, h⟩ := Exec.bind_eq_ok.mp h
  obtain ⟨rtt, hrtt, h⟩ := Exec.bind_eq_ok.mp h
  obtain ⟨_, -, h⟩ := Exec.bind_eq_ok.mp h
  obtain rfl := Exec.ok.inj h
  exact ⟨htcp, hversion, hport, hrtt⟩

/-! ## Fields that may not be ignored -/

/-- The fields that an observation must respect if they are there. -/
inductive Field where
  | port
  | rtt
  | isTcp
  | httpVersion
  deriving DecidableEq, Repr

/-- The name of a field. -/
def Field.name : Field → Text
  | .port => hdrObservedPort
  | .rtt => hdrObservedRttMs
  | .isTcp => hdrIsTcp
  | .httpVersion => hdrHttpVersion

/-- The observation respects the value of a field. -/
def Field.Respected (field : Field) (value : HeaderValue) (observation : H3Observation) : Prop :=
  match field with
  | .port => value.bytes ≠ [] → ∃ text port, value.toStr = some text ∧ parseU16 text = some port ∧
      port ≠ 0 ∧ observation.observedPort = some port
  | .rtt => value.bytes ≠ [] → ∃ text rtt, value.toStr = some text ∧ parseF64 text = some rtt ∧
      (rtt.isFinite = true ∧ Float.Model.ofNat 0 ≤ rtt) ∧ observation.rttMs = some rtt
  | .isTcp => value.toStr = some "false".toList
  | .httpVersion => value.toStr = some "HTTP/3".toList ∨ value.toStr = some "HTTP/3.0".toList

/-- No observation ignores this value of the field, whatever else the response holds. -/
def Field.Enforced (field : Field) (value : HeaderValue) : Prop :=
  ∀ host response observation, response.headers.get field.name = some value →
    observeConnection host (.ok response) = .ok observation → field.Respected value observation

/-- A value that can be read is respected. -/
theorem Field.enforced_of_readable {field : Field} {value : HeaderValue} (h : value.Readable) :
    field.Enforced value := by
  intro host response observation hget hok
  obtain ⟨htcp, hversion, hport, hrtt⟩ := observeConnection_ok hok
  have htext := HeaderValue.toStr_readable h
  have hheader := (header_eq hget).trans htext
  cases field with
  | port =>
    intro hne
    obtain ⟨port, hparse, hzero, hreported⟩ := readPort_ok hheader (by simpa using hne) hport
    exact ⟨_, port, htext, hparse, hzero, hreported⟩
  | rtt =>
    intro hne
    obtain ⟨rtt, hparse, hvalid, hreported⟩ := readRtt_ok hheader (by simpa using hne) hrtt
    exact ⟨_, rtt, htext, hparse, hvalid, hreported⟩
  | isTcp => exact htext.trans (congrArg some (checkIsTcp_ok hheader htcp))
  | httpVersion =>
    rw [Field.Respected, htext, Option.some.injEq, Option.some.injEq]
    exact checkHttpVersion_ok hheader hversion

/-- Some bytes of a header that can be read. -/
def asciiValue (text : Text) (h : ∀ c ∈ text, 32 ≤ c.toNat ∧ c.toNat < 127) : HeaderValue where
  bytes := text.map fun c => UInt8.ofNat c.toNat
  legal := by
    intro byte hbyte
    obtain ⟨c, hc, rfl⟩ := List.mem_map.mp hbyte
    have hrange := h c hc
    have hnat : (UInt8.ofNat c.toNat).toNat = c.toNat := by
      rw [UInt8.toNat_ofNat', Nat.mod_eq_of_lt (by omega)]
    refine .inr ⟨UInt8.le_iff_toNat_le.mpr ?_, fun heq => ?_⟩
    · rw [hnat]
      exact hrange.1
    · rw [heq] at hnat
      have : (127 : UInt8).toNat = 127 := rfl
      omega

/-- A response of the edge with an address and one more field. -/
def responseWith (field : Field) (value : HeaderValue) : Response where
  status := 200
  headers := [(field.name, value), (hdrObservedIp, asciiValue "192.0.2.1".toList (by simp))]
  chunks := []
  body := .ok ()
  trailers := .ok ()

/-- The address of the sample responses, as text. -/
def sampleIp : Text := "192.0.2.1".toList

/-- A field that cannot be read leaves the address as the only one that is found. -/
theorem header_responseWith (field : Field) {value : HeaderValue} (h : ¬ value.Readable)
    (name : Text) :
    header (responseWith field value).headers name = if name = hdrObservedIp then some sampleIp
      else none := by
  have hother : field.name ≠ hdrObservedIp := by cases field <;> decide
  unfold header HeaderMap.get responseWith
  by_cases hfield : field.name = name
  · rw [List.find?_cons_of_pos (by simpa using hfield), if_neg (by rw [← hfield]; exact hother)]
    exact HeaderValue.toStr_unreadable h
  · rw [List.find?_cons_of_neg (by simpa using hfield)]
    split_ifs with hip
    · subst hip
      rfl
    · rw [List.find?_cons_of_neg (by simpa using fun heq => hip heq.symm)]
      rfl

/-- The response with such a field gives an observation that does not mention it. -/
theorem observeConnection_unreadable (field : Field) {value : HeaderValue} (h : ¬ value.Readable)
    (host : Text) :
    observeConnection host (.ok (responseWith field value)) =
      .ok ⟨host, some (.v4 ⟨0xc0000201⟩), none, none, none, .zero, false, none, false⟩ := by
  have hheader := header_responseWith field h
  have hip : parseIpAddr sampleIp = some (.v4 ⟨0xc0000201⟩) := by decide +kernel
  have hlength : (responseWith field value).headers.get contentLength = none := by
    have hname : field.name ≠ contentLength := by cases field <;> decide
    unfold HeaderMap.get responseWith
    rw [List.find?_cons_of_neg (by simpa using hname)]
    rfl
  have htcp : checkIsTcp (responseWith field value).headers = .ok () := by
    unfold checkIsTcp
    rw [hheader, if_neg (by decide)]
    rfl
  have hversion : checkHttpVersion (responseWith field value).headers = .ok () := by
    unfold checkHttpVersion
    rw [hheader, if_neg (by decide)]
    rfl
  have hport : readPort (responseWith field value).headers = .ok none := by
    unfold readPort
    rw [hheader, if_neg (by decide)]
    rfl
  have hrtt : readRtt (responseWith field value).headers = .ok none := by
    unfold readRtt
    rw [hheader, if_neg (by decide)]
    rfl
  have hbody : checkBody (responseWith field value) = .ok () := by
    unfold checkBody expectedLen
    rw [hlength]
    rfl
  unfold observeConnection
  simp only [htcp, hversion, hport, hrtt, hbody, hheader, Exec.ok_bind]
  rw [if_pos trivial, if_neg (by decide), okOr_some, Exec.ok_bind, hip]
  rfl

/-- A value is enforced exactly if it can be read as text.  Of a field that is repeated only the
first line is looked at (`HeaderMap::get`), here as in the code: `value` is that line's value, and
what further lines of the field hold changes nothing. -/
theorem enforced_iff (field : Field) (value : HeaderValue) : field.Enforced value ↔
    value.Readable := by
  refine ⟨fun h => ?_, Field.enforced_of_readable⟩
  by_contra hunreadable
  have hget : (responseWith field value).headers.get field.name = some value := by
    unfold HeaderMap.get responseWith
    rw [List.find?_cons_of_pos (by simp)]
    rfl
  have hrespected := h [] _ _ hget (observeConnection_unreadable _ hunreadable [])
  have htext := HeaderValue.toStr_unreadable hunreadable
  have hne : value.bytes ≠ [] := fun hnil => hunreadable (HeaderValue.readable_of_nil hnil)
  cases field with
  | port =>
    obtain ⟨text, _, hsome, -⟩ := hrespected hne
    rw [htext] at hsome
    cases hsome
  | rtt =>
    obtain ⟨text, _, hsome, -⟩ := hrespected hne
    rw [htext] at hsome
    cases hsome
  | isTcp =>
    rw [Field.Respected, htext] at hrespected
    cases hrespected
  | httpVersion =>
    rw [Field.Respected, htext] at hrespected
    rcases hrespected with hsome | hsome
    · cases hsome
    · cases hsome

/-- A header with one byte that is not ASCII. -/
def rawValue : HeaderValue := ⟨[0xff], by simp⟩

/-- A port of one such byte gives an observation without a port. -/
theorem not_enforced_raw :
    (∃ observation, observeConnection "edge.example".toList (.ok (responseWith .port rawValue)) =
      .ok observation ∧ observation.observedPort = none) ∧
    ¬ Field.port.Enforced rawValue := by
  have hok := observeConnection_unreadable .port (show ¬ rawValue.Readable by decide)
    "edge.example".toList
  refine ⟨⟨_, hok, rfl⟩, fun h => ?_⟩
  obtain ⟨text, _, hsome, -⟩ := h _ _ _ rfl hok (by decide)
  cases hsome

end IrohExperiment.Observer
