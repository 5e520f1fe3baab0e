/-
# Candidate exchange (`media-separation/src/lib.rs`)

The length-prefixed JSON frames of the control plane: a frame that is written is read
back if both ends agree on how long it may be, and with it the candidates and the
token that the receiver of the media sends to the sender.

`writeFrame`, `readFrame`, `sendCandidates`, `requestCandidates` and `serveCandidates`; JSON
is a parameter with its round trip.  The main results are `candidates_round_trip`, for
frames of any length and cut in any way, and `reply_refused`.
-/
import IrohExperiment.Rust.Net
import IrohExperiment.Rust.Stream
import IrohExperiment.Rust.Text

namespace IrohExperiment.Media

open Rust

/-! ## Candidates -/

/-- `EndpointId`: a public key of 32 bytes. -/
abbrev EndpointId := BitVec 256

/-- Source of one direct candidate address. -/
inductive CandidateSource where
  | localAddr
  | ipv6Global
  | portMapping
  | cloudflareStun
  | cloudflareHttp3
  | flyIrohQad
  | manual
  deriving DecidableEq, Repr

/-- One direct candidate. -/
structure DirectCandidate where
  endpointId : EndpointId
  addr : SocketAddr
  source : CandidateSource
  observedAtUnixMs : UInt64
  expiresAtUnixMs : UInt64
  networkEpoch : UInt64
  deriving DecidableEq, Repr

/-- What is sent as JSON in reply to a request. -/
structure Reply where
  token : Text
  candidates : List DirectCandidate
  deriving DecidableEq, Repr

/-- `serde_json`, as far as replies are concerned. -/
structure Json where
  toVec : Reply → Option Bytes
  fromSlice : Bytes → Option Reply

/-- What is encoded is decoded. -/
def Json.Faithful (json : Json) : Prop :=
  ∀ reply bytes, json.toVec reply = some bytes → json.fromSlice bytes = some reply

/-- `anyhow::Error` -/
inductive AnyError where
  | io (kind : ErrorKind)
  | json
  | tryFromInt
  | message (text : String)
  | context (text : String) (cause : AnyError)
  deriving DecidableEq, Repr

/-! ## Frames -/

/-- `u32::try_from` -/
def u32TryFrom {σ : Type} (n : ℕ) : Async σ AnyError UInt32 :=
  if n < 2 ^ 32 then pure (UInt32.ofNat n) else Async.throw .tryFromInt

/-- `write_frame` -/
def writeFrame (payload : Bytes) : Async Sink AnyError Unit := do
  let len ← (u32TryFrom payload.length).mapErr (.context "frame too large")
  (writeU32 len).mapErr .io
  (writeAll payload).mapErr .io
  flush.mapErr .io

/-- `read_frame` -/
def readFrame : Async Source AnyError Bytes := do
  let len ← readU32.mapErr (.context "read frame length" ∘ .io)
  Async.ensure (len ≤ 64 * 1024) (.message s!"frame length {len} exceeds limit")
  (readExact len.toNat).mapErr (.context "read frame body" ∘ .io)

/-! ## Requests and replies -/

/-- `serde_json::to_vec` and `serde_json::from_slice` -/
def jsonResult {σ α : Type} (result : Option α) : Async σ AnyError α :=
  match result with
  | some value => pure value
  | none => Async.throw .json

/-- The two directions of a stream, as one end of it has them. -/
abbrev Duplex := Source × Sink

/-- `send_candidates` -/
def sendCandidates (json : Json) (cands : List DirectCandidate) (token : Text) :
    Async Sink AnyError Unit := do
  let reply ← jsonResult (json.toVec ⟨token, cands⟩)
  writeFrame reply

/-- `request_candidates` -/
def requestCandidates (json : Json) : Async Duplex AnyError (List DirectCandidate × Text) := do
  ((writeFrame []).mapErr (.context "send request")).onSnd
  let bytes ← readFrame.onFst
  let reply ← (jsonResult (json.fromSlice bytes)).mapErr (.context "decode candidates reply")
  return (reply.candidates, reply.token)

/-- `serve_candidates` -/
def serveCandidates (json : Json) (cands : List DirectCandidate) (token : Text) :
    Async Duplex AnyError Unit := do
  let req ← (readFrame.mapErr (.context "read request")).onFst
  Async.ensure (req = []) (.message "unexpected request payload")
  (sendCandidates json cands token).onSnd

/-! ## Frames on the wire -/

/-- A frame: how long the payload is, and the payload. -/
def frame (payload : Bytes) : Bytes := toBe 4 payload.length ++ payload

theorem u32TryFrom_eq_done {σ : Type} {n : ℕ} {s s' : σ} {len : UInt32} :
    (u32TryFrom n).run s = .done len s' ↔ n < 2 ^ 32 ∧ len = UInt32.ofNat n ∧ s' = s := by
  unfold u32TryFrom
  split_ifs with h
  · rw [Async.run_pure, Outcome.done.injEq]
    constructor
    · rintro ⟨rfl, rfl⟩
      exact ⟨h, rfl, rfl⟩
    · rintro ⟨-, rfl, rfl⟩
      exact ⟨rfl, rfl⟩
  · rw [Async.run_throw]
    constructor
    · intro hdone
      cases hdone
    · intro hdone
      exact absurd hdone.1 h

theorem toNat_ofNat_length {payload : Bytes} (h : payload.length < 2 ^ 32) :
    (UInt32.ofNat payload.length).toNat = payload.length := by
  rw [UInt32.toNat_ofNat']
  exact Nat.mod_eq_of_lt h

/-- What a frame that is accepted puts on the wire. -/
theorem writeFrame_eq_done {payload : Bytes} {sink sink' : Sink}
    (h : (writeFrame payload).run sink = .done () sink') :
    payload.length < 2 ^ 32 ∧ sink'.written = sink.written ++ frame payload := by
  unfold writeFrame at h
  obtain ⟨len, sink₁, hlen, hwrite⟩ := Async.bind_eq_done.mp h
  obtain ⟨hfit, rfl, rfl⟩ := u32TryFrom_eq_done.mp (Async.mapErr_eq_done.mp hlen)
  obtain ⟨_, sink₂, hlength, hrest⟩ := Async.bind_eq_done.mp hwrite
  obtain ⟨_, sink₃, hpayload, hflush⟩ := Async.bind_eq_done.mp hrest
  have h₁ := writeAll_eq_done (Async.mapErr_eq_done.mp hlength)
  have h₂ := writeAll_eq_done (Async.mapErr_eq_done.mp hpayload)
  have h₃ := writeAll_eq_done (Async.mapErr_eq_done.mp hflush)
  refine ⟨hfit, ?_⟩
  rw [h₃, h₂, h₁, toNat_ofNat_length hfit, List.append_nil, List.append_assoc]
  rfl

/-- A stream whose writes succeed takes every frame whose length fits the prefix. -/
theorem writeFrame_healthy {payload : Bytes} (hfit : payload.length < 2 ^ 32) {sink : Sink}
    (h : sink.fates = []) :
    (writeFrame payload).run sink = .done () ⟨sink.written ++ frame payload, []⟩ := by
  have hlen : ((u32TryFrom payload.length).mapErr (AnyError.context "frame too large")).run sink =
      .done (UInt32.ofNat payload.length) sink :=
    Async.mapErr_eq_done.mpr (u32TryFrom_eq_done.mpr ⟨hfit, rfl, rfl⟩)
  unfold writeFrame writeU32 flush
  rw [Async.bind_done hlen]
  rw [Async.bind_done (Async.mapErr_eq_done.mpr (writeAll_healthy h _))]
  rw [Async.bind_done (Async.mapErr_eq_done.mpr (writeAll_healthy rfl _))]
  rw [Async.mapErr_eq_done.mpr (writeAll_healthy rfl _), toNat_ofNat_length hfit]
  simp [frame]

theorem le_limit_iff {len : UInt32} : len ≤ 64 * 1024 ↔ len.toNat ≤ 64 * 1024 := by
  rw [UInt32.le_iff_toNat_le]
  rfl

/-- A frame within the limit is read back, and nothing behind it. -/
theorem readFrame_done {payload rest : Bytes} (hlimit : payload.length ≤ 64 * 1024)
    {source : Source} (hbytes : source.bytes = frame payload ++ rest) :
    ∃ source', readFrame.run source = .done payload source' ∧ source'.bytes = rest ∧
      source'.ending = source.ending := by
  have hlen : (UInt32.ofNat payload.length).toNat = payload.length := toNat_ofNat_length (by omega)
  unfold frame at hbytes
  rw [List.append_assoc, ← hlen] at hbytes
  obtain ⟨source₁, hlength, hbytes₁, hending₁⟩ := readU32_done hbytes
  obtain ⟨source₂, hpayload, hbytes₂, hending₂⟩ := readExact_done hbytes₁ hlen
  refine ⟨source₂, ?_, hbytes₂, hending₂.trans hending₁⟩
  unfold readFrame
  rw [Async.bind_done (Async.mapErr_eq_done.mpr hlength)]
  rw [Async.bind_done (Async.ensure_pos (le_limit_iff.mpr (by rwa [hlen])) _ _)]
  exact Async.mapErr_eq_done.mpr hpayload

/-- A frame beyond the limit is refused. -/
theorem readFrame_failed {payload rest : Bytes} (hfit : payload.length < 2 ^ 32)
    (hlimit : ¬ payload.length ≤ 64 * 1024) {source : Source}
    (hbytes : source.bytes = frame payload ++ rest) :
    readFrame.run source =
      .failed (.message s!"frame length {UInt32.ofNat payload.length} exceeds limit") := by
  have hlen := toNat_ofNat_length hfit
  unfold frame at hbytes
  rw [List.append_assoc, ← hlen] at hbytes
  obtain ⟨source₁, hlength, -, -⟩ := readU32_done hbytes
  unfold readFrame
  rw [Async.bind_done (Async.mapErr_eq_done.mpr hlength)]
  exact Async.bind_failed (Async.ensure_neg (by rwa [le_limit_iff, hlen]) _ _)

/-- A frame that has been written is read back exactly if it is within the limit. -/
theorem readFrame_iff {payload rest : Bytes} (hfit : payload.length < 2 ^ 32) {source : Source}
    (hbytes : source.bytes = frame payload ++ rest) :
    (∃ source', readFrame.run source = .done payload source' ∧ source'.bytes = rest) ↔
      payload.length ≤ 64 * 1024 := by
  constructor
  · rintro ⟨source', hread, -⟩
    by_contra hlimit
    rw [readFrame_failed hfit hlimit hbytes] at hread
    cases hread
  · intro hlimit
    obtain ⟨source', hread, hrest, -⟩ := readFrame_done hlimit hbytes
    exact ⟨source', hread, hrest⟩

/-! ## The exchange -/

theorem jsonResult_eq_done {σ α : Type} {result : Option α} {s s' : σ} {value : α} :
    (jsonResult result).run s = .done value s' ↔ result = some value ∧ s' = s := by
  cases result with
  | some value => simp [jsonResult, eq_comm]
  | none => simp [jsonResult]

/-- What a request that has been served puts on the wire. -/
theorem serveCandidates_eq_done {json : Json} {cands : List DirectCandidate} {token : Text}
    {server server' : Duplex}
    (h : (serveCandidates json cands token).run server = .done () server') :
    ∃ reply, json.toVec ⟨token, cands⟩ = some reply ∧ reply.length < 2 ^ 32 ∧
      server'.2.written = server.2.written ++ frame reply := by
  unfold serveCandidates at h
  obtain ⟨req, server₁, hread, hrest⟩ := Async.bind_eq_done.mp h
  obtain ⟨_, server₂, hempty, hsend⟩ := Async.bind_eq_done.mp hrest
  obtain ⟨-, hsame⟩ := Async.onFst_eq_done.mp hread
  obtain ⟨-, rfl⟩ := Async.ensure_eq_done.mp hempty
  obtain ⟨hreply, -⟩ := Async.onSnd_eq_done.mp hsend
  obtain ⟨reply, sink, hjson, hwrite⟩ := Async.bind_eq_done.mp hreply
  obtain ⟨hencode, rfl⟩ := jsonResult_eq_done.mp hjson
  obtain ⟨hfit, hwritten⟩ := writeFrame_eq_done hwrite
  exact ⟨reply, hencode, hfit, by rw [hwritten, hsame]⟩

/-- A request on a stream whose writes succeed is served. -/
theorem serveCandidates_done {json : Json} {cands : List DirectCandidate} {token : Text}
    {reply : Bytes} (hencode : json.toVec ⟨token, cands⟩ = some reply)
    (hfit : reply.length < 2 ^ 32) {server : Duplex} (hhealthy : server.2.fates = []) {rest : Bytes}
    (hrequest : server.1.bytes = frame [] ++ rest) :
    ∃ server', (serveCandidates json cands token).run server = .done () server' ∧
      server'.2.written = server.2.written ++ frame reply := by
  obtain ⟨source, hread, -, -⟩ := readFrame_done (by decide) hrequest
  have hread : (readFrame.mapErr (AnyError.context "read request")).onFst.run server =
      .done [] (source, server.2) :=
    Async.onFst_eq_done.mpr ⟨Async.mapErr_eq_done.mpr hread, rfl⟩
  refine ⟨(source, ⟨server.2.written ++ frame reply, []⟩), ?_, rfl⟩
  unfold serveCandidates
  rw [Async.bind_done hread, Async.bind_done (Async.ensure_pos rfl _ _)]
  refine Async.onSnd_eq_done.mpr ⟨?_, rfl⟩
  unfold sendCandidates
  rw [hencode, Async.bind_done (jsonResult_eq_done.mpr ⟨rfl, rfl⟩)]
  exact writeFrame_healthy hfit hhealthy

/-- How a request goes on once it is on the wire. -/
theorem requestCandidates_eq (json : Json) {client : Duplex} (hhealthy : client.2.fates = []) :
    ∃ sink, (requestCandidates json).run client = (do
      let bytes ← readFrame.onFst
      let reply ← (jsonResult (json.fromSlice bytes)).mapErr (.context "decode candidates reply")
      return (reply.candidates, reply.token) : Async Duplex AnyError _).run (client.1, sink) := by
  have hfit : ([] : Bytes).length < 2 ^ 32 := by decide
  have hrequest : ((writeFrame []).mapErr (AnyError.context "send request")).onSnd.run client =
      .done () (client.1, (⟨client.2.written ++ frame [], []⟩ : Sink)) :=
    Async.onSnd_eq_done.mpr
      ⟨Async.mapErr_eq_done.mpr (writeFrame_healthy hfit hhealthy), rfl⟩
  refine ⟨⟨client.2.written ++ frame [], []⟩, ?_⟩
  unfold requestCandidates
  rw [Async.bind_done hrequest]

/-- A reply within the limit is what the request returns. -/
theorem requestCandidates_done {json : Json} (hjson : json.Faithful) {cands : List DirectCandidate}
    {token : Text} {reply rest : Bytes} (hencode : json.toVec ⟨token, cands⟩ = some reply)
    (hlimit : reply.length ≤ 64 * 1024) {client : Duplex} (hhealthy : client.2.fates = [])
    (hbytes : client.1.bytes = frame reply ++ rest) :
    ∃ client', (requestCandidates json).run client = .done (cands, token) client' ∧
      client'.1.bytes = rest := by
  obtain ⟨sink, hrequest⟩ := requestCandidates_eq json hhealthy
  obtain ⟨source, hread, hrest, -⟩ := readFrame_done hlimit hbytes
  have hread : readFrame.onFst.run (client.1, sink) = .done reply (source, sink) :=
    Async.onFst_eq_done.mpr ⟨hread, rfl⟩
  refine ⟨(source, sink), ?_, hrest⟩
  rw [hrequest, Async.bind_done hread, hjson _ _ hencode]
  rfl

/-- A reply beyond the limit is refused. -/
theorem requestCandidates_refused (json : Json) {reply rest : Bytes} (hfit : reply.length < 2 ^ 32)
    (hlimit : ¬ reply.length ≤ 64 * 1024) {client : Duplex} (hhealthy : client.2.fates = [])
    (hbytes : client.1.bytes = frame reply ++ rest) :
    (requestCandidates json).run client =
      .failed (.message s!"frame length {UInt32.ofNat reply.length} exceeds limit") := by
  obtain ⟨sink, hrequest⟩ := requestCandidates_eq json hhealthy
  rw [hrequest]
  apply Async.bind_failed
  rw [Async.run_onFst, readFrame_failed hfit hlimit hbytes]

/-- The frames of the candidate exchange are read back exactly if they are within the
limit of the reading end: every frame that is written, and with it every reply. -/
theorem candidates_round_trip {json : Json} (hjson : json.Faithful) :
    (∀ payload sink sink', (writeFrame payload).run sink = .done () sink' →
      ∃ written, sink'.written = sink.written ++ written ∧
        ∀ source rest, source.bytes = written ++ rest →
          ((∃ source', readFrame.run source = .done payload source' ∧ source'.bytes = rest) ↔
            payload.length ≤ 64 * 1024)) ∧
    (∀ cands token server server',
      (serveCandidates json cands token).run server = .done () server' →
      ∃ reply written, json.toVec ⟨token, cands⟩ = some reply ∧
        server'.2.written = server.2.written ++ written ∧
        ∀ client rest, client.2.fates = [] → client.1.bytes = written ++ rest →
          ((∃ client', (requestCandidates json).run client = .done (cands, token) client' ∧
              client'.1.bytes = rest) ↔
            reply.length ≤ 64 * 1024)) := by
  constructor
  · intro payload sink sink' hwrite
    obtain ⟨hfit, hwritten⟩ := writeFrame_eq_done hwrite
    exact ⟨frame payload, hwritten, fun source rest hbytes => readFrame_iff hfit hbytes⟩
  · intro cands token server server' hserve
    obtain ⟨reply, hencode, hfit, hwritten⟩ := serveCandidates_eq_done hserve
    refine ⟨reply, frame reply, hencode, hwritten, fun client rest hhealthy hbytes => ?_⟩
    constructor
    · rintro ⟨client', hdone, -⟩
      by_contra hlimit
      rw [requestCandidates_refused json hfit hlimit hhealthy hbytes] at hdone
      cases hdone
    · intro hlimit
      exact requestCandidates_done hjson hencode hlimit hhealthy hbytes

/-! ## A reply beyond the limit -/

/-- The text before and behind the token in a reply without candidates. -/
def replyFront : Bytes := utf8 "\x7b\"candidates\":[],\"token\":\"".toList

def replyBack : Bytes := utf8 "\"\x7d".toList

/-- The JSON of replies without candidates and with a token of lower case letters. -/
def plainJson : Json where
  toVec reply :=
    if reply.candidates = [] ∧ reply.token.all Char.isLower then
      some (replyFront ++ reply.token.map (fun c => UInt8.ofNat c.toNat) ++ replyBack)
    else none
  fromSlice bytes :=
    some ⟨((bytes.drop replyFront.length).dropLast.dropLast).map (fun b => Char.ofNat b.toNat), []⟩

theorem lower_round_trip {c : Char} (h : c.isLower = true) :
    Char.ofNat (UInt8.ofNat c.toNat).toNat = c := by
  have hbounds : 97 ≤ c.toNat ∧ c.toNat ≤ 122 := by
    have hspan : (decide (c.val ≥ 'a'.val) && decide (c.val ≤ 'z'.val)) = true := h
    simpa [UInt32.le_iff_toNat_le] using hspan
  have hbyte : (UInt8.ofNat c.toNat).toNat = c.toNat := by
    rw [UInt8.toNat_ofNat']
    omega
  rw [hbyte, Char.ofNat_toNat]

theorem plainJson_faithful : plainJson.Faithful := by
  rintro ⟨token, candidates⟩ bytes hencode
  simp only [plainJson] at hencode ⊢
  split_ifs at hencode with hplain
  obtain ⟨rfl, hlower⟩ := hplain
  obtain rfl := Option.some.inj hencode
  have hback : replyBack = [34, 125] := by decide
  rw [List.append_assoc, List.drop_left, hback]
  have hmap : (token.map (fun c => UInt8.ofNat c.toNat)).map
      (fun b => Char.ofNat b.toNat) = token := by
    rw [List.map_map]
    conv_rhs => rw [← List.map_id token]
    apply List.map_congr_left
    intro c hc
    exact lower_round_trip (List.all_eq_true.mp hlower c hc)
  rw [List.dropLast_append_of_ne_nil (by decide), List.dropLast_append_of_ne_nil (by decide)]
  simp [hmap]

/-- A server that has been sent a request. -/
def askedServer : Duplex := (⟨[⟨frame [], by decide⟩], .silent⟩, ⟨[], []⟩)

theorem askedServer_healthy : askedServer.2.fates = [] := rfl

theorem askedServer_bytes : askedServer.1.bytes = frame [] ++ [] := rfl

/-- A token that is longer than what a frame may hold. -/
def longToken : Text := List.replicate 70000 'a'

theorem plainJson_toVec {token : Text} (hlower : token.all Char.isLower) :
    ∃ reply, plainJson.toVec ⟨token, []⟩ = some reply ∧ reply.length = token.length + 28 := by
  refine ⟨_, if_pos ⟨rfl, hlower⟩, ?_⟩
  have hfront : replyFront.length = 26 := by decide
  have hback : replyBack.length = 2 := by decide
  rw [List.length_append, List.length_append, List.length_map, hfront, hback]
  show 26 + token.length + 2 = token.length + 28
  omega

theorem longToken_lower : longToken.all Char.isLower := by
  unfold longToken
  rw [List.all_replicate]
  decide

/-- A reply that is served, and refused when it is read. -/
theorem reply_refused :
    plainJson.Faithful ∧
    ∃ server', (serveCandidates plainJson [] longToken).run askedServer = .done () server' ∧
      ∀ client, client.2.fates = [] → client.1.bytes = server'.2.written →
        ∃ error, (requestCandidates plainJson).run client = .failed error := by
  refine ⟨plainJson_faithful, ?_⟩
  obtain ⟨reply, hencode, hlen⟩ := plainJson_toVec longToken_lower
  have hlong : reply.length = 70028 := by rw [hlen, longToken, List.length_replicate]
  obtain ⟨server', hserve, hwritten⟩ :=
    serveCandidates_done hencode (by omega) askedServer_healthy askedServer_bytes
  refine ⟨server', hserve, fun client hhealthy hbytes => ?_⟩
  have hbytes : client.1.bytes = frame reply ++ [] := by
    rw [hbytes, hwritten, List.append_nil]
    rfl
  exact ⟨_, requestCandidates_refused plainJson (by omega) (by omega) hhealthy hbytes⟩

/-- A short token comes back. -/
theorem candidates_round_trip_token :
    ∃ server', (serveCandidates plainJson [] ['k', 'e', 'y']).run askedServer = .done () server' ∧
      ∀ client, client.2.fates = [] → client.1.bytes = server'.2.written →
        ∃ client', (requestCandidates plainJson).run client = .done ([], ['k', 'e', 'y']) client' ∧
          client'.1.bytes = [] := by
  obtain ⟨reply, hencode, hlen⟩ :=
    plainJson_toVec (show (['k', 'e', 'y'] : Text).all Char.isLower by decide)
  obtain ⟨server', hserve, -⟩ :=
    serveCandidates_done hencode (by simp [hlen]) askedServer_healthy askedServer_bytes
  obtain ⟨reply', written, hencode', hwritten, hiff⟩ :=
    (candidates_round_trip plainJson_faithful).2 _ _ _ _ hserve
  rw [hencode] at hencode'
  obtain rfl := Option.some.inj hencode'
  refine ⟨server', hserve, fun client hhealthy hbytes => ?_⟩
  have hbytes : client.1.bytes = written ++ [] := by
    rw [hbytes, hwritten, List.append_nil]
    rfl
  exact (hiff client [] hhealthy hbytes).mpr (by simp [hlen])

end IrohExperiment.Media
