/-
# Setting a zone up for the observer (`worker/scripts/setup-zone.mjs`)

`configureZone`: it reads everything that its plan is about, takes a snapshot of what it
has read, and then turns HTTP/3 on and brings the rule of every planned phase up to date,
one request after the other.  Any request may fail, before or after the zone has acted on
it; a request that fails ends the setup with what has been done until then.

`configureZone` and `api` are the source's functions, and the plan of `configure.mjs` is a
parameter.  What is proved of them is in `Setup.Rerun`.
-/
import IrohExperiment.Setup.Zone
import IrohExperiment.Script.Ends

namespace IrohExperiment.Setup

variable {α ρ : Type}

/-! ## The plan -/

/-- A planned rule. -/
structure Entry (α : Type) where
  phase : String
  rule : Rule α
  deriving DecidableEq, Repr

/-- The plan; `http3` is the value of its HTTP/3 setting. -/
structure Plan (α : Type) where
  zoneId : String
  hostname : String
  http3 : String
  rules : List (Entry α)
  deriving DecidableEq, Repr

/-- The rule is the planned one, or one made by hand for the same purpose. -/
def Entry.matches (entry : Entry α) (r : StoredRule α) : Bool :=
  r.rule.ref == entry.rule.ref ||
    (r.rule.description == entry.rule.description && r.rule.expression == entry.rule.expression &&
      r.rule.action == entry.rule.action)

/-- A planned rule with what was found in its phase. -/
structure Phase (α : Type) extends Entry α where
  existing : Option (Ruleset α)
  matched : Option (StoredRule α)
  deriving DecidableEq, Repr

/-! ## Requests and responses -/

/-- What the setup reads of a zone. -/
structure Details where
  name : String
  status : String
  deriving DecidableEq, Repr

/-- The requests that the setup makes, by the result it takes from the response. -/
inductive Request (α : Type) : Type → Type where
  | zone : Request α Details
  | http3 : Request α String
  | entrypoint (phase : String) : Request α (Ruleset α)
  | patchHttp3 (value : String) : Request α Unit
  | postRuleset (phase : String) (rule : Rule α) : Request α Unit
  | patchRule (ruleset id : String) (rule : Rule α) : Request α Unit
  | postRule (ruleset : String) (rule : Rule α) : Request α Unit

/-- A request without its body. -/
structure Call where
  method : String
  path : String
  deriving DecidableEq, Repr

/-- The method and the path of a request. -/
def Request.call : Request α ρ → Call
  | .zone => ⟨"GET", ""⟩
  | .http3 => ⟨"GET", "/settings/http3"⟩
  | .entrypoint phase => ⟨"GET", "/rulesets/phases/" ++ phase ++ "/entrypoint"⟩
  | .patchHttp3 _ => ⟨"PATCH", "/settings/http3"⟩
  | .postRuleset _ _ => ⟨"POST", "/rulesets"⟩
  | .patchRule ruleset id _ => ⟨"PATCH", "/rulesets/" ++ ruleset ++ "/rules/" ++ id⟩
  | .postRule ruleset _ => ⟨"POST", "/rulesets/" ++ ruleset ++ "/rules"⟩

/-- A response; `errors` are the codes in its list of errors. -/
structure Response (ρ : Type) where
  status : ℕ
  success : Bool
  errors : Option (List ℕ)
  result : Option ρ
  deriving DecidableEq, Repr

/-- `response.ok` -/
def Response.ok (r : Response ρ) : Bool := 200 ≤ r.status && r.status ≤ 299

/-- The zone says that a phase has no entry point. -/
def Response.absent (c : Call) (r : Response ρ) : Bool :=
  c.method == "GET" && r.status == 404 && "/entrypoint".toList.isSuffixOf c.path.toList &&
    (r.errors.getD []).any (· == 10003)

/-- A response without a result. -/
def Response.lacking (r : Response Empty) : Response ρ := ⟨r.status, r.success, r.errors, none⟩

/-- The setup goes on neither with a result nor without one. -/
def Response.refuses (c : Call) (r : Response ρ) : Bool := !r.absent c && !(r.ok && r.success)

/-- What the zone does about a request, and how it responds. -/
def Zone.serve (issuer : Issuer) (z : Zone α) : Request α ρ → Response ρ × Zone α
  | .zone => (⟨200, true, none, some ⟨z.name, z.status⟩⟩, z)
  | .http3 => (⟨200, true, none, some z.http3⟩, z)
  | .entrypoint phase =>
    match z.rulesets phase with
    | some existing => (⟨200, true, none, some existing⟩, z)
    | none => (⟨404, false, some [10003], none⟩, z)
  | .patchHttp3 value => (⟨200, true, none, some ()⟩, z.setHttp3 value)
  | .postRuleset phase rule => (⟨200, true, none, some ()⟩, z.postRuleset issuer phase rule)
  | .patchRule ruleset id rule => (⟨200, true, none, some ()⟩, z.patchRule ruleset id rule)
  | .postRule ruleset rule => (⟨200, true, none, some ()⟩, z.postRule issuer ruleset rule)

/-! ## Where the setup runs -/

/-- What becomes of a request: the zone's response arrives; or another response or none, and
the zone may have acted on the request all the same. -/
inductive Fate where
  | served
  | broken (applied : Bool) (answer : Option (Response Empty))
  deriving DecidableEq

/-- What becomes of each request, by the number of requests before it. -/
structure Network where
  fate : ℕ → Call → Fate
  /-- Nobody but the zone reports a success, or a phase without an entry point. -/
  refuses : ∀ n c applied r, fate n c = .broken applied (some r) → r.refuses c = true

/-- Every response arrives. -/
def Network.up : Network where
  fate _ _ := .served
  refuses _ _ _ _ h := nomatch h

/-- What a run of the setup depends on; `disk` is the code of the error with which files
cannot be written. -/
structure Env where
  issuer : Issuer
  network : Network
  disk : Option String

/-- The file with what was found before the first change. -/
structure Snapshot (α : Type) where
  zoneId : String
  http3 : Option String
  phases : List (Phase α)
  deriving DecidableEq, Repr

/-- The zone, the file, and what a run has requested and printed. -/
structure World (α : Type) where
  zone : Zone α
  snapshot : Option (Snapshot α)
  calls : List Call
  printed : List String

/-- What is thrown. -/
inductive Fault where
  | tokenRequired
  | cloudflare (call : Call) (status : ℕ) (codes : List ℕ)
  | notSubdomain
  | duplicate (phase : String)
  /-- No response, or one that is not JSON, from `fetch` or `AbortSignal`. -/
  | unanswered
  /-- A property of `null` is read. -/
  | nullResult
  | disk (code : String)
  deriving DecidableEq, Repr

/-- The texts of the errors that are the setup's own. -/
def Fault.message : Fault → Option String
  | .tokenRequired => some "CLOUDFLARE_API_TOKEN required (never pass a token as a CLI argument)"
  | .cloudflare call status codes =>
    some ("Cloudflare " ++ call.method ++ " " ++ call.path ++ ": HTTP " ++ toString status ++
      "; codes " ++ ",".intercalate (codes.map toString))
  | .notSubdomain => some "Observer hostname must be a subdomain of this active zone"
  | .duplicate phase => some ("Duplicate observer rules in " ++ phase)
  | .unanswered | .nullResult | .disk _ => none

/-- A program that works on a zone. -/
abbrev Program (α ρ : Type) : Type := EStateM Fault (World α) ρ

/-! ## The setup -/

/-- `request` -/
def fetch (env : Env) (r : Request α ρ) : Program α (Option (Response ρ)) := fun w =>
  let (response, zone) := w.zone.serve env.issuer r
  let calls := w.calls ++ [r.call]
  match env.network.fate w.calls.length r.call with
  | .served => .ok (some response) { w with zone, calls }
  | .broken applied answer =>
    .ok (answer.map Response.lacking) { w with zone := if applied then zone else w.zone, calls }

/-- What `api` makes of a response. -/
def taken (c : Call) (response : Response ρ) : Program α (Option ρ) :=
  if response.absent c then
    return none
  else if !response.ok || !response.success then
    throw (.cloudflare c response.status (response.errors.getD []))
  else
    return response.result

/-- `api` -/
def api (env : Env) (r : Request α ρ) : Program α (Option ρ) := do
  match ← fetch env r with
  | none => throw .unanswered
  | some response => taken r.call response

/-- Reads the properties of a result, which must not be `null`. -/
def nonNull : Option ρ → Program α ρ
  | some x => pure x
  | none => throw .nullResult

/-- `console.log` -/
def print (line : String) : Program α PUnit :=
  modify fun w => { w with printed := w.printed ++ [line] }

/-- Reads the phases of the planned rules, one after the other. -/
def readPhases (env : Env) : List (Entry α) → Program α (List (Phase α))
  | [] => pure []
  | entry :: rest => do
    let existing ← api env (.entrypoint entry.phase)
    let found := (listed existing).filter entry.matches
    if 1 < found.length then
      throw (.duplicate entry.phase)
    else
      let phases ← readPhases env rest
      return { entry with existing, matched := found.head? } :: phases

/-- Reads all current state before making changes. -/
def readState (env : Env) (plan : Plan α) : Program α (Option String × List (Phase α)) := do
  let zone ← nonNull (← api env .zone)
  if zone.status ≠ "active" ∨ ¬ ("." ++ zone.name).toList <:+ plan.hostname.toList then
    throw .notSubdomain
  else
    let http3 ← api env .http3
    let phases ← readPhases env plan.rules
    return (http3, phases)

/-- `writeFile` with the flag `wx`, which never writes over a file. -/
def writeFile (env : Env) (snapshot : Snapshot α) : Program α PUnit := fun w =>
  match env.disk with
  | some code => .error (.disk code) w
  | none =>
    if w.snapshot.isSome then .error (.disk "EEXIST") w
    else .ok ⟨⟩ { w with snapshot := some snapshot }

/-- Takes the snapshot; the first one is kept. -/
def takeSnapshot (env : Env) (snapshot : Snapshot α) : Program α PUnit :=
  tryCatch (writeFile env snapshot) fun error =>
    if error ≠ .disk "EEXIST" then throw error else pure ⟨⟩

/-- Brings the rule of one phase up to date. -/
def configurePhase (env : Env) (p : Phase α) : Program α PUnit := do
  match p.existing with
  | none =>
    let _ ← api env (.postRuleset p.phase p.rule)
  | some existing =>
    match p.matched with
    | some matched =>
      let _ ← api env (.patchRule existing.id matched.id p.rule)
    | none =>
      let _ ← api env (.postRule existing.id p.rule)
  print ("Configured " ++ p.phase)

/-- `if (http3.value !== "on")` -/
def enableHttp3 (env : Env) (plan : Plan α) (http3 : Option String) : Program α PUnit := do
  let value ← nonNull http3
  if value ≠ "on" then
    let _ ← api env (.patchHttp3 plan.http3)

/-- `configureZone` -/
def configureZone (env : Env) (plan : Plan α) (token : Option String) : Program α PUnit := do
  if token.getD "" = "" then
    throw .tokenRequired
  else
    let (http3, phases) ← readState env plan
    takeSnapshot env ⟨plan.zoneId, http3, phases⟩
    enableHttp3 env plan http3
    phases.forM (configurePhase env)
    print "Zone configured. The actual H3 response and source port still need a live probe."

end IrohExperiment.Setup
