import SimpleL1.Wire.NormalForm
import SimpleL1.Js.Arithmetic
import SimpleL1.Node.Platform
import Mathlib.Data.List.Infix

/-!
# The verifier of wire proofs

`verifyProof` checks a proof against a request, a state and the verifier's context, and
remembers the nonces it has accepted. What the checks take from outside is a parameter.
-/

namespace SimpleL1.Wire

open SimpleL1.Js

/-- SHA-256 as hexadecimal text, `Date.parse` in milliseconds, and whether a value has a
property from its prototype. -/
structure Host extends Nfc where
  sha256Hex : List Char → String
  parseDate : String → Number
  inherits : Json → String → Bool

inductive FailureCode where
  | BAD_CANONICALIZATION
  | BAD_SIGNATURE
  | UNKNOWN_RULESET
  | UNKNOWN_CANONICALIZATION
  | STATE_ROOT_MISMATCH
  | DEVICE_NOT_BOUND
  | DEVICE_REVOKED
  | CAPABILITY_NOT_FOUND
  | POLICY_DENIED
  | REQUEST_MISMATCH
  | NONCE_REPLAY
  | PROOF_EXPIRED
  | STATE_STALE
  | EPOCH_FORKED
  deriving DecidableEq, Repr

inductive Result where
  | reject (code : FailureCode) (policy_trace : List String)
  | accept (identity key state_root capability_id : Option Json) (policy_trace : List String)

/-- Why a check does not go on: it rejects, or an exception leaves the call. -/
inductive Stop where
  | reject (code : FailureCode) (trace : List String)
  | thrown (e : Error)

abbrev Check := Except Stop

def fromJs {α : Type} : JsM α → Check α
  | .ok a => .ok a
  | .error e => .error (.thrown e)

/-- `if (!c) return reject(code, trace)`. -/
def rejectUnless (c : Bool) (code : FailureCode) (trace : List String) : Check Unit :=
  if c then .ok () else .error (.reject code trace)

/-! ## Reads -/

/-- `a?.k`. -/
def field (a : Option Json) (k : String) : Option Json := a.bind (·.prop k)

/-- What is found under a computed key. -/
inductive Found where
  | absent
  | own (v : Json)
  | inherited

namespace Found

def truthy : Found → Bool
  | absent => false
  | own v => v.truthy
  | inherited => true

/-- A property of what is found; what is inherited has none of those that are read. -/
def get : Found → String → Option Json
  | own v, k => v.prop k
  | _, _ => none

end Found

/-- The characters of a string by index; half of a surrogate pair has no text of its own. -/
def charAt (s : String) (k : String) : Option Json :=
  let units := s.toList.flatMap utf16
  (List.range units.length).findSome? fun i =>
    if Number.toString (.int (i : Nat)) = k then some (.str (String.singleton (Char.ofNat (units[i]?.getD 0))))
    else none

def ownProp : Json → String → Option Json
  | .obj fs, k => Fields.get fs k
  | .arr xs, k =>
    if k = "length" then some (.num (.int xs.length)) else Fields.get (Json.arr xs).spread k
  | .str s, k =>
    if k = "length" then some (.num (.int (s.toList.flatMap utf16).length)) else charAt s k
  | _, _ => none

variable (h : Host)

/-- `a?.[key]`. -/
def lookup (a key : Option Json) : JsM Found :=
  match a with
  | none | some .null => .ok .absent
  | some v => do
    let name ← toStr key
    match ownProp v name with
    | some w => .ok (.own w)
    | none => .ok (if h.inherits v name then .inherited else .absent)

def sameValueZero (a b : Option Json) : Bool :=
  strictEq a b || match a, b with
    | some (.num .nan), some (.num .nan) => true
    | _, _ => false

/-- `a?.includes(x)`. -/
def includes (a x : Option Json) : JsM Bool :=
  match a with
  | none | some .null => .ok false
  | some (.arr xs) => .ok (xs.any fun y => sameValueZero (some y) x)
  | some (.str s) => do
    let text ← toStr x
    .ok (decide (text.toList <:+: s.toList))
  | _ => .error (.typeError "includes is not a function")

/-! ## Hashes -/

def sha256Tagged (input : List Char) : String := "sha256:" ++ h.sha256Hex input

def objectHash (value : Json) : JsM String := do
  let text ← canonicalJson h.toNfc value
  .ok (sha256Tagged h text)

/-- The copy has no `signature`; `__proto__` is no own property of it either. -/
def withoutSignature : Json → JsM Json
  | .obj fs => .ok (.obj (fs.filter fun p => p.1 ≠ "signature" ∧ p.1 ≠ "__proto__"))
  | _ => .error (.error "BAD_CANONICALIZATION: signed object root must be a JSON object")

def fixtureSignatureIsValid (proof : Json) : JsM Bool := do
  let unsigned ← withoutSignature proof
  let hash ← objectHash h unsigned
  .ok (strictEq (proof.prop "signature") (some (.str ("fixture:" ++ hash))))

def clientId (request : Json) : Option Json :=
  Js.or (field (request.prop "context") "client_id") (some (.str ""))

/-- The fields of the nonce key before the join. -/
def nonceFields (proof request : Json) : List (Option Json) :=
  [proof.prop "identity", proof.prop "key", clientId request, proof.prop "capability_id",
    proof.prop "state_root", proof.prop "request_hash", proof.prop "nonce"]

def buildNonceKey (proof request : Json) : JsM String := do
  let texts ← (nonceFields proof request).mapM joined
  .ok (String.intercalate "|" texts)

/-! ## Checks -/

def parseTime (value : Option Json) : JsM (Option Number) := do
  let timestamp := h.parseDate (← toStr value)
  .ok (if timestamp.isFinite then some timestamp else none)

/-- `(v ?? 0) * 1000`. -/
def milliseconds (v : Option Json) : JsM Number := do
  let seconds ← toNumber (nullish v (some (.num (.int 0))))
  .ok seconds.thousandfold

def requestMatchesCapability (request : Json) (capability : Found) : Bool :=
  let context := Js.or (request.prop "context") (some (.obj []))
  strictEq (capability.get "client_id") (field context "client_id") &&
    strictEq (capability.get "request_host") (field context "request_host") &&
    strictEq (capability.get "intent_type") (request.prop "intent_type") &&
    (!Js.truthy (capability.get "resource") ||
      strictEq (capability.get "resource") (request.prop "resource"))

/-- The trace of a policy that holds; `none` if it does not. -/
def evaluatePolicy (policy capability : Found) (request : Json) : JsM (Option (List String)) := do
  if !policy.truthy || !strictEq (policy.get "state") (some (.str "active")) then return none
  if strictEq (policy.get "operator") (some (.str "CAP")) then
    if !strictEq (policy.get "capability_id") (capability.get "id") then return none
    let id ← toStr (capability.get "id")
    return some ["CAP(" ++ id ++ ")"]
  if strictEq (policy.get "operator") (some (.str "BOUND")) then
    if !strictEq (policy.get "capability_id") (capability.get "id") then return none
    let constraints := Js.or (policy.get "constraints") (some (.obj []))
    let request_host := field constraints "request_host"
    if Js.truthy request_host &&
        !strictEq request_host (field (request.prop "context") "request_host") then return none
    let intent_type := field constraints "intent_type"
    if Js.truthy intent_type && !strictEq intent_type (request.prop "intent_type") then return none
    let id ← toStr (capability.get "id")
    return some ["CAP(" ++ id ++ ")", "BOUND(context)"]
  return none

structure Input where
  proof : Option Json
  request : Option Json
  state : Option Json
  verifier_context : Option Json

/-- The proof and the request, if both can be canonicalized. -/
def canonicalParts (input : Input) : Check (Json × Json) :=
  let proof := input.proof.getD .null
  let request := input.request.getD .null
  match canonicalJson h.toNfc proof, canonicalJson h.toNfc request with
  | .ok _, .ok _ => .ok (proof, request)
  | _, _ => .error (.reject .BAD_CANONICALIZATION [])

def requiredFields : List String :=
  ["identity", "key", "state_root", "ruleset_hash", "canonicalization_hash"]

/-- From the type of the proof to its signature. -/
def checkSignature (proof : Json) (context : Option Json) : Check Unit := do
  rejectUnless (strictEq (proof.prop "type") (some (.str "sl1.proof.v1"))) .BAD_CANONICALIZATION []
  rejectUnless (requiredFields.all fun k => Js.truthy (proof.prop k)) .BAD_CANONICALIZATION []
  let ruleset ← fromJs (includes (field context "trusted_rulesets") (proof.prop "ruleset_hash"))
  rejectUnless ruleset .UNKNOWN_RULESET []
  let canonicalization ← fromJs
    (includes (field context "trusted_canonicalizations") (proof.prop "canonicalization_hash"))
  rejectUnless canonicalization .UNKNOWN_CANONICALIZATION []
  let valid ← fromJs (fixtureSignatureIsValid h proof)
  rejectUnless valid .BAD_SIGNATURE ["RULESET_OK"]

/-- From the state's root to the capability, which is returned. -/
def checkState (proof request : Json) (state : Option Json) : Check Found := do
  let trace := ["RULESET_OK", "SIGNATURE_OK"]
  let root ← fromJs (Node.member state "root")
  rejectUnless (strictEq root (proof.prop "state_root")) .STATE_ROOT_MISMATCH trace
  rejectUnless (!strictEq (field state "forked") (some (.bool true))) .EPOCH_FORKED trace
  let trace := trace ++ ["STATE_ROOT_OK"]
  let device ← fromJs (lookup h (field state "devices") (proof.prop "key"))
  rejectUnless (device.truthy && strictEq (device.get "identity") (proof.prop "identity") &&
    strictEq (device.get "state") (some (.str "active"))) .DEVICE_NOT_BOUND trace
  let revocation ← fromJs (lookup h (field state "revocations") (proof.prop "key"))
  rejectUnless (!revocation.truthy) .DEVICE_REVOKED trace
  let trace := trace ++ ["DEVICE_OK"]
  let capability ← fromJs (lookup h (field state "capabilities") (proof.prop "capability_id"))
  rejectUnless (capability.truthy && strictEq (capability.get "state") (some (.str "active")))
    .CAPABILITY_NOT_FOUND trace
  rejectUnless (strictEq (capability.get "subject") (proof.prop "key")) .POLICY_DENIED trace
  rejectUnless (requestMatchesCapability request capability) .REQUEST_MISMATCH trace
  .ok capability

/-- The binding of the proof to the request, and the policy; the trace so far is returned. -/
def checkRequest (proof request : Json) (state : Option Json) (capability : Found) :
    Check (List String) := do
  let trace := ["RULESET_OK", "SIGNATURE_OK", "STATE_ROOT_OK", "DEVICE_OK", "CAPABILITY_OK"]
  let requestHash ← fromJs (objectHash h request)
  rejectUnless (strictEq (proof.prop "request_hash") (some (.str requestHash))) .REQUEST_MISMATCH trace
  let trace := trace ++ ["REQUEST_OK"]
  let policy ← fromJs (lookup h (field state "policies") (capability.get "policy_id"))
  match ← fromJs (evaluatePolicy policy capability request) with
  | some policyTrace => .ok (trace ++ policyTrace)
  | none => .error (.reject .POLICY_DENIED trace)

/-- The lifetime of the proof and the freshness of the state. -/
def checkTime (proof : Json) (state context : Option Json) (trace : List String) :
    Check (List String) := do
  let now ← fromJs (parseTime h (field context "now"))
  let issuedAt ← fromJs (parseTime h (proof.prop "issued_at"))
  let expiresAt ← fromJs (parseTime h (proof.prop "expires_at"))
  let skewMs ← fromJs (milliseconds (field context "clock_skew_seconds"))
  match now, issuedAt, expiresAt with
  | some now, some issuedAt, some expiresAt =>
    rejectUnless (!(now.add skewMs).lt issuedAt && !expiresAt.lt (now.add skewMs.neg))
      .PROOF_EXPIRED trace
    let ttl ← fromJs (milliseconds (field context "max_proof_ttl_seconds"))
    rejectUnless (!ttl.lt (expiresAt.add issuedAt.neg)) .PROOF_EXPIRED trace
    let trace := trace ++ ["TIME_OK"]
    rejectUnless (!(strictEq (field context "freshness_mode") (some (.str "strict")) &&
      !strictEq (field context "latest_state_root") (proof.prop "state_root"))) .STATE_STALE trace
    if strictEq (field context "freshness_mode") (some (.str "soft")) then
      match ← fromJs (parseTime h (field state "observed_at")) with
      | none => .error (.reject .STATE_STALE trace)
      | some observedAt =>
        let staleness ← fromJs (milliseconds (field context "max_state_staleness_seconds"))
        rejectUnless (!staleness.lt (now.add observedAt.neg)) .STATE_STALE trace
        .ok (trace ++ ["FRESHNESS_OK"])
    else .ok (trace ++ ["FRESHNESS_OK"])
  | _, _, _ => .error (.reject .PROOF_EXPIRED trace)

/-- What is known of a call when only its nonce is left to check. -/
structure Passed where
  proof : Json
  nonceKey : String
  trace : List String

def checks (input : Input) : Check Passed := do
  let (proof, request) ← canonicalParts h input
  checkSignature h proof input.verifier_context
  let capability ← checkState h proof request input.state
  let trace ← checkRequest h proof request input.state capability
  let trace ← checkTime h proof input.state input.verifier_context trace
  let nonceKey ← fromJs (buildNonceKey proof request)
  .ok { proof, nonceKey, trace }

def accept (proof : Json) (trace : List String) : Result :=
  .accept (proof.prop "identity") (proof.prop "key") (proof.prop "state_root")
    (proof.prop "capability_id") trace

/-- The result, or the exception, and the nonce store after the call. -/
def verifyProof (input : Input) (nonceStore : List String) : JsM Result × List String :=
  match checks h input with
  | .error (.reject code trace) => (.ok (.reject code trace), nonceStore)
  | .error (.thrown e) => (.error e, nonceStore)
  | .ok passed =>
    if passed.nonceKey ∈ nonceStore then (.ok (.reject .NONCE_REPLAY passed.trace), nonceStore)
    else (.ok (accept passed.proof (passed.trace ++ ["NONCE_OK"])), nonceStore ++ [passed.nonceKey])

end SimpleL1.Wire
