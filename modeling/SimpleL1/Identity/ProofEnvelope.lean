import SimpleL1.Js.Stable
import SimpleL1.Node.Routes
import SimpleL1.Subject.EmailClaims

/-!
# Identity proof envelopes

After an exchange the node hands the application an envelope: who was identified, for which client
and which intent, until when, and the claims that were disclosed. It is authenticated by a keyed
digest of its canonical text, under the secret that the application trusts the issuer with. What
the device did to authenticate must not be in it: the verifier looks for the names of credential
fields at any depth.
-/

namespace SimpleL1.Identity

open SimpleL1.Js
open Node (bodyField stableStringify)

def IDENTITY_PROOF_ENVELOPE_VERSION : String := "simple-l1.identity_proof_envelope.v1"

def IDENTITY_PROOF_TYPE : String := "identity_proof"

structure Issuer where
  issuer_id : String
  issuer_url : String
  key_id : String

def Issuer.value (issuer : Issuer) : Json :=
  .obj [("issuer_id", .str issuer.issuer_id), ("issuer_url", .str issuer.issuer_url), ("key_id", .str issuer.key_id)]

def DEFAULT_ISSUER : Issuer := ⟨"simplel1.local", "https://simplel1.local", "sl1-connect-hmac-v1"⟩

def forbiddenCredentialFields : List String :=
  ["credential_id", "credentialId", "authenticator_data", "authenticatorData", "client_data_json",
    "clientDataJSON", "webauthn_sign_count", "signCount", "attestation_object", "attestationObject",
    "transports", "raw_assertion_signature", "rawAssertionSignature", "assertion", "authenticator"]

/-! ## Signing -/

/-- `const { signature, ...payload } = proof || {}` -/
def signingPayload (proof : Option Json) : Json :=
  .obj ((Node.spread (or proof (some (.obj [])))).filter fun f => f.1 ∉ ["signature"])

def secretText (secret : Option Json) : JsM String :=
  toStr (or secret (some (.str "sl1-connect-development-secret")))

/-- `hmac` is the keyed digest of a text, as `digest('base64url')` has it. -/
def signIdentityProofEnvelope (hmac : String → String → String) (envelope secret : Option Json) : JsM String := do
  return hmac (← secretText secret) (stableStringify (signingPayload envelope))

/-! ## Intents -/

structure Intent where
  type : String
  resource : Option String
  nonce : Option String
  deriving DecidableEq, Repr

def Intent.value (intent : Intent) : Json :=
  .obj [("type", .str intent.type), ("resource", intent.resource.elim .null .str),
    ("nonce", intent.nonce.elim .null .str)]

/-- `v === undefined || v === '' ? null : String(v)` -/
def textOrNull (v : Option Json) : JsM (Option String) :=
  match v with
  | none | some (.str "") => return none
  | some v => some <$> v.toStr

/-- `typeof intent === 'string' && intent.trim()` -/
def intentName : Option Json → String
  | some (.str s) => trim s
  | _ => ""

/-- `intent && typeof intent === 'object' ? intent : {}` -/
def intentFields (intent : Option Json) : Json :=
  match intent with
  | some v => if v.isObject then v else .obj []
  | none => .obj []

/-- The type, of the mode where the intent has none. -/
def intentType (input : Json) (mode : Option Json) : JsM String :=
  if truthy (input.prop "type") then trim <$> toStr (input.prop "type")
  else do return trim ("sl1e." ++ (← toStr (or mode (some (.str "login")))))

def normalizeIntent (intent mode : Option Json) : JsM Intent :=
  if intentName intent ≠ "" then return ⟨intentName intent, none, none⟩
  else do
    let input := intentFields intent
    let type ← intentType input mode
    let resource ← textOrNull (input.prop "resource")
    let nonce ← textOrNull (input.prop "nonce")
    return ⟨type, resource, nonce⟩

/-! ## Claims -/

/-- `/^sha256:[a-f0-9]{64}$/` -/
def isEmailHash (s : String) : Bool :=
  let digest := s.toList.drop 7
  s.toList.take 7 = "sha256:".toList && digest.length = 64 &&
    digest.all fun c => (decide ('a' ≤ c) && decide (c ≤ 'f')) || (decide ('0' ≤ c) && decide (c ≤ '9'))

def reason (c : Bool) (code : String) : List String := if c then [code] else []

section
variable (p : Node.Platform)

/-- The reasons against a disclosure. -/
def validateEmailDisclosure (disclosure : Json) : JsM (List String) := do
  let email := disclosure.prop "email"
  let emailHash := disclosure.prop "email_hash"
  let present (v : Option Json) : Bool := v.any fun v => !(strictEq (some v) (some .null))
  let invalid ← if present email then Option.isNone <$> Subject.normalizeEmail p email else pure false
  let hashInvalid ← if present emailHash then (fun s => !(isEmailHash s)) <$> toStr emailHash else pure false
  let mismatch ← if truthy email && truthy emailHash then do
      let expected ← Subject.hashEmail p email
      pure (!(strictEq (some (expected.elim .null .str)) emailHash))
    else pure false
  let elevated := strictEq (disclosure.prop "is_controller") (some (.bool true)) ||
    strictEq (disclosure.prop "is_recovery_path") (some (.bool true))
  return (reason invalid "EMAIL_INVALID" ++ reason hashInvalid "EMAIL_HASH_INVALID" ++
    reason mismatch "EMAIL_HASH_MISMATCH" ++ reason elevated "EMAIL_AUTHORITY_ELEVATION_FORBIDDEN" ++
    reason (strictEq (disclosure.prop "is_subject_key") (some (.bool true)))
      "EMAIL_AS_SUBJECT_KEY_FORBIDDEN").eraseDups

structure ClaimsInput where
  claimAlias : Option Json := some .null
  displayAlias : Option Json := some .null
  display_alias : Option Json := some .null
  email : Option Json := some .null
  email_hash : Option Json := some .null
  emailHash : Option Json := some .null
  scope : Option Json := some .null

def claimsOf (claim_alias display_alias : Json) (email email_hash : Option String) : Json :=
  .obj [("alias", claim_alias), ("display_alias", display_alias), ("email", email.elim .null .str),
    ("email_hash", email_hash.elim .null .str)]

/-- The claims, or the reasons they are rejected for. -/
def buildIdentityProofClaims (input : ClaimsInput) : JsM (Except (List String) Json) := do
  let emailClaims ← Subject.buildConsentedEmailClaims p input.email input.scope
    (nullish input.emailHash input.email_hash)
  match emailClaims.rejected with
  | some reason_codes => return .error reason_codes
  | none =>
    let claims := claimsOf (input.claimAlias.getD .null)
      ((nullish (nullish input.displayAlias input.display_alias) none).getD .null)
      emailClaims.email emailClaims.email_hash
    let reason_codes ← validateEmailDisclosure p claims
    return if reason_codes.isEmpty then .ok claims else .error reason_codes

/-! ## Creating -/

structure EnvelopeInput where
  proof : Option Json := none
  issuer : Option Json := none
  subject : Option Json := none
  clientId : Option Json := none
  redirectUri : Option Json := none
  intent : Option Json := none
  state : Option Json := none
  nonce : Option Json := none
  issuedAt : Option Json := none
  expiresAt : Option Json := none
  assuranceLevel : Option Json := none
  claims : Option Json := none
  scope : Option Json := none
  secret : Option Json := none
  /-- `Date.now()`, as the two dates read it. -/
  issuedNow : Int
  expiresNow : Int

namespace EnvelopeInput

variable (input : EnvelopeInput)

/-- `proof?.k` -/
def proved (k : String) : Option Json := bodyField input.proof k

/-- The intent as it was asked for. -/
def asked : Option Json := or input.intent (input.proved "intent")

def mode : Option Json := or (input.proved "mode") (some (.str "login"))

def keyAddress : Json :=
  (nullish (nullish (nullish (bodyField input.subject "key_l1_address") (input.proved "controller_l1_address"))
    (input.proved "keyAddress")) none).getD .null

def claimAlias : Json := (nullish (nullish (bodyField input.claims "alias") (input.proved "alias")) none).getD .null

def displayAlias : Json :=
  (nullish (nullish (nullish (bodyField input.claims "display_alias") (input.proved "display_alias"))
    (input.proved "displayAlias")) none).getD .null

def claimsInput : ClaimsInput :=
  { claimAlias := some input.claimAlias
    displayAlias := some input.displayAlias
    email := nullish (nullish (bodyField input.claims "email") (input.proved "email")) (some .null)
    scope := nullish (nullish (nullish input.scope (bodyField input.claims "scope")) (input.proved "scope"))
      (some .null) }

/-- The time value the envelope expires at. -/
def expires : JsM Number :=
  Node.newDate p (or (or (or input.expiresAt (input.proved "expires_at")) (input.proved "expiresAt"))
    (some (.num (.int (input.expiresNow + 10 * 60 * 1000)))))

end EnvelopeInput

def normalizedIssuer (issuer : Option Json) : JsM Issuer := do
  let issuer_id ← toStr (or (bodyField issuer "issuer_id") (some (.str DEFAULT_ISSUER.issuer_id)))
  let issuer_url ← toStr (or (bodyField issuer "issuer_url") (some (.str DEFAULT_ISSUER.issuer_url)))
  let key_id ← toStr (or (bodyField issuer "key_id") (some (.str DEFAULT_ISSUER.key_id)))
  return ⟨issuer_id, issuer_url, key_id⟩

def identityProofEnvelopeId (payload : Json) : String :=
  "ipe_" ++ Node.sliceTo 40 (p.sha256 (stableStringify payload))

def signatureOf (key_id value : String) : Json :=
  .obj [("algorithm", .str "hmac-sha256"), ("key_id", .str key_id), ("value", .str value)]

/-- The fields the id of the envelope is taken of. -/
def envelopePayload (input : EnvelopeInput) (issuer : Issuer) : JsM Fields := do
  let entity_l1_address ← toStr (or (or (or (bodyField input.subject "entity_l1_address")
    (input.proved "entity_l1_address")) (input.proved "entityAddress")) (some (.str "")))
  let intent ← normalizeIntent input.asked input.mode
  let claims ← match ← buildIdentityProofClaims p input.claimsInput with
    | .ok claims => pure claims
    | .error reason_codes =>
      throw (.error ("IdentityProof claims rejected: " ++ String.intercalate "," reason_codes))
  let client_id ← toStr (or (or (or input.clientId (input.proved "audience")) (input.proved "clientId"))
    (some (.str "")))
  let redirect_uri ← toStr (or (or (or input.redirectUri (input.proved "redirect_uri"))
    (input.proved "redirectUri")) (some (.str "")))
  let state ← toStr (nullish (nullish input.state (input.proved "state")) (some (.str "")))
  let nonce ← toStr (nullish (nullish input.nonce (input.proved "nonce")) (some (.str "")))
  let issued_at ← Node.toISOString p (← Node.newDate p (or (or (or input.issuedAt (input.proved "issued_at"))
    (input.proved "issuedAt")) (some (.num (.int input.issuedNow)))))
  let expires_at ← Node.toISOString p (← input.expires p)
  let assurance_level ← toStr (or input.assuranceLevel (some (.str "AL2")))
  return [("schema_version", .str IDENTITY_PROOF_ENVELOPE_VERSION), ("proof_type", .str IDENTITY_PROOF_TYPE),
    ("issuer", issuer.value),
    ("subject", .obj [("entity_l1_address", .str entity_l1_address), ("key_l1_address", input.keyAddress)]),
    ("client_id", .str client_id), ("redirect_uri", .str redirect_uri), ("intent", intent.value),
    ("state", .str state), ("nonce", .str nonce), ("issued_at", .str issued_at), ("expires_at", .str expires_at),
    ("assurance_level", .str assurance_level), ("claims", claims)]

def createIdentityProofEnvelope (hmac : String → String → String) (input : EnvelopeInput) : JsM Fields := do
  let issuer ← normalizedIssuer input.issuer
  let payload ← envelopePayload p input issuer
  let envelope := payload ++ [("envelope_id", .str (identityProofEnvelopeId p (.obj payload)))]
  let value ← signIdentityProofEnvelope hmac
    (some (.obj (envelope ++ [("signature", signatureOf issuer.key_id "")]))) input.secret
  return envelope ++ [("signature", signatureOf issuer.key_id value)]

end

/-! ## Verifying -/

mutual

/-- The paths of the credential fields under `parts`. -/
def leaks : List String → Json → List String
  | parts, .arr xs => leaksItems parts 0 xs
  | parts, .obj fs => leaksFields parts fs
  | _, _ => []

def leaksItems : List String → Nat → List Json → List String
  | _, _, [] => []
  | parts, i, x :: xs => leaks (parts ++ [Number.toString (.int i)]) x ++ leaksItems parts (i + 1) xs

def leaksFields : List String → List (String × Json) → List String
  | _, [] => []
  | parts, (k, child) :: fs =>
    reason (decide (k ∈ forbiddenCredentialFields)) (String.intercalate "." (parts ++ [k])) ++
      leaks (parts ++ [k]) child ++ leaksFields parts fs

end

structure LeakReport where
  ok : Bool
  reason_codes : List String
  paths : List String

def assertNoCredentialLeak (value : Json) : LeakReport :=
  let paths := leaks [] value
  ⟨paths.isEmpty, reason (!paths.isEmpty) "NO_RAW_CREDENTIAL_LEAK", paths⟩

/-- `trusted && String(trusted) !== String(named)` -/
def otherKey (trusted named : Option Json) : JsM Bool :=
  if truthy trusted then do
    let trusted ← toStr trusted
    let named ← toStr named
    return trusted != named
  else return false

/-- The secret the issuer is trusted with; what a name of `Object.prototype` finds has none. -/
def trustedIssuerSecret (envelope : Json) (issuerTrust : Fields) : JsM (Option Json) := do
  let issuerId ← toStr (bodyField (envelope.prop "issuer") "issuer_id")
  let keyId := or (bodyField (envelope.prop "signature") "key_id") (bodyField (envelope.prop "issuer") "key_id")
  match (issuerTrust.get issuerId).filter Json.truthy with
  | none => return none
  | some issuer =>
    let other ← otherKey (issuer.prop "key_id") keyId
    return if other then none else (issuer.prop "secret").filter Json.truthy

def intentMatches (actual expected : Option Json) : JsM Bool :=
  if truthy expected then do
    let actual ← normalizeIntent actual (some (.str "login"))
    let expected ← normalizeIntent expected (some (.str "login"))
    return stableStringify actual.value = stableStringify expected.value
  else return true

structure VerifyOptions where
  validateEnvelope : Option (Json → Bool) := none
  expectedClientId : Option Json := none
  expectedRedirectUri : Option Json := none
  expectedIntent : Option Json := none
  /-- The time value of `now`. -/
  now : Number
  issuerTrust : Fields := []

structure ProofVerdict where
  ok : Bool
  reason_codes : List String
  envelope_id : Json
  subject : Json

/-- `expected && actual !== String(expected)` -/
def mismatches (actual expected : Option Json) : JsM Bool :=
  if truthy expected then do
    let text ← toStr expected
    return !(strictEq actual (some (.str text)))
  else return false

def signatureReasons (hmac : String → String → String) (envelope : Json) : Option Json → JsM (List String)
  | none => return ["UNTRUSTED_ISSUER"]
  | some secret => do
    let expectedSignature ← signIdentityProofEnvelope hmac (some envelope) (some secret)
    let value := bodyField (envelope.prop "signature") "value"
    return reason (!(truthy value) || !(strictEq value (some (.str expectedSignature)))) "PROOF_VERIFICATION_FAILED"

def verifyIdentityProofEnvelope (p : Node.Platform) (hmac : String → String → String) (envelope : Json)
    (options : VerifyOptions) : JsM ProofVerdict := do
  let boundary := assertNoCredentialLeak envelope
  let versionInvalid := !(strictEq (envelope.prop "schema_version") (some (.str IDENTITY_PROOF_ENVELOPE_VERSION)))
  let schemaInvalid := !(options.validateEnvelope.any fun validate => validate envelope)
  let clientMismatch ← mismatches (envelope.prop "client_id") options.expectedClientId
  let redirectMismatch ← mismatches (envelope.prop "redirect_uri") options.expectedRedirectUri
  let intentMatch ← intentMatches (envelope.prop "intent") options.expectedIntent
  let expiresAtMs := p.parseDate (← toStr (or (envelope.prop "expires_at") (some (.str ""))))
  let expired := !expiresAtMs.truthy || Number.le expiresAtMs (Node.timeClip options.now)
  let secret ← trustedIssuerSecret envelope options.issuerTrust
  let secretCodes ← signatureReasons hmac envelope secret
  let reasonCodes := boundary.reason_codes ++ reason versionInvalid "SCHEMA_ERROR" ++
    reason schemaInvalid "SCHEMA_ERROR" ++ reason clientMismatch "CLIENT_MISMATCH" ++
    reason redirectMismatch "REDIRECT_URI_MISMATCH" ++ reason (!intentMatch) "INTENT_MISMATCH" ++
    reason expired "PROOF_EXPIRED" ++ secretCodes
  return ⟨reasonCodes.isEmpty, reasonCodes.eraseDups, orNull (envelope.prop "envelope_id"),
    orNull (envelope.prop "subject")⟩

end SimpleL1.Identity
