import SimpleL1.Js.Arithmetic
import SimpleL1.Js.Stable
import SimpleL1.Node.Routes

/-!
# Identity state envelopes

A device publishes what its ledger says of an entity: the controller bindings, the proposals for
new ones and the revocations it has seen. The envelope carries a hash of its state and the
signature of the device over everything else. Both are taken of the object in memory; the receiver
checks the object that was sent as JSON.
-/

namespace SimpleL1.Mesh

open SimpleL1.Js

/-- Signatures of the two algorithms; a key that cannot be used verifies nothing. -/
structure SignatureScheme where
  sign (algorithm privateKey payload : String) (salt : Nat) : String
  verify (algorithm : String) (publicKey : Json) (payload signature : String) : Bool

def IDENTITY_STATE_ENVELOPE_VERSION : String := "simple-l1.identity_state_envelope.v1"

section
variable (p : Node.Platform)

def sha256Ref (value : String) : String := "sha256:" ++ p.sha256 value

def stableStringify (d : Draft) : String := String.ofList d.stableChars

def stateHashForEnvelope (envelope : Draft) : String :=
  sha256Ref p (stableStringify (envelope.without ["state_hash", "signature"]))

def envelopeIdFor (entityAddress deviceKeyAddress sequence issuedAt : String) : String :=
  "ise_" ++ Node.sliceTo 32 (p.sha256
    (entityAddress ++ ":" ++ deviceKeyAddress ++ ":" ++ sequence ++ ":" ++ issuedAt))

/-! ## Bindings and proposals -/

/-- The id of a binding, read by name. -/
def bindingIdFor (binding : String → Option Json) : JsM String :=
  let bindingId := or (binding "binding_id") (binding "id")
  if truthy bindingId then toStr bindingId
  else do
    let entity ← joined (binding "entity_l1_address")
    let controller ← joined (or (or (binding "controller_key_l1_address") (binding "controller_l1_address"))
      (binding "key_l1_address"))
    let credential ← joined (or (binding "credential_id") (some (.str "")))
    return "cb_" ++ Node.sliceTo 32 (p.sha256 (entity ++ ":" ++ controller ++ ":" ++ credential))

def revocationIdFor (binding : Record) : JsM String := do
  let bindingId ← bindingIdFor p binding.get
  let seen ← toStr (or (or (or (binding.get "revoked_at") (binding.get "updated_at"))
    (binding.get "observed_at")) (some (.str "")))
  return "rev_" ++ Node.sliceTo 32 (p.sha256 (bindingId ++ ":" ++ seen))

/-- The controller key of a binding, under one of its names. -/
def controllerKey (binding : Json) : Option Json :=
  or (or (or (binding.prop "controller_key_l1_address") (binding.prop "controller_l1_address"))
    (binding.prop "key_l1_address")) (binding.prop "controller_key_l1")

def statusText (binding : Json) : JsM String := toStr (or (binding.prop "status") (some (.str "active")))

def normalizeControllerBinding (binding : Json) (fallbackEntityAddress : String) : JsM Record := do
  let own ← Node.member (some binding) "entity_l1_address"
  let entityAddress := or own (some (.str fallbackEntityAddress))
  let named (k : String) : Option Json :=
    if k = "entity_l1_address" then entityAddress
    else if k = "controller_key_l1_address" then controllerKey binding
    else Fields.get (Node.spread (some binding)) k
  let binding_id ← bindingIdFor p named
  let status ← statusText binding
  return [("binding_id", some (.str binding_id)), ("entity_l1_address", entityAddress),
    ("controller_key_l1_address", controllerKey binding), ("status", some (.str status)),
    ("observed_at", or (or (or (binding.prop "observed_at") (binding.prop "updated_at"))
      (binding.prop "created_at")) (some (.str (p.isoDate 0)))),
    ("provider_evidence_hash",
      some (orNull (or (binding.prop "provider_evidence_hash") (binding.prop "binding_hash"))))]

/-- The binding is of the entity, and has one of the statuses that are published. -/
def published (entityAddress : String) (binding : Record) : Bool :=
  strictEq (binding.get "entity_l1_address") (some (.str entityAddress)) &&
    ["active", "revoked", "unknown"].any fun status => strictEq (binding.get "status") (some (.str status))

/-- `ledger?.k || []` -/
def ledgerList (ledger : Option Json) (k method : String) : JsM (List Json) :=
  Node.arrayOrEmpty (ledger.bind (·.prop k)) ("(ledger?." ++ k ++ " || [])." ++ method)

def controllerBindingsForLedger (ledger : Option Json) (entityAddress : String) : JsM (List Record) := do
  let bindings ← ledgerList ledger "controller_bindings" "map"
  let normalized ← bindings.mapM fun binding => normalizeControllerBinding p binding entityAddress
  return normalized.filter (published entityAddress)

def normalizeProposal (proposal : Json) (entityAddress : String) : JsM Record := do
  let entity_l1_address := or (proposal.prop "entity_l1_address") (some (.str entityAddress))
  let proposedKey := or (or (proposal.prop "proposed_controller_key_l1_address")
    (proposal.prop "key_l1_address")) (proposal.prop "controller_l1_address")
  let digest := "cbp_" ++ Node.sliceTo 32 (p.sha256 (Node.stableStringify proposal))
  let proposal_id ← toStr (or (proposal.prop "proposal_id") (some (.str digest)))
  let controller_type ← toStr (or (proposal.prop "controller_type") (some (.str "unknown")))
  let status ← toStr (or (proposal.prop "status") (some (.str "pending")))
  let hashed : Record := [("entity_l1_address", entity_l1_address),
    ("proposed_controller_key_l1_address", proposedKey),
    ("controller_type", or (proposal.prop "controller_type") (some (.str "unknown")))]
  return [("proposal_id", some (.str proposal_id)), ("entity_l1_address", entity_l1_address),
    ("proposed_controller_key_l1_address", proposedKey), ("controller_type", some (.str controller_type)),
    ("status", some (.str status)),
    ("proposed_at", or (or (proposal.prop "proposed_at") (proposal.prop "created_at"))
      (some (.str (p.isoDate 0)))),
    ("approved_by_key_l1_address", some (orNull (proposal.prop "approved_by_key_l1_address"))),
    ("approved_at", some (orNull (proposal.prop "approved_at"))),
    ("proposal_hash", or (proposal.prop "proposal_hash")
      (some (.str (sha256Ref p (String.ofList hashed.stableChars)))))]

def controllerBindingProposalsForLedger (ledger : Option Json) (entityAddress : String) :
    JsM (List Record) := do
  let proposals ← ledgerList ledger "controller_binding_proposals" "filter"
  let own ← filter (fun proposal => do
    let address ← Node.member (some proposal) "entity_l1_address"
    return strictEq (or address (some (.str entityAddress))) (some (.str entityAddress))) proposals
  let normalized ← own.mapM fun proposal => normalizeProposal p proposal entityAddress
  return normalized.filter fun proposal => truthy (proposal.get "proposed_controller_key_l1_address")

def revocationObservation (binding : Record) : JsM Record := do
  let revocation_id ← revocationIdFor p binding
  return [("revocation_id", some (.str revocation_id)), ("binding_id", binding.get "binding_id"),
    ("controller_key_l1_address", binding.get "controller_key_l1_address"),
    ("observed_at", binding.get "observed_at"), ("source", some (.str "local"))]

def revocationObservationsForBindings (bindings : List Record) : JsM (List Record) :=
  (bindings.filter fun binding => strictEq (binding.get "status") (some (.str "revoked"))).mapM
    (revocationObservation p)

/-! ## Creating -/

structure EnvelopeInput where
  ledger : Option Json
  entityAddress : String
  deviceKeyAddress : String
  sequence : Option Json
  previousStateHash : Option Json
  observedEpoch : Option Json
  providerStateProof : Option Json
  /-- The time value of `now`. -/
  now : Number
  ttlMs : Number
  signatureAlgorithm : String

def EnvelopeInput.issuedAt (input : EnvelopeInput) : Number := Node.timeClip input.now

def EnvelopeInput.expiresAt (input : EnvelopeInput) : Number :=
  Node.timeClip (Number.add input.issuedAt input.ttlMs)

def signatureOf (algorithm signedBy value : String) : Json :=
  .obj [("algorithm", .str algorithm), ("signed_by_key_l1_address", .str signedBy), ("value", .str value)]

def supported (algorithm : String) : Bool := algorithm = "ed25519" || algorithm = "p256-sha256-der"

def signBytes (scheme : SignatureScheme) (algorithm privateKey payload : String) (salt : Nat) : JsM String :=
  if supported algorithm then return scheme.sign algorithm privateKey payload salt
  else throw (.error ("UNSUPPORTED_IDENTITY_MESH_SIGNATURE_ALGORITHM:" ++ algorithm))

/-- The signature over the rest of the envelope. -/
def signIdentityStateEnvelope (scheme : SignatureScheme) (envelope : Draft)
    (privateKey algorithm signedByKeyAddress : String) (salt : Nat) : JsM Json := do
  let value ← signBytes scheme algorithm privateKey (stableStringify (envelope.without ["signature"])) salt
  return signatureOf algorithm signedByKeyAddress value

/-- The fields that the state hash covers. -/
def statePayload (input : EnvelopeInput) : JsM Draft := do
  let controllerBindings ← controllerBindingsForLedger p input.ledger input.entityAddress
  let controllerBindingProposals ← controllerBindingProposalsForLedger p input.ledger input.entityAddress
  let issued_at ← Node.toISOString p input.issuedAt
  let sequenceText ← toStr input.sequence
  let sequence ← toNumber (or input.sequence (some (.num (.int 0))))
  let expires_at ← Node.toISOString p input.expiresAt
  let observed_epoch ← toNumber (or input.observedEpoch (some (.num (.int 0))))
  let revocations ← revocationObservationsForBindings p controllerBindings
  return [("schema_version", .json (.str IDENTITY_STATE_ENVELOPE_VERSION)),
    ("envelope_id", .json (.str (envelopeIdFor p input.entityAddress input.deviceKeyAddress sequenceText issued_at))),
    ("entity_l1_address", .json (.str input.entityAddress)),
    ("device_key_l1_address", .json (.str input.deviceKeyAddress)),
    ("sequence", .json (.num sequence)),
    ("previous_state_hash", .json (input.previousStateHash.getD .null)),
    ("issued_at", .json (.str issued_at)), ("expires_at", .json (.str expires_at)),
    ("observed_epoch", .json (.num observed_epoch)),
    ("controller_bindings", .records controllerBindings),
    ("controller_binding_proposals", .records controllerBindingProposals),
    ("revocation_observations", .records revocations),
    ("provider_state_proof", .json (input.providerStateProof.getD .null))]

/-- The envelope with another value of the field. -/
def withField (envelope : Draft) (k : String) (v : Json) : Draft :=
  envelope.map fun f => if f.1 = k then (f.1, .json v) else f

def createIdentityStateEnvelope (scheme : SignatureScheme) (input : EnvelopeInput) (privateKey : Option String)
    (salt : Nat) : JsM Draft := do
  let payload ← statePayload p input
  let unsigned := signatureOf input.signatureAlgorithm input.deviceKeyAddress
    "UNSIGNED_IDENTITY_MESH_OBSERVATION_000000"
  let envelope : Draft := payload ++ [("signature", .json unsigned)]
  let envelope : Draft := envelope ++ [("state_hash", .json (.str (stateHashForEnvelope p envelope)))]
  match privateKey.filter (· ≠ "") with
  | none => return envelope
  | some privateKey =>
    let signature ← signIdentityStateEnvelope scheme envelope privateKey input.signatureAlgorithm
      input.deviceKeyAddress salt
    return withField envelope "signature" signature

/-! ## Verifying -/

/-- The envelope as it arrives: `JSON.parse(JSON.stringify(envelope))`. -/
def sent (envelope : Draft) : Json := envelope.value.written

def withoutKeys (value : Json) (keys : List String) : Json :=
  match value with
  | .obj fs => .obj (fs.filter fun f => f.1 ∉ keys)
  | value => value

structure VerifyOptions where
  validateEnvelope : Option (Json → Bool) := none
  trustedDeviceKeys : Fields := []
  now : Number
  requireTrustedSignature : Bool := true

structure EnvelopeVerdict where
  ok : Bool
  reason_codes : List String
  observation : Option Json

/-- A name of `Object.prototype` that is no own property finds an inherited function, which is no key. -/
def trustedKey (keys : Fields) (address : Option Json) : JsM (Option Json) := do
  let k ← toStr address
  match keys.get k with
  | some key => return some key
  | none => return if k ∈ Realm.objectPrototypeKeys then some (.obj []) else none

def trustedPublicKeyFor (envelope : Json) (trustedDeviceKeys : Fields) : JsM (Option Json) := do
  let signedBy ← trustedKey trustedDeviceKeys
    ((envelope.prop "signature").bind (·.prop "signed_by_key_l1_address"))
  if truthy signedBy then return signedBy
  else trustedKey trustedDeviceKeys (envelope.prop "device_key_l1_address")

/-- Whatever is thrown inside makes the signature invalid. -/
def verifyBytes (scheme : SignatureScheme) (algorithm : Option Json) (publicKey : Json) (payload : String)
    (signature : Option Json) : Bool :=
  match algorithm, toStr (or signature (some (.str ""))) with
  | some (.str algorithm), .ok signature =>
    supported algorithm && scheme.verify algorithm publicKey payload signature
  | _, _ => false

def when (c : Bool) (code : String) : List String := if c then [code] else []

def verifyIdentityStateEnvelope (scheme : SignatureScheme) (envelope : Json) (options : VerifyOptions) :
    JsM EnvelopeVerdict := do
  let versionInvalid := !(strictEq (envelope.prop "schema_version")
    (some (.str IDENTITY_STATE_ENVELOPE_VERSION)))
  let schemaInvalid := options.validateEnvelope.any fun validate => !(validate envelope)
  let hashed := if envelope.truthy then envelope else .obj []
  let stateHash := sha256Ref p (Node.stableStringify (withoutKeys hashed ["state_hash", "signature"]))
  let hashInvalid := !(strictEq (envelope.prop "state_hash") (some (.str stateHash)))
  let expiresAtMs := p.parseDate (← toStr (or (envelope.prop "expires_at") (some (.str ""))))
  let expired := !expiresAtMs.truthy || Number.le expiresAtMs (Node.timeClip options.now)
  let signature := envelope.prop "signature"
  let mismatch := !(strictEq (signature.bind (·.prop "signed_by_key_l1_address"))
    (envelope.prop "device_key_l1_address"))
  let publicKey ← trustedPublicKeyFor envelope options.trustedDeviceKeys
  let keyCodes ← match publicKey.filter Json.truthy with
    | none => pure (when options.requireTrustedSignature "IDENTITY_MESH_TRUSTED_DEVICE_KEY_MISSING")
    | some publicKey => do
      let signature ← Node.member (some envelope) "signature"
      let payload := Node.stableStringify (withoutKeys envelope ["signature"])
      pure (when (!(verifyBytes scheme (signature.bind (·.prop "algorithm")) publicKey payload
        (signature.bind (·.prop "value")))) "IDENTITY_MESH_SIGNATURE_INVALID")
  let reason_codes := when versionInvalid "IDENTITY_MESH_ENVELOPE_VERSION_INVALID"
    ++ when schemaInvalid "IDENTITY_MESH_SCHEMA_INVALID" ++ when hashInvalid "IDENTITY_MESH_STATE_HASH_INVALID"
    ++ when expired "IDENTITY_MESH_ENVELOPE_EXPIRED"
    ++ when mismatch "IDENTITY_MESH_SIGNATURE_DEVICE_MISMATCH" ++ keyCodes
  return ⟨reason_codes.isEmpty, reason_codes, if reason_codes.isEmpty then some envelope else none⟩

end

end SimpleL1.Mesh
