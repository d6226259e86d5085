import SimpleL1.Node.ApprovalBinding

/-!
# Intent approvals

The runtime that creates, verifies, consumes and revokes intent approvals. It
works on the ledger, which holds the approvals and the credentials they are by,
and on the replay keys of the approvals created so far. An approval is stored
under the id the caller gives it, in the place of one that has that id already.
-/

namespace SimpleL1.Node

open SimpleL1.Js SimpleL1.Lib SimpleL1.Lib.Effect

structure ApprovalState where
  ledger : Ledger
  intent_approval_replay_keys : List String

namespace ApprovalState

def approvals (s : ApprovalState) : List Fields := s.ledger.stores .intent_approvals

def setApprovals (s : ApprovalState) (xs : List Fields) : ApprovalState :=
  { s with ledger := s.ledger.setStore .intent_approvals xs }

@[simp] theorem approvals_setApprovals (s : ApprovalState) (xs : List Fields) :
    (s.setApprovals xs).approvals = xs := by
  simp [approvals, setApprovals, Ledger.setStore]

@[simp] theorem keys_setApprovals (s : ApprovalState) (xs : List Fields) :
    (s.setApprovals xs).intent_approval_replay_keys = s.intent_approval_replay_keys := rfl

end ApprovalState

abbrev ApprovalM := EStateM Error ApprovalState

/-! ## Intents -/

/-- `String(v || '').normalize('NFC')`. -/
def normalText (p : Platform) (v : Option Json) : JsM String := p.nfc <$> strOrEmpty v

def normalizeIntent (p : Platform) (input : Json) : JsM Fields := do
  let entityAddress ← assertEntityAddress p (input.prop "entity_l1_address")
  let audience ← normalText p (input.prop "audience")
  let nonce ← normalText p (input.prop "nonce")
  let expiresAt ← normalText p (input.prop "expires_at")
  let intentType ← normalText p (or (input.prop "intent_type") (input.prop "type"))
  throwUnless (audience ≠ "" && nonce ≠ "" && expiresAt ≠ "" && intentType ≠ "")
    (.error "intent_type, audience, nonce, and expires_at are required")
  let basis : Fields := [("object_type", .str "Intent"), ("entity_l1_address", .str entityAddress),
    ("intent_type", .str intentType), ("capability", orNull (input.prop "capability")),
    ("scope", orNull (input.prop "scope")), ("audience", .str audience), ("nonce", .str nonce),
    ("expires_at", .str expiresAt), ("payload_hash", orElse (input.prop "payload_hash")
      (.str (hashObject p (orElse (input.prop "payload") (.obj [])))))]
  return ("id", orArtifactId p (or (input.prop "id") (input.prop "intent_id")) "intent" (.obj basis) 24)
    :: basis ++ [("metadata", orElse (input.prop "metadata") (.obj []))]

def intentHash (p : Platform) (intent : Fields) : String :=
  hashObject p (.obj (Fields.ofOptions [("object_type", some (.str "Intent")), ("id", intent.get "id"),
    ("entity_l1_address", intent.get "entity_l1_address"), ("intent_type", intent.get "intent_type"),
    ("capability", some (orNull (intent.get "capability"))),
    ("scope", some (orNull (intent.get "scope"))), ("audience", intent.get "audience"),
    ("nonce", intent.get "nonce"), ("expires_at", intent.get "expires_at"),
    ("payload_hash", intent.get "payload_hash")]))

def challengeForIntent (p : Platform) (intent : Fields) : String :=
  hashObject p (.obj [("domain", .str "SL1_INTENT_APPROVAL_V1"),
    ("intent_hash", .str (intentHash p intent))])

/-! ## Credentials -/

/-- What a credential is bound to. -/
structure CredentialBinding where
  entity_l1_address : Option Json
  controller_l1_address : Option Json
  credential_id : Option Json
  rp_id : Option Json

/-- `[...(v || [])]`; a string is iterated character by character. -/
def elementsOf : Option Json → JsM (List Json)
  | some (.arr xs) => return xs
  | some (.str s) => return s.toList.map fun c => .str (String.singleton c)
  | v => if truthy v then throw (.typeError "Spread syntax requires ...iterable[Symbol.iterator] to be a function")
    else return []

def findCredentialBinding (ledger : Ledger) (entityAddress credentialId : String) :
    JsM (Option CredentialBinding) := do
  let explicit ← Js.find (fun binding : Fields =>
    if strictEq (binding.get "credential_id") (some (.str credentialId)) then
      (· == "active") <$> toStr (or (binding.get "status") (some (.str "active")))
    else pure false) (ledger.stores .controller_bindings)
  match explicit with
  | some binding =>
    return some ⟨binding.get "entity_l1_address",
      or (binding.get "controller_l1_address") (binding.get "key_l1_address"),
      binding.get "credential_id", binding.get "rp_id"⟩
  | none =>
    match ledger.account entityAddress with
    | none => return none
    | some account =>
      let keys ← elementsOf (account.get "keys")
      let accountKeys := (.obj account :: keys).filter Json.truthy
      match accountKeys.find? fun candidate =>
          strictEq (candidate.prop "credentialId") (some (.str credentialId))
            || strictEq (candidate.prop "credential_id") (some (.str credentialId)) with
      | none => return none
      | some key =>
        return some ⟨some (.str entityAddress),
          or (key.prop "key_l1_address") (account.get "key_l1_address"),
          or (key.prop "credentialId") (key.prop "credential_id"),
          some (orNull (or (key.prop "rp_id") (account.get "rp_id")))⟩

/-- `verifyCredentialBinding`: why the credential may not approve. -/
def credentialReasons (p : Platform) (ledger : Ledger)
    (entityAddress controllerAddress credentialId rpId : String) : JsM (List String) := do
  if credentialId = "" then return ["CREDENTIAL_ID_REQUIRED"]
  else
    match ← findCredentialBinding ledger entityAddress credentialId with
    | none => return ["CREDENTIAL_BINDING_NOT_FOUND"]
    | some binding =>
      let entityCodes := if normalizeEntityAddress p binding.entity_l1_address == some entityAddress then []
        else ["CREDENTIAL_ENTITY_MISMATCH"]
      let controllerCodes :=
        if normalizeKeyAddress p binding.controller_l1_address == some controllerAddress then []
        else ["CREDENTIAL_CONTROLLER_MISMATCH"]
      let differs ← if rpId ≠ "" && truthy binding.rp_id then (· != rpId) <$> toStr binding.rp_id
        else pure false
      return entityCodes ++ controllerCodes ++ if differs then ["CREDENTIAL_RP_ID_MISMATCH"] else []

/-! ## Creating -/

/-- What the input of `createIntentApproval` asks for. -/
structure ApprovalRequest where
  intent : Fields
  entityAddress : String
  controllerAddress : String
  credentialId : String
  rpId : String
  assertion : Json
  assertionChallenge : String

def readApprovalRequest (p : Platform) (input : Fields) : JsM ApprovalRequest := do
  let intent ← normalizeIntent p (orElse (input.get "intent") (.obj input))
  let entityAddress ← assertEntityAddress p
    (or (input.get "entity_l1_address") (intent.get "entity_l1_address"))
  let controllerAddress ← assertKeyAddress p (or (input.get "controller_l1_address")
    (or (input.get "proof_key_l1_address") (input.get "key_l1_address")))
  let credentialId ← strOrEmpty (input.get "credential_id")
  let rpId ← strOrEmpty (input.get "rp_id")
  let assertion := orElse (input.get "assertion") (.obj [])
  let assertionChallenge ← strOrEmpty (or (assertion.prop "challenge") (input.get "challenge"))
  return ⟨intent, entityAddress, controllerAddress, credentialId, rpId, assertion, assertionChallenge⟩

namespace ApprovalRequest

def replayKey (p : Platform) (r : ApprovalRequest) : String :=
  hashObject p (.obj (Fields.ofOptions [("intent_hash", some (.str (intentHash p r.intent))),
    ("controller_l1_address", some (.str r.controllerAddress)),
    ("credential_id", some (.str r.credentialId)), ("audience", r.intent.get "audience"),
    ("nonce", r.intent.get "nonce")]))

/-- The id of the approval: the one the input asks for, else one made from the replay key. -/
def id (p : Platform) (input : Fields) (r : ApprovalRequest) : Json :=
  orArtifactId p (input.get "id") "iap" (.obj [("replay_key", .str (r.replayKey p))]) 24

def approval (p : Platform) (input : Fields) (r : ApprovalRequest) (issuedAt : Json) : Fields :=
  Fields.ofOptions [("id", some (r.id p input)), ("object_type", some (.str "IntentApproval")),
    ("status", some (.str "pending")), ("intent_id", r.intent.get "id"),
    ("intent_hash", some (.str (intentHash p r.intent))),
    ("canonical_intent", some (.str (canonicalJson p (.obj r.intent)))),
    ("entity_l1_address", some (.str r.entityAddress)),
    ("controller_l1_address", some (.str r.controllerAddress)),
    ("credential_id", some (.str r.credentialId)), ("rp_id", some (.str r.rpId)),
    ("audience", r.intent.get "audience"), ("nonce", r.intent.get "nonce"),
    ("expires_at", r.intent.get "expires_at"),
    ("challenge", some (.str (challengeForIntent p r.intent))),
    ("assertion_hash", some (.str (hashObject p r.assertion))), ("issued_at", some issuedAt),
    ("consumed_at", some .null), ("replay_key", some (.str (r.replayKey p)))]

end ApprovalRequest

/-- What `createIntentApproval` stores: the approval, and its replay key. -/
def newApproval (p : Platform) (s : ApprovalState) (input : Fields) (now : Number) :
    JsM (Fields × String) := do
  let r ← readApprovalRequest p input
  throwUnless (strictEq (r.intent.get "entity_l1_address") (some (.str r.entityAddress)))
    (.error "INTENT_ENTITY_MISMATCH")
  let expires ← newDate p (r.intent.get "expires_at")
  throwUnless (!expires.le now) (.error "INTENT_EXPIRED")
  throwUnless (r.assertionChallenge = challengeForIntent p r.intent)
    (.error "WEBAUTHN_CHALLENGE_MISMATCH")
  let reasonCodes ← credentialReasons p s.ledger r.entityAddress r.controllerAddress r.credentialId r.rpId
  throwUnless reasonCodes.isEmpty (.error (", ".intercalate reasonCodes))
  throwUnless (!s.intent_approval_replay_keys.contains (r.replayKey p))
    (.error "INTENT_APPROVAL_REPLAY_DETECTED")
  let issuedAt ← orNow p (input.get "issued_at") now
  return (r.approval p input issuedAt, r.replayKey p)

def ApprovalState.add (s : ApprovalState) (approval : Fields) (replayKey : String) : ApprovalState :=
  { s.setApprovals (upsert "id" approval (fun _ => approval) s.approvals) with
    intent_approval_replay_keys := s.intent_approval_replay_keys ++ [replayKey] }

def createIntentApproval (p : Platform) (input : Fields) (now : Number) : ApprovalM Fields := do
  let (approval, replayKey) ← reading fun s => newApproval p s input now
  modify (·.add approval replayKey)
  return approval

/-! ## Verifying, consuming, revoking -/

/-- The stored approval with the id. -/
def approvalById (s : ApprovalState) (approvalId : String) : Option Fields :=
  findById s.approvals (some (.str approvalId))

def notFound : Checked := ⟨false, ["INTENT_APPROVAL_NOT_FOUND"]⟩

/-- `verifyIntentApproval` on the id of an approval. -/
def verifyIntentApprovalById (p : Platform) (s : ApprovalState) (approvalId : String) (context : Fields)
    (now : Number) : JsM (Checked × Option Fields) :=
  match approvalById s approvalId with
  | none => return (notFound, none)
  | some approval => (·, some approval) <$> verifyIntentApproval p (.obj approval) context now

def hasApprovalId (approvalId : String) (e : Fields) : Bool :=
  strictEq (e.get "id") (some (.str approvalId))

/-- Write to the stored approval with the id. -/
def ApprovalState.update (s : ApprovalState) (approvalId : String) (f : Fields → Fields) : ApprovalState :=
  s.setApprovals (updateFirst (hasApprovalId approvalId) f s.approvals)

def updateApproval (approvalId : String) (f : Fields → Fields) : ApprovalM Unit :=
  modify (·.update approvalId f)

def consumeIntentApproval (p : Platform) (approvalId : String) (input : Fields) (now : Number) :
    ApprovalM (Checked × Option Fields) := do
  let (result, _) ← reading fun s => verifyIntentApprovalById p s approvalId input now
  if !result.ok then return (result, none)
  else
    updateApproval approvalId (·.set "status" (.str "executed"))
    let consumedAt ← liftM (toISOString p now)
    updateApproval approvalId fun e =>
      (e.set "consumed_at" (.str consumedAt)).set "transaction_id" (orNull (input.get "transaction_id"))
    return (⟨true, ["INTENT_APPROVAL_CONSUMED"]⟩, approvalById (← get) approvalId)

def revokeIntentApproval (p : Platform) (approvalId : String) (input : Fields) (now : Number) :
    ApprovalM (Checked × Option Fields) := do
  match approvalById (← get) approvalId with
  | none => return (notFound, none)
  | some _ =>
    updateApproval approvalId (·.set "status" (.str "revoked"))
    let revokedAt ← liftM (orNow p (input.get "revoked_at") now)
    updateApproval approvalId fun e =>
      (e.set "revoked_at" revokedAt).set "revocation_reason"
        (orElse (input.get "reason") (.str "revoked"))
    return (⟨true, ["INTENT_APPROVAL_REVOKED"]⟩, approvalById (← get) approvalId)

end SimpleL1.Node
