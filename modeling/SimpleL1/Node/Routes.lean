import SimpleL1.Node.Credentials

/-!
# The routes that change an identity

A route checks its request against the ledger and makes one event of it, or
refuses. What comes from outside the ledger is part of the request: the session
has let it pass, the passkey is what the verification of a registration returned,
and random ids and the time are drawn.
-/

namespace SimpleL1.Node

open SimpleL1.Js SimpleL1.Lib SimpleL1.Lib.Effect

/-- The id and the time a route gives its event. -/
structure Stamp where
  id : String
  timestamp : String

/-- A passkey that was just created, as the verification of its registration returns it. -/
structure Passkey where
  credentialId : String
  credentialPublicKey : String
  counter : Number
  transports : Json

/-- What the challenge of a registration says about the new identity. -/
structure NewIdentity where
  userHandle : Option Json
  requestedAlias : Option Json
  displayAlias : Option Json
  rpId : Option Json

/-! ## What the routes look up -/

/-- The first account that has the credential, and the credential. -/
def credentialOwner (credentialId : String) : List Fields → JsM (Option (Fields × Json))
  | [] => return none
  | account :: accounts => do
    let credentials ← accountCredentials account
    match ← Js.find (fun c => (· == credentialId) <$> toStr (credentialIdOf c)) credentials with
    | some credential => return some (account, credential)
    | none => credentialOwner credentialId accounts

def findCredentialOwner (ledger : Ledger) (credentialId : String) : JsM (Option (Fields × Json)) :=
  credentialOwner credentialId (ledger.accounts.entries.map Prod.snd)

/-- The account at the address, blanks around it apart. -/
def accountByEntityAddress (ledger : Ledger) (entityAddress : String) : Option Fields :=
  ledger.account (trim entityAddress)

def stableStringify (value : Json) : String := String.ofList value.canonText

/-- `body?.k`. -/
def bodyField (body : Option Json) (k : String) : Option Json := body.bind (·.prop k)

/-- The event of a route. -/
def stamped (stamp : Stamp) (t : LedgerEventType) (payload : List (String × Option Json)) : Json :=
  routeEvent stamp.id t (some (.obj (Fields.ofOptions payload))) stamp.timestamp

/-! ## The routes -/

section
variable (p : Platform) (ledger : Ledger) (stamp : Stamp)

/-- The passkey is complete, and nobody has it yet. -/
def isNewPasskey (passkey : Passkey) : JsM Bool :=
  if passkey.credentialId = "" ∨ passkey.credentialPublicKey = "" then return false
  else Option.isNone <$> findCredentialOwner ledger passkey.credentialId

/-- What both kinds of passkey events say about the passkey. -/
def passkeyFields (passkey : Passkey) (rpId : Option Json) : List (String × Option Json) :=
  [("credentialId", some (.str passkey.credentialId)),
    ("credentialPublicKey", some (.str passkey.credentialPublicKey)),
    ("counter", some (.num passkey.counter)), ("transports", some passkey.transports),
    ("rp_id", rpId)]

/-- `POST /api/sl1e/registration/complete`. -/
def completeRegistration (entityAddress : String) (identity : NewIdentity) (passkey : Passkey) :
    JsM (Option Json) := do
  if !(← isNewPasskey ledger passkey) then return none
  let keyAddress ← keyAddressFromPublicKey p (some (.str passkey.credentialPublicKey))
  return some (stamped stamp .genesis ([("address", some (.str entityAddress)),
    ("entity_l1_address", some (.str entityAddress)), ("key_l1_address", some (.str keyAddress)),
    ("address_version", some (.str ENTITY_ADDRESS_VERSION)),
    ("key_address_version", some (.str KEY_ADDRESS_VERSION)), ("handle", identity.userHandle),
    ("alias", identity.requestedAlias), ("display_alias", some (orNull identity.displayAlias)),
    ("publicKey", some (.str passkey.credentialPublicKey))] ++ passkeyFields passkey identity.rpId))

/-- `POST /api/sl1e/identity/:entityAddress/passkeys/registration/complete`. -/
def completeEnrolment (entityAddress : String) (rpId : Option Json) (passkey : Passkey) :
    JsM (Option Json) := do
  if (accountByEntityAddress ledger entityAddress).isNone then return none
  if !(← isNewPasskey ledger passkey) then return none
  let keyAddress ← keyAddressFromPublicKey p (some (.str passkey.credentialPublicKey))
  return some (stamped stamp .passkeyAdded ([("entity_l1_address", some (.str entityAddress)),
    ("key_l1_address", some (.str keyAddress))] ++ passkeyFields passkey rpId))

/-- `POST /api/sl1e/identity/:entityAddress/passkeys/:credentialId/revoke`. -/
def revokeCredential (entityAddress credentialId : String) (body : Option Json) :
    JsM (Option Json) := do
  match accountByEntityAddress ledger entityAddress with
  | none => return none
  | some account =>
    let activeCredentials ← accountCredentials account
    let named ← Js.find (fun c => (· == credentialId) <$> toStr (credentialIdOf c)) activeCredentials
    if named.isNone then return none
    if activeCredentials.length ≤ 1 then return none
    let reason ← toStr (or (bodyField body "reason") (some (.str "user_removed")))
    return some (stamped stamp .passkeyRevoked [("entity_l1_address", some (.str entityAddress)),
      ("credential_id", some (.str credentialId)), ("reason", some (.str reason))])

/-- `POST /api/sl1e/identity/:entityAddress/controller-bindings/proposals`. -/
def proposeBinding (entityAddress proposalId : String) (body : Option Json) : Option Json := do
  let _ ← accountByEntityAddress ledger entityAddress
  let keyAddress ← normalizeKeyAddress p
    (or (bodyField body "proposed_controller_key_l1_address") (bodyField body "key_l1_address"))
  let controllerType := orElse (bodyField body "controller_type") (.str "unknown")
  let proposalHash := "sha256:" ++ p.sha256 (stableStringify (.obj [
    ("entity_l1_address", .str entityAddress),
    ("proposed_controller_key_l1_address", .str keyAddress), ("controller_type", controllerType)]))
  return stamped stamp .controllerBindingProposed [("proposal_id", some (.str proposalId)),
    ("entity_l1_address", some (.str entityAddress)),
    ("proposed_controller_key_l1_address", some (.str keyAddress)),
    ("controller_type", some controllerType), ("proposal_hash", some (.str proposalHash))]

/-- `POST /api/sl1e/identity/:entityAddress/controller-bindings/proposals/:proposalId/approve`. -/
def approveBinding (entityAddress proposalId : String) (body : Option Json) : Option Json := do
  let proposal ← (ledger.stores .controller_binding_proposals).find? fun candidate =>
    strictEq (candidate.get "proposal_id") (some (.str proposalId))
      && strictEq (candidate.get "entity_l1_address") (some (.str entityAddress))
  let approvalHash := "sha256:" ++ p.sha256 (stableStringify (.obj proposal))
  return stamped stamp .controllerBindingApproved [("proposal_id", proposal.get "proposal_id"),
    ("approved_by_key_l1_address", or (bodyField body "approved_by_key_l1_address")
      ((accountByEntityAddress ledger entityAddress).bind (·.get "key_l1_address"))),
    ("approval_hash", some (.str approvalHash))]

/-- The requests that come through to these routes. -/
inductive Request where
  | registration (entityAddress : String) (identity : NewIdentity) (passkey : Passkey)
  | enrolment (entityAddress : String) (rpId : Option Json) (passkey : Passkey)
  | revocation (entityAddress credentialId : String) (body : Option Json)
  | proposal (entityAddress proposalId : String) (body : Option Json)
  | approval (entityAddress proposalId : String) (body : Option Json)

/-- The event the route makes of the request. -/
def requestEvent : Request → JsM (Option Json)
  | .registration entityAddress identity passkey =>
    completeRegistration p ledger stamp entityAddress identity passkey
  | .enrolment entityAddress rpId passkey => completeEnrolment p ledger stamp entityAddress rpId passkey
  | .revocation entityAddress credentialId body =>
    revokeCredential ledger stamp entityAddress credentialId body
  | .proposal entityAddress proposalId body =>
    return proposeBinding p ledger stamp entityAddress proposalId body
  | .approval entityAddress proposalId body =>
    return approveBinding p ledger stamp entityAddress proposalId body

/-- The ledger after the request. -/
def serve (config : RealmConfig) (request : Request) : Ledger :=
  match requestEvent p ledger stamp request with
  | .ok (some event) => after (applyEvent p config event) ledger
  | _ => ledger

/-- The type of the event the route makes. -/
def Request.eventType : Request → LedgerEventType
  | .registration .. => .genesis
  | .enrolment .. => .passkeyAdded
  | .revocation .. => .passkeyRevoked
  | .proposal .. => .controllerBindingProposed
  | .approval .. => .controllerBindingApproved

theorem ledgerEventType_stamped (t : LedgerEventType) (payload : List (String × Option Json)) :
    ledgerEventType (stamped stamp t payload) = some t :=
  ledgerEventType_of_name t rfl

theorem payloadField_stamped (t : LedgerEventType) (payload : List (String × Option Json))
    (k : String) : payloadField (stamped stamp t payload) k = (Fields.ofOptions payload).get k :=
  rfl

end

end SimpleL1.Node
