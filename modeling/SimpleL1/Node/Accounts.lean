import SimpleL1.Node.Ledger

/-!
# Accounts and controller bindings

The events that make an account, add a key to it or take one away. Each works on
the account and on the table of controller bindings, one after the other, so an
exception between the two leaves the first change behind.
-/

namespace SimpleL1.Node

open SimpleL1.Js SimpleL1.Lib.Effect

/-- `event.payload`, of which a field is read. -/
def payloadOf (event : Json) : JsM Json :=
  match event.prop "payload" with
  | none => throw (.typeError "Cannot read properties of undefined")
  | some .null => throw (.typeError "Cannot read properties of null")
  | some v => return v

/-- `{ ...event.payload, k: event.payload[k] || event.timestamp }`. -/
def stampedInput (event : Json) (k : String) : JsM Fields := do
  let payload ← payloadOf event
  return assign (spread (some payload)) k (or (payload.prop k) (event.prop "timestamp"))

def zero : Option Json := some (.num (.int 0))

/-- The literal every new account gets its balances from. -/
def initialBalances : Json :=
  .obj [("SL", .num (.int 1000)), ("BTC", .num (.int 0)), ("ETH", .num (.int 0))]

def initialPolicies : Json :=
  .obj [("session_limit", .num (.int 1000)),
    ("intent_scope", .arr [.str "payments", .str "identity-claims"]),
    ("active_policies", .arr [.str "Daily Limit 1000 SL"])]

/-- `crypto.createHash('sha256').update(entityAddress + asset).digest('hex').substring(0, 10)`. -/
def externalAddress (p : Platform) (tag asset entityAddress : String) : String :=
  tag ++ sliceTo 10 (p.sha256 (entityAddress ++ asset))

/-! ## Bindings -/

/-- The bindings of other credentials. -/
def withoutCredential (credentialId : Option Json) (bindings : List Fields) : List Fields :=
  bindings.filter fun binding => !strictEq (binding.get "credential_id") credentialId

/-- `String(a || b || '')`. -/
def textOfEither (a b : Option Json) : JsM String := strOrEmpty (or a b)

/-- The binding belongs to another entity or another key. -/
def isOtherController (entityAddress keyAddress : String) (binding : Fields) : JsM Bool := do
  let entity ← strOrEmpty (binding.get "entity_l1_address")
  if entity ≠ entityAddress then return true
  else
    let key ← textOfEither (binding.get "key_l1_address") (binding.get "controller_l1_address")
    return key ≠ keyAddress

/-- A key of the account that is not the key `keyAddress`. -/
def isOtherKey (keyAddress : String) (key : Json) : JsM Bool := do
  let address ← member (some key) "key_l1_address"
  return (← strOrEmpty address) ≠ keyAddress

/-- `String(key.credentialId || key.credential_id)`. -/
def keyCredential (key : Json) : JsM String := do
  let credentialId ← member (some key) "credentialId"
  toStr (or credentialId (key.prop "credential_id"))

/-- The binding of a passkey. -/
def passkeyBinding (id entityAddress keyAddress : String) (credentialId : Option Json)
    (credentialPublicKey rpId : Json) (source : String) (created_at : Option Json) : Fields :=
  Fields.ofOptions [("id", some (.str id)), ("object_type", some (.str "ControllerBinding")),
    ("entity_l1_address", some (.str entityAddress)),
    ("controller_l1_address", some (.str keyAddress)), ("key_l1_address", some (.str keyAddress)),
    ("credential_id", credentialId), ("credential_public_key", some credentialPublicKey),
    ("credentialPublicKey", some credentialPublicKey), ("rp_id", some rpId),
    ("status", some (.str "active")), ("source", some (.str source)), ("created_at", created_at)]

/-- The table becomes `others`, and then the binding is added under its id. -/
def rebind (others : List Fields) (id : JsM String) (binding : String → Fields) : LedgerM Unit := do
  writeStore .controller_bindings others
  let id ← id
  push .controller_bindings (binding id)

/-! ## `GENESIS` -/

/-- What a `GENESIS` event gives: the account, and its credential for the binding. -/
structure Genesis where
  entityAddress : String
  keyAddress : Option String
  credentialId : Option Json
  credentialPublicKey : Json
  rpId : Json
  account : Fields

/-- `payload.key_l1_address`, else the address of the public key, else `null`. -/
def genesisKeyAddress (p : Platform) (payload : Json) : JsM (Option String) :=
  if truthy (payload.prop "key_l1_address") then
    some <$> assertKeyAddress p (payload.prop "key_l1_address")
  else if truthy (payload.prop "publicKey") then
    some <$> keyAddressFromPublicKey p (payload.prop "publicKey")
  else return none

def genesisOf (p : Platform) (event : Json) : JsM Genesis := do
  let payload ← payloadOf event
  let publicKey := payload.prop "publicKey"
  let credentialId := payload.prop "credentialId"
  let credentialPublicKey := orNull (or (payload.prop "credentialPublicKey")
    (payload.prop "credential_public_key"))
  let counter ← toNumber (or (or (payload.prop "counter") (payload.prop "credential_counter")) zero)
  let transports := orElse (or (payload.prop "transports") (payload.prop "credential_transports"))
    (.arr [])
  let rpId := orNull (or (payload.prop "rp_id") (payload.prop "rpId"))
  let ownAlias := orNull (payload.prop "alias")
  let displayAlias := orNull (or (payload.prop "display_alias") (payload.prop "displayAlias"))
  let entityAddress ← assertEntityAddress p
    (or (payload.prop "entity_l1_address") (payload.prop "address"))
  let keyAddress ← genesisKeyAddress p payload
  let credential : List (String × Option Json) := [("publicKey", publicKey),
    ("credentialId", credentialId), ("credentialPublicKey", some credentialPublicKey),
    ("counter", some (.num counter)), ("transports", some transports), ("rp_id", some rpId),
    ("alias", some ownAlias), ("display_alias", some displayAlias)]
  let keys := keyAddress.toList.map fun key => Json.obj (Fields.ofOptions
    (("key_l1_address", some (.str key)) :: credential ++ [("role", some (.str "primary")),
      ("status", some (.str "active")), ("registered_at", event.prop "timestamp")]))
  let account := Fields.ofOptions ([("entity_l1_address", some (.str entityAddress)),
    ("address_version", some (orElse (payload.prop "address_version") (.str ENTITY_ADDRESS_VERSION))),
    ("key_l1_address", some ((keyAddress.map Json.str).getD .null)),
    ("key_address_version",
      some (orElse (payload.prop "key_address_version") (.str KEY_ADDRESS_VERSION))),
    ("handle", some (orElse (payload.prop "handle") (.str "anonymous")))] ++ credential ++ [
    ("keys", some (.arr keys)), ("balances", some initialBalances),
    ("external_addresses", some (.obj [
      ("BTC", .str (externalAddress p "bc1_" "BTC" entityAddress)),
      ("ETH", .str (externalAddress p "0x" "ETH" entityAddress))])),
    ("authority_policies", some initialPolicies), ("provenance_log", some (.arr [])),
    ("nonce", zero)])
  return { entityAddress, keyAddress, credentialId, credentialPublicKey, rpId, account }

/-- The credential of the account gets a binding of its own. -/
def bindGenesis (p : Platform) (event : Json) (genesis : Genesis) : LedgerM Unit :=
  match genesis.keyAddress with
  | none => return
  | some keyAddress =>
    if truthy genesis.credentialId && genesis.credentialPublicKey.truthy then do
      let bindings ← readStore .controller_bindings
      rebind (withoutCredential genesis.credentialId bindings)
        (controllerBindingId p genesis.entityAddress keyAddress genesis.credentialId) fun id =>
          passkeyBinding id genesis.entityAddress keyAddress genesis.credentialId
            genesis.credentialPublicKey genesis.rpId "GENESIS" (event.prop "timestamp")
    else return

/-- `ledger.treasury.btc_deposits[btc] = entityAddress`. -/
def Ledger.deposit (ledger : Ledger) (btc entityAddress : String) : Ledger :=
  { ledger with btc_deposits := ledger.btc_deposits.set btc (.str entityAddress) }

def applyGenesis (p : Platform) (event : Json) : LedgerM Unit := do
  let genesis ← genesisOf p event
  writeAccount genesis.entityAddress genesis.account
  bindGenesis p event genesis
  modify (·.deposit (externalAddress p "bc1_" "BTC" genesis.entityAddress) genesis.entityAddress)

/-! ## `PASSKEY_ADDED` -/

def entityNotFound : Error := .error "PASSKEY_ENTITY_NOT_FOUND"

/-- The account of the entity a passkey event names. -/
def passkeyAccount (p : Platform) (ledger : Ledger) (payload : Json) : JsM (String × Fields) := do
  let entityAddress ← assertEntityAddress p (payload.prop "entity_l1_address")
  match ledger.account entityAddress with
  | none => throw entityNotFound
  | some account => return (entityAddress, account)

theorem passkeyAccount_eq_ok {p : Platform} {ledger : Ledger} {payload : Json} {a : String}
    {account : Fields} :
    passkeyAccount p ledger payload = .ok (a, account) ↔
      assertEntityAddress p (payload.prop "entity_l1_address") = .ok a
        ∧ ledger.account a = some account := by
  unfold passkeyAccount
  cases ha : assertEntityAddress p (payload.prop "entity_l1_address") with
  | error e => exact ⟨nofun, nofun⟩
  | ok a' =>
    rw [ok_bind]
    cases hacc : ledger.account a' with
    | none => exact ⟨nofun, fun ⟨h, h'⟩ => by cases h; rw [hacc] at h'; cases h'⟩
    | some account' =>
      refine ⟨fun h => by cases h; exact ⟨rfl, hacc⟩, ?_⟩
      rintro ⟨h, h'⟩
      cases h
      rw [hacc] at h'
      cases h'
      rfl

/-- What a `PASSKEY_ADDED` event gives. -/
structure AddedPasskey where
  entityAddress : String
  account : Fields
  keyAddress : String
  credentialId : Json
  credentialPublicKey : Json
  rpId : Json
  keys : List Json

/-- `payload.key_l1_address`, else the address of the public key. -/
def addedKeyAddress (p : Platform) (payload credentialPublicKey : Json) : JsM String :=
  if truthy (payload.prop "key_l1_address") then
    assertKeyAddress p (payload.prop "key_l1_address")
  else keyAddressFromPublicKey p (some credentialPublicKey)

def addedPasskey (p : Platform) (ledger : Ledger) (event : Json) : JsM AddedPasskey := do
  let payload ← payloadOf event
  let (entityAddress, account) ← passkeyAccount p ledger payload
  let credentialPublicKey := orNull (or (payload.prop "credentialPublicKey")
    (payload.prop "credential_public_key"))
  let credentialId := orNull (or (payload.prop "credentialId") (payload.prop "credential_id"))
  let keyAddress ← addedKeyAddress p payload credentialPublicKey
  let counter ← toNumber (or (payload.prop "counter") zero)
  let rpId := orNull (payload.prop "rp_id")
  let keyRecord : Json := .obj (Fields.ofOptions [("key_l1_address", some (.str keyAddress)),
    ("publicKey", some credentialPublicKey), ("credentialId", some credentialId),
    ("credentialPublicKey", some credentialPublicKey), ("counter", some (.num counter)),
    ("transports", some (orElse (payload.prop "transports") (.arr []))), ("rp_id", some rpId),
    ("alias", some (orNull (account.get "alias"))),
    ("display_alias", some (orNull (account.get "display_alias"))),
    ("role", some (orElse (payload.prop "role") (.str "secondary"))),
    ("status", some (.str "active")), ("registered_at", event.prop "timestamp")])
  let keys ← arrayOrEmpty (account.get "keys") "(account.keys || []).filter"
  let others ← Js.filter (fun key => do
    let theirs ← keyCredential key
    return theirs ≠ (← toStr (some credentialId))) keys
  return { entityAddress, account, keyAddress, credentialId, credentialPublicKey, rpId,
           keys := others ++ [keyRecord] }

def addPasskey (p : Platform) (event : Json) : LedgerM Unit := do
  let added ← reading fun ledger => addedPasskey p ledger event
  writeAccount added.entityAddress (added.account.set "keys" (.arr added.keys))
  let bindings ← readStore .controller_bindings
  rebind (withoutCredential (some added.credentialId) bindings)
    (controllerBindingId p added.entityAddress added.keyAddress (some added.credentialId)) fun id =>
      passkeyBinding id added.entityAddress added.keyAddress (some added.credentialId)
        added.credentialPublicKey added.rpId "PASSKEY_ADDED" (event.prop "timestamp")

/-! ## `NATIVE_CONTROLLER_BOOTSTRAPPED` -/

/-- What a `NATIVE_CONTROLLER_BOOTSTRAPPED` event gives. -/
structure NativeController where
  entityAddress : String
  keyAddress : String
  publicKey : String
  account : Fields

def nativeController (p : Platform) (ledger : Ledger) (event : Json) : JsM NativeController := do
  let payload ← payloadOf event
  let entityAddress ← assertEntityAddress p (payload.prop "entity_l1_address")
  let keyAddress ← assertKeyAddress p (payload.prop "key_l1_address")
  let publicKey ← textOfEither (payload.prop "publicKey") (payload.prop "public_key")
  let label ← toStr (or (payload.prop "label") (or (payload.prop "device_name")
    (some (.str "Meanly One"))))
  let existing := (ledger.account entityAddress).getD []
  let keys ← arrayOrEmpty (existing.get "keys") "(existing.keys || []).filter"
  let others ← Js.filter (isOtherKey keyAddress) keys
  let keyRecord : Json := .obj (Fields.ofOptions [("key_l1_address", some (.str keyAddress)),
    ("publicKey", some (.str publicKey)), ("controller_type", some (.str "native_macos_p256")),
    ("role", some (.str (if keys.isEmpty then "primary" else "secondary"))),
    ("status", some (.str "active")), ("registered_at", event.prop "timestamp")])
  let kept (k : String) (fallback : Json) : String × Json := (k, orElse (existing.get k) fallback)
  let account := merge existing [("entity_l1_address", .str entityAddress),
    ("address", .str entityAddress), kept "address_version" (.str ENTITY_ADDRESS_VERSION),
    kept "key_l1_address" (.str keyAddress), kept "key_address_version" (.str KEY_ADDRESS_VERSION),
    kept "handle" (.str label), kept "alias" .null, kept "display_alias" (.str label),
    kept "publicKey" (.str publicKey), ("keys", .arr (others ++ [keyRecord])),
    kept "balances" initialBalances, kept "external_addresses" (.obj []),
    kept "authority_policies" initialPolicies, kept "provenance_log" (.arr []),
    kept "nonce" (.num (.int 0)), kept "identity_source" (.str "native-wallet-bootstrap")]
  return { entityAddress, keyAddress, publicKey, account }

def nativeBinding (event : Json) (native : NativeController) (id : String) : Fields :=
  Fields.ofOptions [("id", some (.str id)), ("object_type", some (.str "ControllerBinding")),
    ("entity_l1_address", some (.str native.entityAddress)),
    ("controller_l1_address", some (.str native.keyAddress)),
    ("key_l1_address", some (.str native.keyAddress)),
    ("controller_type", some (.str "native_macos_p256")),
    ("controller_public_key", some (.str native.publicKey)), ("status", some (.str "active")),
    ("source", some (.str "NATIVE_CONTROLLER_BOOTSTRAPPED")),
    ("created_at", event.prop "timestamp")]

def bootstrapNativeController (p : Platform) (event : Json) : LedgerM Unit := do
  let native ← reading fun ledger => nativeController p ledger event
  writeAccount native.entityAddress native.account
  let bindings ← readStore .controller_bindings
  let others ← Js.filter (isOtherController native.entityAddress native.keyAddress) bindings
  rebind others (controllerBindingId p native.entityAddress native.keyAddress
    (some (.str "native_macos_p256"))) (nativeBinding event native)

/-! ## Controller binding proposals -/

def isProposal (payload : Json) (proposal : Fields) : Bool :=
  strictEq (proposal.get "proposal_id") (payload.prop "proposal_id")

/-- The proposals with another id; the payload is only read when there is a proposal. -/
def otherProposals (event : Json) (proposals : List Fields) : JsM (List Fields) :=
  if proposals.isEmpty then return []
  else do
    let payload ← payloadOf event
    return proposals.filter fun proposal => !isProposal payload proposal

def pendingProposal (event : Json) : Fields :=
  assign ((spread (event.prop "payload")).set "status" (.str "pending")) "proposed_at"
    (event.prop "timestamp")

def proposeController (event : Json) : LedgerM Unit := do
  let proposals ← readStore .controller_binding_proposals
  let others ← otherProposals event proposals
  writeStore .controller_binding_proposals (others ++ [pendingProposal event])

/-- A proposal under the approval of the event. -/
def approved (event payload : Json) (proposal : Fields) : Fields :=
  (assign (assign (proposal.set "status" (.str "approved")) "approved_by_key_l1_address"
    (payload.prop "approved_by_key_l1_address")) "approved_at" (event.prop "timestamp")).set
    "approval_hash" (orNull (payload.prop "approval_hash"))

/-- `approvedProposal.credential_public_key`, else one of its other names. -/
def proposedPublicKey (proposal : Fields) : Json :=
  orNull (or (proposal.get "credential_public_key") (or (proposal.get "credentialPublicKey")
    (proposal.get "controller_public_key")))

/-- The account with the key the approved proposal gives it. -/
def approvedAccount (event : Json) (proposal : Fields) (keyAddress : String) (account : Fields) :
    JsM Fields := do
  let counter ← toNumber (or (proposal.get "counter") zero)
  let keys ← arrayOrEmpty (account.get "keys") "(account.keys || []).filter"
  let others ← Js.filter (isOtherKey keyAddress) keys
  let keyRecord : Json := .obj (Fields.ofOptions [("key_l1_address", some (.str keyAddress)),
    ("publicKey", some (proposedPublicKey proposal)),
    ("credentialId", some (orNull (proposal.get "credential_id"))),
    ("credentialPublicKey", some (proposedPublicKey proposal)), ("counter", some (.num counter)),
    ("transports",
      some (orElse (proposal.get "transports") (.arr [.str "internal", .str "hybrid"]))),
    ("rp_id", some (orNull (proposal.get "rp_id"))),
    ("controller_type", some (orElse (proposal.get "controller_type") (.str "trusted_device"))),
    ("label", some (orNull (proposal.get "label"))),
    ("role", some (.str (if keys.isEmpty then "primary" else "secondary"))),
    ("status", some (.str "active")), ("registered_at", event.prop "timestamp")])
  return account.set "keys" (.arr (others ++ [keyRecord]))

def approvedBinding (event : Json) (proposal : Fields) (entityAddress keyAddress id : String) :
    Fields :=
  Fields.ofOptions [("id", some (.str id)), ("object_type", some (.str "ControllerBinding")),
    ("entity_l1_address", some (.str entityAddress)),
    ("controller_l1_address", some (.str keyAddress)), ("key_l1_address", some (.str keyAddress)),
    ("controller_type", some (orElse (proposal.get "controller_type") (.str "trusted_device"))),
    ("credential_id", some (orNull (proposal.get "credential_id"))),
    ("credential_public_key", some (proposedPublicKey proposal)),
    ("credentialPublicKey", some (proposedPublicKey proposal)),
    ("rp_id", some (orNull (proposal.get "rp_id"))),
    ("transports", some (orElse (proposal.get "transports") (.arr []))),
    ("label", some (orNull (proposal.get "label"))), ("status", some (.str "active")),
    ("source", some (.str "CONTROLLER_BINDING_APPROVED")),
    ("proposal_id", proposal.get "proposal_id"), ("created_at", event.prop "timestamp")]

/-- The controller of an approved proposal, when its entity has an account. -/
def bindApproved (p : Platform) (event : Json) (proposal : Fields) : LedgerM Unit := do
  let entityAddress ← assertEntityAddress p (proposal.get "entity_l1_address")
  let keyAddress ← assertKeyAddress p (proposal.get "proposed_controller_key_l1_address")
  match ← readAccount entityAddress with
  | none => return
  | some account =>
    let account ← approvedAccount event proposal keyAddress account
    writeAccount entityAddress account
    let bindings ← readStore .controller_bindings
    let others ← Js.filter (isOtherController entityAddress keyAddress) bindings
    rebind others (controllerBindingId p entityAddress keyAddress
      (or (proposal.get "credential_id") (proposal.get "proposal_id")))
      (approvedBinding event proposal entityAddress keyAddress)

def approveController (p : Platform) (event : Json) : LedgerM Unit := do
  let proposals ← readStore .controller_binding_proposals
  if proposals.isEmpty then return
  else
    let payload ← payloadOf event
    writeStore .controller_binding_proposals (proposals.map fun proposal =>
      if isProposal payload proposal then approved event payload proposal else proposal)
    match (proposals.filter (isProposal payload)).getLast? with
    | none => return
    | some proposal => bindApproved p event proposal

/-! ## `PASSKEY_REVOKED` -/

/-- The record under a revocation. -/
def revoked (event payload : Json) (record : Fields) : Fields :=
  (assign (record.set "status" (.str "revoked")) "revoked_at" (event.prop "timestamp")).set
    "revocation_reason" (orElse (payload.prop "reason") (.str "user_removed"))

/-- `account.keys` with the keys of the credential revoked. -/
def revokedKeys (event payload : Json) (credentialId : String) (keys : List Json) :
    JsM (List Json) :=
  keys.mapM fun key => do
    return if (← keyCredential key) ≠ credentialId then key
      else .obj (revoked event payload (spread (some key)))

/-- The bindings of the credential, revoked. -/
def revokedBindings (event payload : Json) (credentialId : String) (bindings : List Fields) :
    JsM (List Fields) :=
  bindings.mapM fun binding => do
    return if (← strOrEmpty (binding.get "credential_id")) ≠ credentialId then binding
      else revoked event payload binding

/-- The passkey a `PASSKEY_REVOKED` event names, and the keys of its account after the event. -/
structure RevokedPasskey where
  payload : Json
  entityAddress : String
  account : Fields
  credentialId : String
  keys : List Json

def revokedPasskey (p : Platform) (ledger : Ledger) (event : Json) : JsM RevokedPasskey := do
  let payload ← payloadOf event
  let (entityAddress, account) ← passkeyAccount p ledger payload
  let credentialId ← textOfEither (payload.prop "credential_id") (payload.prop "credentialId")
  let keys ← arrayOrEmpty (account.get "keys") "(account.keys || []).map"
  let keys ← revokedKeys event payload credentialId keys
  return { payload, entityAddress, account, credentialId, keys }

/-- The credential the account itself carries is marked too. -/
def revokePrimary (entityAddress : String) (account : Fields) (isPrimary : Bool) : LedgerM Unit :=
  if isPrimary then writeAccount entityAddress (account.set "credential_status" (.str "revoked"))
  else return

def revokePasskey (p : Platform) (event : Json) : LedgerM Unit := do
  let passkey ← reading fun ledger => revokedPasskey p ledger event
  let account := passkey.account.set "keys" (.arr passkey.keys)
  writeAccount passkey.entityAddress account
  let primary ← textOfEither (account.get "credentialId") (account.get "credential_id")
  revokePrimary passkey.entityAddress account (primary == passkey.credentialId)
  let bindings ← readStore .controller_bindings
  let bindings ← revokedBindings event passkey.payload passkey.credentialId bindings
  writeStore .controller_bindings bindings

/-! ## `ACCOUNT_PROVENANCE_ADMISSION` -/

/-- The account the event admits, under its address. -/
def admittedAccount (p : Platform) (event : Json) : JsM (String × Fields) := do
  let payload ← payloadOf event
  let entityAddress ← assertEntityAddress p
    (or (payload.prop "account") (payload.prop "entity_l1_address"))
  let reconciled := payload.prop "account_state"
  throwUnless (reconciled.any Json.isObject)
    (.error "ACCOUNT_PROVENANCE_ADMISSION requires account_state")
  return (entityAddress, (spread reconciled).set "entity_l1_address" (.str entityAddress))

def admitAccount (p : Platform) (event : Json) : LedgerM Unit := do
  let (entityAddress, account) ← admittedAccount p event
  match ← readAccount entityAddress with
  | none => writeAccount entityAddress account
  | some _ => return

end SimpleL1.Node
