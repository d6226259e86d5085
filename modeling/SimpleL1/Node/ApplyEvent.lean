import SimpleL1.Node.Accounts
import SimpleL1.Node.Sellers
import SimpleL1.Js.Codec

/-!
# Applying an event

`applyEvent` is the one door into the ledger of a node: it runs the handler of
the event's type, and outside of the initial replay it then checks that the node
may write, appends the event, computes the state root and saves. Events of other
types are realm events, which go through the authority projection, or change
nothing.
-/

namespace SimpleL1.Node

open SimpleL1.Js SimpleL1.Lib SimpleL1.Lib.Effect

/-- The event types with a handler of their own. -/
inductive LedgerEventType where
  | genesis
  | passkeyAdded
  | nativeControllerBootstrapped
  | controllerBindingProposed
  | controllerBindingApproved
  | passkeyRevoked
  | transfer
  | capabilityGrantCreated
  | controlGrantCreated
  | controlGrantRevoked
  | policyArtifactRecorded
  | authorizationCreated
  | externalProofRecorded
  | marketplaceSettlementRecorded
  | marketplaceSellerUpserted
  | marketplaceListingUpserted
  | marketplaceSellerActivated
  | accountProvenanceAdmission
  deriving DecidableEq, Repr

namespace LedgerEventType

def all : List LedgerEventType :=
  [genesis, passkeyAdded, nativeControllerBootstrapped, controllerBindingProposed,
    controllerBindingApproved, passkeyRevoked, transfer, capabilityGrantCreated, controlGrantCreated,
    controlGrantRevoked, policyArtifactRecorded, authorizationCreated, externalProofRecorded,
    marketplaceSettlementRecorded, marketplaceSellerUpserted, marketplaceListingUpserted,
    marketplaceSellerActivated, accountProvenanceAdmission]

def name : LedgerEventType → String
  | genesis => "GENESIS"
  | passkeyAdded => "PASSKEY_ADDED"
  | nativeControllerBootstrapped => "NATIVE_CONTROLLER_BOOTSTRAPPED"
  | controllerBindingProposed => "CONTROLLER_BINDING_PROPOSED"
  | controllerBindingApproved => "CONTROLLER_BINDING_APPROVED"
  | passkeyRevoked => "PASSKEY_REVOKED"
  | transfer => "TRANSFER"
  | capabilityGrantCreated => "CAPABILITY_GRANT_CREATED"
  | controlGrantCreated => "CONTROL_GRANT_CREATED"
  | controlGrantRevoked => "CONTROL_GRANT_REVOKED"
  | policyArtifactRecorded => "POLICY_ARTIFACT_RECORDED"
  | authorizationCreated => "AUTHORIZATION_CREATED"
  | externalProofRecorded => "EXTERNAL_PROOF_RECORDED"
  | marketplaceSettlementRecorded => "MARKETPLACE_SETTLEMENT_RECORDED"
  | marketplaceSellerUpserted => "MARKETPLACE_SELLER_UPSERTED"
  | marketplaceListingUpserted => "MARKETPLACE_LISTING_UPSERTED"
  | marketplaceSellerActivated => "MARKETPLACE_SELLER_ACTIVATED"
  | accountProvenanceAdmission => "ACCOUNT_PROVENANCE_ADMISSION"

end LedgerEventType

/-- The type of an event with a handler of its own. -/
def ledgerEventType (event : Json) : Option LedgerEventType :=
  LedgerEventType.all.find? fun t => strictEq (event.prop "type") (some (.str t.name))

theorem ledgerEventType_of_name {event : Json} (t : LedgerEventType)
    (h : event.prop "type" = some (.str t.name)) : ledgerEventType event = some t := by
  unfold ledgerEventType
  rw [h]
  cases t <;> rfl

/-! ## The handlers -/

/-- `new Date(event.timestamp)`. -/
def eventTime (p : Platform) (event : Json) : JsM Number := newDate p (event.prop "timestamp")

def grantControl (p : Platform) (event : Json) : LedgerM Unit := do
  let input ← stampedInput event "granted_at"
  let now ← eventTime p event
  let _ ← createControlGrant p input now

def revokeControl (p : Platform) (event : Json) : LedgerM Unit := do
  let input ← stampedInput event "revoked_at"
  let now ← eventTime p event
  let _ ← revokeControlGrant p input now

def recordPolicy (p : Platform) (event : Json) : LedgerM Unit := do
  let payload ← payloadOf event
  let now ← eventTime p event
  recordPolicyArtifacts p (payload.prop "input") (payload.prop "result") now

def authorize (p : Platform) (event : Json) : LedgerM Unit := do
  let input ← stampedInput event "authorized_at"
  let now ← eventTime p event
  let _ ← buildAuthorization p input now

def recordExternalProof (p : Platform) (event : Json) : LedgerM Unit := do
  let input ← stampedInput event "observed_at"
  let now ← eventTime p event
  let _ ← createExternalProof p input now

def recordSettlement (p : Platform) (event : Json) : LedgerM Unit := do
  let input ← stampedInput event "applied_at"
  let now ← eventTime p event
  match ← executeMarketplaceSettlement p input now with
  | .ok _ => return
  | .error reason => throw (.error reason)

def recordSeller (p : Platform) (event : Json) : LedgerM Unit := do
  let input ← stampedInput event "created_at"
  let now ← eventTime p event
  upsertSeller p input now

def recordListing (p : Platform) (event : Json) : LedgerM Unit := do
  let input ← stampedInput event "created_at"
  let now ← eventTime p event
  upsertListing p input now

def launchSeller (p : Platform) (event : Json) : LedgerM Unit := do
  let payload ← payloadOf event
  let now ← eventTime p event
  activateSeller p (payload.prop "seller_id") now

def transferDisabled : Error :=
  .error "Legacy TRANSFER events are disabled: mutation requires lineage-complete execution"

def applyTyped (p : Platform) (event : Json) : LedgerEventType → LedgerM Unit
  | .genesis => applyGenesis p event
  | .passkeyAdded => addPasskey p event
  | .nativeControllerBootstrapped => bootstrapNativeController p event
  | .controllerBindingProposed => proposeController event
  | .controllerBindingApproved => approveController p event
  | .passkeyRevoked => revokePasskey p event
  | .transfer => throw transferDisabled
  | .capabilityGrantCreated => grantControl p event
  | .controlGrantCreated => grantControl p event
  | .controlGrantRevoked => revokeControl p event
  | .policyArtifactRecorded => recordPolicy p event
  | .authorizationCreated => authorize p event
  | .externalProofRecorded => recordExternalProof p event
  | .marketplaceSettlementRecorded => recordSettlement p event
  | .marketplaceSellerUpserted => recordSeller p event
  | .marketplaceListingUpserted => recordListing p event
  | .marketplaceSellerActivated => launchSeller p event
  | .accountProvenanceAdmission => admitAccount p event

/-- `applyCanonicalAuthorityProjection` on the ledger of the node. -/
def projectRealmEvent (event : Json) : LedgerM Unit := fun ledger =>
  match Realm.applyCanonicalAuthorityProjection ledger.realm event with
  | (.ok _, realm) => .ok () (ledger.withProjection realm)
  | (.error e, realm) => .error e (ledger.withProjection realm)

/-- The projection and the counter after an event. -/
def projectionOf (state : Realm.AuthorityState) (sequence : Number) (event : Json) :
    JsM (Realm.AuthorityState × Number) :=
  match Realm.isCanonicalRealmEvent event with
  | .error e => .error e
  | .ok false => .ok (state, sequence)
  | .ok true =>
    match Realm.applyAuthorityEvent state event with
    | .error e => .error e
    | .ok next => .ok (next, Realm.numOr next.lastSequence sequence)

def Ledger.withState (ledger : Ledger) (state : Realm.AuthorityState) (sequence : Number) : Ledger :=
  { ledger with current_authority_state := state, realm_canonical_sequence := sequence }

/-- A realm event replaces the projection, or throws and leaves the ledger as it is. -/
theorem projectRealmEvent_apply (event : Json) (ledger : Ledger) :
    projectRealmEvent event ledger =
      match projectionOf ledger.current_authority_state ledger.realm_canonical_sequence event with
      | .ok (state, sequence) => .ok () (ledger.withState state sequence)
      | .error e => .error e ledger := by
  have hstores : Realm.ensureAuthorityStateStores ledger.realm = ledger.realm := rfl
  have hstate : ledger.realm.current_authority_state.getD Realm.emptyAuthorityState =
    ledger.current_authority_state := rfl
  unfold projectRealmEvent projectionOf Realm.applyCanonicalAuthorityProjection
  simp only [hstores, hstate]
  cases Realm.isCanonicalRealmEvent event with
  | error e => rfl
  | ok canonical =>
    cases canonical with
    | false => rfl
    | true =>
      dsimp only
      cases Realm.applyAuthorityEvent ledger.current_authority_state event <;> rfl

/-- The `switch` over the type of the event. -/
def handleEvent (p : Platform) (event : Json) : LedgerM Unit :=
  match ledgerEventType event with
  | some t => applyTyped p event t
  | none => do
    if ← Realm.isCanonicalRealmEvent event then projectRealmEvent event

/-! ## The state root -/

/-- `Number(account?.balances?.SL ?? account?.balances?.SL1 ?? 0)`. -/
def nativeBalance (account : Fields) : JsM Number :=
  toNumber (nullish (optional (account.get "balances") "SL")
    (nullish (optional (account.get "balances") "SL1") zero))

/-- The line of one account in the text of the state. -/
def accountLine (address : String) (account : Fields) : JsM String := do
  let balance ← nativeBalance account
  let nonce ← toStr (or (account.get "nonce") zero)
  return address ++ ":" ++ balance.toString ++ ":" ++ nonce ++ "|"

def accountLines : List (String × Fields) → JsM String
  | [] => return ""
  | (address, account) :: rest => do
    let line ← accountLine address account
    let lines ← accountLines rest
    return line ++ lines

/-- The constitution the root is bound to. -/
def constitutionLine (governance : Option Governance) : String :=
  let root := match governance with
    | some g => if g.constitution_root = "" then "genesis" else g.constitution_root
    | none => "genesis"
  let epoch := (governance.map (·.current_epoch)).getD 0
  "|constitution:" ++ root ++ ":epoch:" ++ Number.toString (.int epoch)

def stateText (accounts : OrderedMap String Fields) (governance : Option Governance) : JsM String :=
  (· ++ constitutionLine governance) <$> accountLines (sortFields accounts.entries)

def calculateStateRoot (p : Platform) (ledger : Ledger) : JsM String :=
  p.sha256 <$> stateText ledger.accounts ledger.governance

/-! ## Saving -/

def writeForbidden : Error := .error "Ledger writes are forbidden on standby role."

def assertWritable (config : RealmConfig) : JsM Unit :=
  throwUnless (config.role ≠ .standby) writeForbidden

/-- The accounts as one object. -/
def accountsJson (accounts : OrderedMap String Fields) : Json :=
  .obj (accounts.entries.map fun a => (a.1, .obj a.2))

/-- The stored root, `null` when there is none. -/
def rootJson (root : Option String) : Json := (root.map Json.str).getD .null

/-- The part of the saved ledger the next start reads. -/
def ledgerJson (ledger : Ledger) : Json :=
  .obj (Fields.ofOptions [("accounts", some (accountsJson ledger.accounts)),
    ("event_log", some (.arr ledger.event_log)), ("state_root", ledger.state_root.map .str)])

/-- The part of the snapshot the next start reads. -/
def snapshotJson (ledger : Ledger) : Json :=
  .obj [("state_root", rootJson ledger.state_root), ("accounts", accountsJson ledger.accounts)]

/-- The replicated store appends the event to its log; the file store keeps no log. -/
def recordEvent (config : RealmConfig) (event : Json) (disk : Disk) : Disk :=
  match config.backend with
  | .file => disk
  | .replicated => { disk with eventLogFile := disk.eventLogFile ++ [clone event] }

def saveSnapshot (config : RealmConfig) (ledger : Ledger) : Disk :=
  match config.backend with
  | .file => { ledger.disk with ledgerFile := some (clone (ledgerJson ledger)) }
  | .replicated => { ledger.disk with
      snapshotFile := some (clone (snapshotJson ledger))
      ledgerFile := some (clone (ledgerJson ledger)) }

/-- `saveLedger`, which the store refuses on a standby. -/
def saveLedger (config : RealmConfig) : LedgerM Unit := do
  assertWritable config
  modify fun ledger => { ledger with disk := saveSnapshot config ledger }

def Ledger.append (ledger : Ledger) (event : Json) : Ledger :=
  { ledger with event_log := ledger.event_log ++ [event] }

/-- The state root of the ledger is computed and kept. -/
def updateStateRoot (p : Platform) : LedgerM Unit := do
  let root ← reading (calculateStateRoot p)
  modify fun ledger => { ledger with state_root := some root }

/-- What follows the handler of a new event. -/
def commitEvent (p : Platform) (config : RealmConfig) (event : Json) : LedgerM Unit := do
  assertWritable config
  modify (·.append event)
  updateStateRoot p
  modify fun ledger => { ledger with disk := recordEvent config event ledger.disk }
  saveLedger config

/-! ## `applyEvent` -/

/-- The log line `applyEvent` starts with reads the type and the id. -/
def logLine (event : Json) : JsM Unit := do
  let type ← member (some event) "type"
  let _ ← toStr type
  let _ ← toStr (event.prop "id")

/-- The first event with a timestamp dates the network. -/
def Ledger.born (ledger : Ledger) (event : Json) : Ledger :=
  if !truthy ledger.cluster_genesis && truthy (event.prop "timestamp") then
    { ledger with cluster_genesis := event.prop "timestamp" }
  else ledger

def applyEvent (p : Platform) (config : RealmConfig) (event : Json)
    (isInitialReplay : Bool := false) : LedgerM Unit := do
  logLine event
  modify (·.born event)
  handleEvent p event
  if isInitialReplay then return else commitEvent p config event

end SimpleL1.Node
