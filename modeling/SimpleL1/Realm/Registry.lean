import SimpleL1.Realm.State

/-!
# The realm event registry

One contract for each of the twelve event types: the payload fields it checks,
the authority its signer needs, the transition rule the validator runs on the
proposal, the migration adapter replay runs on the stored payload, and the
handler that applies the event to the projection. Handlers read the envelope and
the event as stored, the transition rules read the normalised proposal.
-/

namespace SimpleL1.Realm

open SimpleL1.Js

inductive EventType where
  | rootAuthorityCreated
  | deviceKeyIssued
  | deviceKeyRevoked
  | sessionAuthorityIssued
  | sessionAuthorityExpired
  | authorityRotated
  | recoveryAuthorityIssued
  | recoveryAuthorityRevoked
  | recoveryExecuted
  | federationTrustEstablished
  | federationTrustUpdated
  | federationTrustRevoked
  deriving DecidableEq, Repr

namespace EventType

def name : EventType → String
  | rootAuthorityCreated => "ROOT_AUTHORITY_CREATED"
  | deviceKeyIssued => "DEVICE_KEY_ISSUED"
  | deviceKeyRevoked => "DEVICE_KEY_REVOKED"
  | sessionAuthorityIssued => "SESSION_AUTHORITY_ISSUED"
  | sessionAuthorityExpired => "SESSION_AUTHORITY_EXPIRED"
  | authorityRotated => "AUTHORITY_ROTATED"
  | recoveryAuthorityIssued => "RECOVERY_AUTHORITY_ISSUED"
  | recoveryAuthorityRevoked => "RECOVERY_AUTHORITY_REVOKED"
  | recoveryExecuted => "RECOVERY_EXECUTED"
  | federationTrustEstablished => "FEDERATION_TRUST_ESTABLISHED"
  | federationTrustUpdated => "FEDERATION_TRUST_UPDATED"
  | federationTrustRevoked => "FEDERATION_TRUST_REVOKED"

def all : List EventType :=
  [rootAuthorityCreated, deviceKeyIssued, deviceKeyRevoked, sessionAuthorityIssued,
    sessionAuthorityExpired, authorityRotated, recoveryAuthorityIssued, recoveryAuthorityRevoked,
    recoveryExecuted, federationTrustEstablished, federationTrustUpdated, federationTrustRevoked]

theorem mem_all (t : EventType) : t ∈ all := by cases t <;> decide

theorem name_injective {t u : EventType} (h : t.name = u.name) : t = u := by
  cases t <;> cases u <;> first | rfl | exact absurd h (by decide)

theorem name_ne_empty (t : EventType) : t.name ≠ "" := by cases t <;> decide

end EventType

/-! ## Reading an event -/

/-- `envelope.timestamp || event.timestamp || null`. -/
def timestampOf (envelope event : Json) : Json :=
  orNull (or (envelope.prop "timestamp") (event.prop "timestamp"))

/-- `event.id || null`. -/
def eventIdOf (event : Json) : Json := orNull (event.prop "id")

def targetDeviceRef (authority_reference : Option Json) (payload : Fields) : Option Json :=
  or (payload.get "device_id") (or (payload.get "authority_ref")
    (or (payload.get "device_authority") authority_reference))

def targetRecoveryAuthorityRef (authority_reference : Option Json) (payload : Fields) :
    Option Json :=
  or (payload.get "recovery_authority_id") (or (payload.get "authority_ref")
    (or (payload.get "recovery_authority_ref") authority_reference))

/-! ## Migration adapters -/

def identityMigrationAdapter (payload : Json) : Fields := payload.spread

/-- `if (!next.field && next.source) next.field = next.source`. -/
def fillFrom (next : Fields) (field source : String) : Fields :=
  match next.get source with
  | some v => if !truthy (next.get field) && v.truthy then next.set field v else next
  | none => next

theorem fillFrom_of_absent {next : Fields} {source : String} (h : next.get source = none)
    (field : String) : fillFrom next field source = next := by
  simp only [fillFrom, h]

theorem get_fillFrom_of_truthy {next : Fields} {k : String} (h : truthy (next.get k) = true)
    (field source : String) : (fillFrom next field source).get k = next.get k := by
  unfold fillFrom
  split
  · next v hv =>
    split
    · next hc =>
      -- only an empty field is filled, and `k` is not empty
      rw [Fields.get_set]
      split
      · next hk =>
        subst hk
        simp [h] at hc
      · rfl
    · rfl
  · rfl

def deviceKeyIssuedMigrationAdapter (payload : Json) : Fields :=
  let next := fillFrom payload.spread "device_id" "device"
  let next := fillFrom next "public_key" "publicKey"
  let next := fillFrom next "authority_ref" "device_authority"
  if (next.get "capabilities").any Json.isArray then next else next.set "capabilities" (.arr [])

/-- The adapter keeps a field that has a value. -/
theorem get_deviceKeyIssued_migrated {payload : Fields} {k x : String}
    (h : payload.get k = some (.str x)) (hne : x ≠ "") (hk : k ≠ "capabilities") :
    (deviceKeyIssuedMigrationAdapter (.obj payload)).get k = some (.str x) := by
  have htruthy : truthy (payload.get k) = true := by simp [h, hne]
  have hfill : ((fillFrom (fillFrom (fillFrom payload "device_id" "device") "public_key" "publicKey")
      "authority_ref" "device_authority")).get k = some (.str x) := by
    have h1 := get_fillFrom_of_truthy htruthy "device_id" "device"
    have h2 := get_fillFrom_of_truthy (h1 ▸ htruthy) "public_key" "publicKey"
    have h3 := get_fillFrom_of_truthy (h2 ▸ h1 ▸ htruthy) "authority_ref" "device_authority"
    rw [h3, h2, h1, h]
  unfold deviceKeyIssuedMigrationAdapter
  dsimp only [Json.spread_obj]
  generalize fillFrom (fillFrom (fillFrom payload "device_id" "device") "public_key" "publicKey")
    "authority_ref" "device_authority" = next at hfill ⊢
  split
  · exact hfill
  · rw [Fields.get_set, if_neg hk]; exact hfill

def deviceKeyRevokedMigrationAdapter (payload : Json) : Fields :=
  let next := fillFrom payload.spread "device_id" "device"
  fillFrom next "authority_ref" "device_authority"

/-! ## Handlers -/

/-- ``String(a || b || `prefix:${c}`)``. -/
def refOr (a : Option Json) (pre : String) (c : Option Json) : JsM String :=
  if truthy a then toStr a else (toStr c).map (pre ++ ·)

section
variable (projection : AuthorityState) (event envelope : Json) (payload : Fields)

def applyRootAuthorityCreated : JsM AuthorityState := do
  let next ← withSequence projection envelope
  let authorityRef ← toStr (or (envelope.prop "authority_reference")
    (or (envelope.prop "signer") (or (payload.get "authority_id") (some (.str "root")))))
  let id ← toStr (or (payload.get "root_id") (some (.str authorityRef)))
  return { next with
    rootAuthority := some {
      id := id
      authorityRef := authorityRef
      status := .active
      issuedAt := timestampOf envelope event
      issuedEvent := eventIdOf event } }

def applyDeviceKeyIssued : JsM AuthorityState := do
  let next ← withSequence projection envelope
  let authorityRef ← refOr (or (payload.get "authority_ref") (payload.get "device_authority"))
    "device:" (payload.get "device_id")
  let deviceId ← toStr (or (payload.get "device_id") (some (.str authorityRef)))
  return { next with
    devices :=
      next.devices.filter (fun device => device.id != deviceId && device.authorityRef != authorityRef)
        ++ [{
          id := deviceId
          authority := authorityRef
          authorityRef := authorityRef
          status := .active
          publicKey := orNull (payload.get "public_key")
          issuedAt := timestampOf envelope event
          issuedEvent := eventIdOf event
          revokedAt := .null
          revokedEvent := .null }] }

def applyDeviceKeyRevoked : JsM AuthorityState := do
  let next ← withSequence projection envelope
  let target ← strOrEmpty (targetDeviceRef (envelope.prop "authority_reference") payload)
  return { next with
    devices := next.devices.map fun device =>
      if device.named target then
        { device with
          status := .revoked
          revokedAt := timestampOf envelope event
          revokedEvent := eventIdOf event }
      else device }

def applySessionAuthorityIssued : JsM AuthorityState := do
  let next ← withSequence projection envelope
  let sessionId ← toStr (or (payload.get "session_id")
    (some (.str ("session_" ++ Nat.repr (next.sessions.length + 1)))))
  let authorityRef ← toStr (or (payload.get "authority_ref")
    (or (payload.get "session_authority") (some (.str sessionId))))
  return { next with
    sessions := next.sessions.filter (fun session => session.id != sessionId) ++ [{
      id := sessionId
      authorityRef := authorityRef
      deviceRef := orNull (payload.get "device_ref")
      status := .active
      issuedAt := timestampOf envelope event
      issuedEvent := eventIdOf event
      expiresAt := orNull (payload.get "expires_at")
      expiredAt := none
      expiredEvent := none }] }

def applySessionAuthorityExpired : JsM AuthorityState := do
  let next ← withSequence projection envelope
  let target ← strOrEmpty (or (payload.get "session_id") (payload.get "authority_ref"))
  return { next with
    sessions := next.sessions.map fun session =>
      if session.named target then
        { session with
          status := .expired
          expiredAt := some (timestampOf envelope event)
          expiredEvent := some (eventIdOf event) }
      else session }

/-- The source first marks the old root as rotated; that copy is overwritten before it is read. -/
def applyAuthorityRotated : JsM AuthorityState := do
  let next ← withSequence projection envelope
  let newAuthorityRef ← strOrEmpty (or (payload.get "new_authority_ref")
    (envelope.prop "authority_reference"))
  let id ← toStr (or (payload.get "new_root_id") (some (.str newAuthorityRef)))
  return { next with
    rootAuthority := some {
      id := id
      authorityRef := newAuthorityRef
      status := .active
      issuedAt := timestampOf envelope event
      issuedEvent := eventIdOf event } }

def applyRecoveryAuthorityIssued : JsM AuthorityState := do
  let next ← withSequence projection envelope
  let authorityRef ← refOr (or (payload.get "authority_ref") (payload.get "recovery_authority_ref"))
    "recovery:" (payload.get "recovery_authority_id")
  let recoveryAuthorityId ← toStr (or (payload.get "recovery_authority_id")
    (some (.str authorityRef)))
  return { next with
    recoveryAuthorities :=
      next.recoveryAuthorities.filter (fun authority =>
        authority.id != recoveryAuthorityId && authority.authorityRef != authorityRef) ++ [{
          id := recoveryAuthorityId
          authorityRef := authorityRef
          status := .active
          publicKey := orNull (payload.get "public_key")
          issuedBy := orNull (envelope.prop "signer")
          issuedAt := timestampOf envelope event
          issuedEvent := eventIdOf event
          revokedEvent := .null
          revokedAt := none }] }

def applyRecoveryAuthorityRevoked : JsM AuthorityState := do
  let next ← withSequence projection envelope
  let target ← strOrEmpty (targetRecoveryAuthorityRef (envelope.prop "authority_reference") payload)
  return { next with
    recoveryAuthorities := next.recoveryAuthorities.map fun authority =>
      if authority.named target then
        { authority with
          status := .revoked
          revokedAt := some (timestampOf envelope event)
          revokedEvent := eventIdOf event }
      else authority }

def applyRecoveryExecuted : JsM AuthorityState := do
  let next ← withSequence projection envelope
  return { next with
    lastRecovery := some {
      executedAt := timestampOf envelope event
      executedEvent := eventIdOf event
      recoveryRef := orNull (or (payload.get "recovery_ref") (envelope.prop "authority_reference"))
      recoveryAuthority := orNull (envelope.prop "signer")
      oldDeviceId := orNull (payload.get "old_device_id")
      oldDeviceRef := orNull (or (payload.get "old_device_ref") (payload.get "old_device_id"))
      newDeviceId := orNull (payload.get "new_device_id")
      newDeviceAuthorityRef := orNull (payload.get "new_device_authority_ref")
      status := .executed } }

def applyFederationTrustEstablished : JsM AuthorityState := do
  let next ← withSequence projection envelope
  let realmId ← strOrEmpty (or (payload.get "remote_realm_id") (payload.get "realm_id"))
  return { next with
    federationTrusts := next.federationTrusts.filter (fun trust => trust.realmId != realmId) ++ [{
      realmId := realmId
      status := .active
      trustedRootAuthority := orNull (payload.get "trusted_root_authority")
      allowedClaimScopes :=
        match payload.get "allowed_claim_scopes" with
        | some (.arr xs) => .arr xs
        | _ => .arr []
      trustScope := orNull (or (payload.get "trust_scope") (some (.str "claims")))
      policyId := orNull (payload.get "policy_id")
      remoteEventHead := orNull (payload.get "remote_event_head")
      establishedAt := timestampOf envelope event
      establishedEvent := eventIdOf event
      revokedAt := none
      revokedEvent := none }] }

def applyFederationTrustUpdated : JsM AuthorityState :=
  applyFederationTrustEstablished projection event envelope payload

def applyFederationTrustRevoked : JsM AuthorityState := do
  let next ← withSequence projection envelope
  let realmId ← strOrEmpty (or (payload.get "remote_realm_id") (payload.get "realm_id"))
  return { next with
    federationTrusts := next.federationTrusts.map fun trust =>
      if trust.realmId == realmId then
        { trust with
          status := .revoked
          revokedAt := some (timestampOf envelope event)
          revokedEvent := some (eventIdOf event) }
      else trust }

end

/-! ## Transition rules -/

section
variable (currentState : AuthorityState) (envelope : Envelope) (payload : Fields)

def noAdditionalTransitionValidation : JsM (List String) := return []

def validateRootAuthorityCreated : JsM (List String) :=
  return if currentState.rootAuthority.isSome then ["ROOT_AUTHORITY_ALREADY_EXISTS"] else []

def validateDeviceKeyIssued : JsM (List String) :=
  return if isActiveRoot currentState envelope.signer then []
  else match currentState.lastRecovery with
    | none => ["RECOVERY_CONTEXT_REQUIRED"]
    | some recovery =>
      if recovery.status ≠ .executed then ["RECOVERY_CONTEXT_REQUIRED"]
      else if !strictEq (some recovery.recoveryRef) (payload.get "recovery_ref") then
        ["RECOVERY_CONTEXT_MISMATCH"]
      else if !strictEq (some recovery.newDeviceId) (payload.get "device_id") then
        ["RECOVERY_REPLACEMENT_DEVICE_MISMATCH"]
      else []

/-- `DEVICE_REVOKE_TARGET_NOT_SELF`: a plain device names itself, by one of its names or as signer. -/
def revokeTargetNotSelf (target : Option Json) : Bool :=
  isActiveDevice currentState envelope.signer
    && !isActiveRoot currentState envelope.signer
    && !isActiveRecoveryAuthority currentState envelope.signer
    && !(match findDevice currentState envelope.signer with
      | none => false
      | some signerDevice =>
        strictEq (some (.str signerDevice.id)) target
          || strictEq (some (.str signerDevice.authorityRef)) target
          || strictEq (some (.str signerDevice.authority)) target
          || strictEq (some (.str envelope.signer)) target)

def validateDeviceKeyRevoked : JsM (List String) := do
  let target := targetDeviceRef (some (.str envelope.authority_reference)) payload
  match findDevice currentState (← strOrEmpty target) with
  | none => return ["DEVICE_AUTHORITY_NOT_FOUND"]
  | some device =>
    if device.status = .revoked then return ["DEVICE_AUTHORITY_ALREADY_REVOKED"]
    else if revokeTargetNotSelf currentState envelope target then
      return ["DEVICE_REVOKE_TARGET_NOT_SELF"]
    else if isActiveRecoveryAuthority currentState envelope.signer then
      match currentState.lastRecovery with
      | none => return ["RECOVERY_CONTEXT_REQUIRED"]
      | some recovery =>
        if recovery.status ≠ .executed then return ["RECOVERY_CONTEXT_REQUIRED"]
        else if !strictEq (some recovery.recoveryRef) (payload.get "recovery_ref") then
          return ["RECOVERY_CONTEXT_MISMATCH"]
        else if !strictEq (some recovery.oldDeviceId) (some (.str device.id))
            && !strictEq (some recovery.oldDeviceRef) (some (.str device.authorityRef)) then
          return ["RECOVERY_REVOKE_TARGET_MISMATCH"]
        else return []
    else return []

def validateRecoveryAuthorityIssued : JsM (List String) := do
  let target ← strOrEmpty
    (targetRecoveryAuthorityRef (some (.str envelope.authority_reference)) payload)
  match findRecoveryAuthority currentState target with
  | none => return []
  | some existing =>
    return if existing.status = .active then ["RECOVERY_AUTHORITY_ALREADY_ACTIVE"] else []

def validateRecoveryAuthorityRevoked : JsM (List String) := do
  let target ← strOrEmpty
    (targetRecoveryAuthorityRef (some (.str envelope.authority_reference)) payload)
  match findRecoveryAuthority currentState target with
  | none => return ["RECOVERY_AUTHORITY_NOT_FOUND"]
  | some authority =>
    return if authority.status = .revoked then ["RECOVERY_AUTHORITY_ALREADY_REVOKED"] else []

def validateRecoveryExecuted : JsM (List String) := do
  let old ← strOrEmpty (or (payload.get "old_device_id") (payload.get "old_device_ref"))
  match findDevice currentState old with
  | none => return ["RECOVERY_OLD_DEVICE_NOT_FOUND"]
  | some oldDevice =>
    if oldDevice.status ≠ .active then return ["RECOVERY_OLD_DEVICE_NOT_ACTIVE"]
    else
      let new ← strOrEmpty (or (payload.get "new_device_id") (payload.get "new_device_authority_ref"))
      match findDevice currentState new with
      | none => return []
      | some replacement =>
        return if replacement.status = .active then ["RECOVERY_REPLACEMENT_ALREADY_ACTIVE"] else []

end

/-! ## Contracts -/

inductive FieldType where
  | string
  | array
  deriving DecidableEq, Repr

structure PayloadContract where
  required : List String
  requireOneOf : Option (List String) := none
  fields : List (String × FieldType)

structure RealmEventContract where
  canonicalName : String
  version : Number := .int 1
  payloadContract : PayloadContract
  requiredAuthority : AuthorityPolicy
  /-- The adapter for the contract's own version. -/
  migrationAdapter : Json → Fields := identityMigrationAdapter
  validateTransition : AuthorityState → Envelope → Fields → JsM (List String) :=
    fun _ _ _ => noAdditionalTransitionValidation
  apply : AuthorityState → Json → Json → Fields → JsM AuthorityState
  projectionVersion : Number := .int 1

/-- `SHARED_ENVELOPE_CONTRACT.required`, the envelope contract of every type. -/
def sharedEnvelopeRequired : List String :=
  ["type", "signer", "authority_reference", "sequence", "timestamp"]

def realmEventRegistry : EventType → RealmEventContract
  | .rootAuthorityCreated => {
      canonicalName := "ROOT_AUTHORITY_CREATED"
      payloadContract := {
        required := ["root_id"]
        fields := [("root_id", .string), ("public_key", .string), ("label", .string)] }
      requiredAuthority := .anyInitialRoot
      validateTransition := fun currentState _ _ => validateRootAuthorityCreated currentState
      apply := applyRootAuthorityCreated }
  | .deviceKeyIssued => {
      canonicalName := "DEVICE_KEY_ISSUED"
      payloadContract := {
        required := ["device_id", "public_key"]
        fields := [("device_id", .string), ("public_key", .string), ("authority_ref", .string),
          ("capabilities", .array)] }
      requiredAuthority := .rootOrRecovery
      migrationAdapter := deviceKeyIssuedMigrationAdapter
      validateTransition := validateDeviceKeyIssued
      apply := applyDeviceKeyIssued }
  | .deviceKeyRevoked => {
      canonicalName := "DEVICE_KEY_REVOKED"
      payloadContract := {
        required := []
        requireOneOf := some ["device_id", "authority_ref", "device_authority"]
        fields := [("device_id", .string), ("authority_ref", .string),
          ("device_authority", .string), ("reason", .string)] }
      requiredAuthority := .rootOrDeviceOrRecovery
      migrationAdapter := deviceKeyRevokedMigrationAdapter
      validateTransition := validateDeviceKeyRevoked
      apply := applyDeviceKeyRevoked }
  | .sessionAuthorityIssued => {
      canonicalName := "SESSION_AUTHORITY_ISSUED"
      payloadContract := {
        required := ["session_id"]
        fields := [("session_id", .string), ("device_ref", .string), ("authority_ref", .string),
          ("expires_at", .string)] }
      requiredAuthority := .rootOrDevice
      apply := applySessionAuthorityIssued }
  | .sessionAuthorityExpired => {
      canonicalName := "SESSION_AUTHORITY_EXPIRED"
      payloadContract := {
        required := []
        requireOneOf := some ["session_id", "authority_ref"]
        fields := [("session_id", .string), ("authority_ref", .string)] }
      requiredAuthority := .rootOrDevice
      apply := applySessionAuthorityExpired }
  | .authorityRotated => {
      canonicalName := "AUTHORITY_ROTATED"
      payloadContract := {
        required := ["new_authority_ref"]
        fields := [("new_authority_ref", .string), ("new_root_id", .string),
          ("previous_authority_ref", .string)] }
      requiredAuthority := .root
      apply := applyAuthorityRotated }
  | .recoveryAuthorityIssued => {
      canonicalName := "RECOVERY_AUTHORITY_ISSUED"
      payloadContract := {
        required := ["recovery_authority_id", "public_key"]
        fields := [("recovery_authority_id", .string), ("public_key", .string),
          ("authority_ref", .string), ("label", .string)] }
      requiredAuthority := .root
      validateTransition := validateRecoveryAuthorityIssued
      apply := applyRecoveryAuthorityIssued }
  | .recoveryAuthorityRevoked => {
      canonicalName := "RECOVERY_AUTHORITY_REVOKED"
      payloadContract := {
        required := []
        requireOneOf := some ["recovery_authority_id", "authority_ref", "recovery_authority_ref"]
        fields := [("recovery_authority_id", .string), ("authority_ref", .string),
          ("recovery_authority_ref", .string), ("reason", .string)] }
      requiredAuthority := .root
      validateTransition := validateRecoveryAuthorityRevoked
      apply := applyRecoveryAuthorityRevoked }
  | .recoveryExecuted => {
      canonicalName := "RECOVERY_EXECUTED"
      payloadContract := {
        required := ["recovery_ref", "old_device_id", "new_device_id"]
        fields := [("recovery_ref", .string), ("old_device_id", .string),
          ("old_device_ref", .string), ("new_device_id", .string),
          ("new_device_authority_ref", .string), ("reason", .string)] }
      requiredAuthority := .recovery
      validateTransition := fun currentState _ payload => validateRecoveryExecuted currentState payload
      apply := applyRecoveryExecuted }
  | .federationTrustEstablished => {
      canonicalName := "FEDERATION_TRUST_ESTABLISHED"
      payloadContract := {
        required := ["remote_realm_id"]
        fields := [("remote_realm_id", .string), ("trusted_root_authority", .string),
          ("allowed_claim_scopes", .array), ("trust_scope", .string), ("policy_id", .string),
          ("remote_event_head", .string)] }
      requiredAuthority := .root
      apply := applyFederationTrustEstablished }
  | .federationTrustUpdated => {
      canonicalName := "FEDERATION_TRUST_UPDATED"
      payloadContract := {
        required := ["remote_realm_id"]
        fields := [("remote_realm_id", .string), ("trusted_root_authority", .string),
          ("allowed_claim_scopes", .array), ("trust_scope", .string), ("policy_id", .string),
          ("remote_event_head", .string)] }
      requiredAuthority := .root
      apply := applyFederationTrustUpdated }
  | .federationTrustRevoked => {
      canonicalName := "FEDERATION_TRUST_REVOKED"
      payloadContract := {
        required := ["remote_realm_id"]
        fields := [("remote_realm_id", .string), ("reason", .string)] }
      requiredAuthority := .root
      apply := applyFederationTrustRevoked }

/-! ## Looking up a contract -/

/-- What `REALM_EVENT_REGISTRY[name]` finds: a contract, or a property every object
inherits from `Object.prototype`, which has none of a contract's fields. -/
inductive RegistryEntry where
  | contract (type : EventType)
  | inherited
  deriving DecidableEq, Repr

def objectPrototypeKeys : List String :=
  ["constructor", "__defineGetter__", "__defineSetter__", "hasOwnProperty", "__lookupGetter__",
    "__lookupSetter__", "isPrototypeOf", "propertyIsEnumerable", "toString", "valueOf",
    "__proto__", "toLocaleString"]

def registryLookup (name : String) : Option RegistryEntry :=
  match EventType.all.find? (·.name == name) with
  | some t => some (.contract t)
  | none => if name ∈ objectPrototypeKeys then some .inherited else none

def getRealmEventContract (type : Option Json) : JsM (Option RegistryEntry) :=
  (strOrEmpty type).map registryLookup

def hasRealmEventContract (type : Option Json) : JsM Bool :=
  (getRealmEventContract type).map Option.isSome

theorem registryLookup_name (t : EventType) : registryLookup t.name = some (.contract t) := by
  cases t <;> decide

theorem registryLookup_eq_contract {name : String} {t : EventType} :
    registryLookup name = some (.contract t) ↔ name = t.name := by
  constructor
  · intro h
    unfold registryLookup at h
    split at h
    · next u hu =>
      cases h
      have := List.find?_some hu
      exact (beq_iff_eq.mp this).symm
    · split at h <;> cases h
  · rintro rfl; exact registryLookup_name t

/-! ## Interpreting a stored event -/

def eventVersion (event envelope : Json) : JsM Number :=
  toNumber (nullish (event.prop "version")
    (nullish (envelope.prop "version") (some (.num (.int 1)))))

def unsupportedEventVersion (type : String) (version : Number) : Error :=
  .error ("REPLAY_UNSUPPORTED_EVENT_VERSION:" ++ type ++ ":version_" ++ version.toString)

/-- Every contract has an adapter for its own version only; an inherited property has none. -/
def interpretRealmEvent (entry : RegistryEntry) (event envelope payload : Json) : JsM Fields := do
  let version ← eventVersion event envelope
  match entry with
  | .contract t =>
    let contract := realmEventRegistry t
    if version = contract.version then return contract.migrationAdapter payload
    else throw (unsupportedEventVersion contract.canonicalName version)
  | .inherited => throw (unsupportedEventVersion "undefined" version)

end SimpleL1.Realm
