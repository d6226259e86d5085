import SimpleL1.Js.Canon

/-!
# The authority projection

`AuthorityState` is `CurrentAuthorityState`: the root authority, the device,
recovery and session authorities, the federation trusts and the last executed
recovery. Identifiers are strings (every handler writes them through
`String(..)`); fields copied from an event as they are (timestamps, event ids,
keys) are JSON values. A field an entry gets only later is an `Option`.
-/

namespace SimpleL1.Realm

open SimpleL1.Js

inductive Status where
  | active
  | revoked
  | expired
  | executed
  deriving DecidableEq, Repr

structure RootAuthority where
  id : String
  authorityRef : String
  status : Status
  issuedAt : Json
  issuedEvent : Json

structure Device where
  id : String
  authority : String
  authorityRef : String
  status : Status
  publicKey : Json
  issuedAt : Json
  issuedEvent : Json
  revokedAt : Json
  revokedEvent : Json

structure RecoveryAuthority where
  id : String
  authorityRef : String
  status : Status
  publicKey : Json
  issuedBy : Json
  issuedAt : Json
  issuedEvent : Json
  revokedEvent : Json
  revokedAt : Option Json

structure Session where
  id : String
  authorityRef : String
  deviceRef : Json
  status : Status
  issuedAt : Json
  issuedEvent : Json
  expiresAt : Json
  expiredAt : Option Json
  expiredEvent : Option Json

structure FederationTrust where
  realmId : String
  status : Status
  trustedRootAuthority : Json
  allowedClaimScopes : Json
  trustScope : Json
  policyId : Json
  remoteEventHead : Json
  establishedAt : Json
  establishedEvent : Json
  revokedAt : Option Json
  revokedEvent : Option Json

structure LastRecovery where
  executedAt : Json
  executedEvent : Json
  recoveryRef : Json
  recoveryAuthority : Json
  oldDeviceId : Json
  oldDeviceRef : Json
  newDeviceId : Json
  newDeviceAuthorityRef : Json
  status : Status

structure AuthorityState where
  rootAuthority : Option RootAuthority
  recoveryAuthorities : List RecoveryAuthority
  devices : List Device
  sessions : List Session
  federationTrusts : List FederationTrust
  lastSequence : Number
  lastRecovery : Option LastRecovery

def emptyAuthorityState : AuthorityState where
  rootAuthority := none
  recoveryAuthorities := []
  devices := []
  sessions := []
  federationTrusts := []
  lastSequence := .int 0
  lastRecovery := none

/-- The normalised envelope of a proposal. -/
structure Envelope where
  type : String
  signer : String
  authority_reference : String
  sequence : Number
  timestamp : Json
  previous_event_hash : Json

def Envelope.toJson (e : Envelope) : Json :=
  .obj [("type", .str e.type), ("signer", .str e.signer),
    ("authority_reference", .str e.authority_reference), ("sequence", .num e.sequence),
    ("timestamp", e.timestamp), ("previous_event_hash", e.previous_event_hash)]

/-! ## Lookups -/

/-- `device.id === key || device.authority === key || device.authorityRef === key`. -/
def Device.named (device : Device) (key : String) : Bool :=
  device.id == key || device.authority == key || device.authorityRef == key

def RecoveryAuthority.named (authority : RecoveryAuthority) (key : String) : Bool :=
  authority.id == key || authority.authorityRef == key

def RootAuthority.named (root : RootAuthority) (key : String) : Bool :=
  root.id == key || root.authorityRef == key

def Session.named (session : Session) (key : String) : Bool :=
  session.id == key || session.authorityRef == key

/-- The first device with the name `key`, which the callers get from `String(ref || '')`. -/
def findDevice (state : AuthorityState) (key : String) : Option Device :=
  state.devices.find? (·.named key)

def findRecoveryAuthority (state : AuthorityState) (key : String) : Option RecoveryAuthority :=
  state.recoveryAuthorities.find? (·.named key)

def isActiveRoot (state : AuthorityState) (signerRef : String) : Bool :=
  match state.rootAuthority with
  | none => false
  | some root => root.status == .active && root.named signerRef

def isActiveDevice (state : AuthorityState) (signerRef : String) : Bool :=
  match findDevice state signerRef with
  | none => false
  | some device => device.status == .active

def isActiveRecoveryAuthority (state : AuthorityState) (signerRef : String) : Bool :=
  match findRecoveryAuthority state signerRef with
  | none => false
  | some authority => authority.status == .active

inductive AuthorityPolicy where
  | anyInitialRoot
  | root
  | recovery
  | rootOrRecovery
  | rootOrDevice
  | rootOrDeviceOrRecovery
  deriving DecidableEq, Repr

def canSignerSatisfyAuthorityPolicy (state : AuthorityState) (signer : String) :
    AuthorityPolicy → Bool
  | .anyInitialRoot => state.rootAuthority.isNone && signer != ""
  | .root => isActiveRoot state signer
  | .recovery => isActiveRecoveryAuthority state signer
  | .rootOrRecovery => isActiveRoot state signer || isActiveRecoveryAuthority state signer
  | .rootOrDevice => isActiveRoot state signer || isActiveDevice state signer
  | .rootOrDeviceOrRecovery =>
    isActiveRoot state signer || isActiveDevice state signer || isActiveRecoveryAuthority state signer

/-! ## The sequence counter -/

/-- `x || y` on numbers. -/
def numOr (x y : Number) : Number := if x.truthy then x else y

def cloneProjection (projection : AuthorityState) : AuthorityState :=
  { projection with lastSequence := numOr projection.lastSequence (.int 0) }

def withSequence (projection : AuthorityState) (envelope : Json) : JsM AuthorityState := do
  let next := cloneProjection projection
  let sequence ← toNumber (envelope.prop "sequence")
  return if sequence.isFinite then { next with lastSequence := sequence } else next

end SimpleL1.Realm
