import SimpleL1.Realm.Projection

/-!
# What an event changes

A handler first reads: the sequence number, the names and values of one
`Change`. Then it applies the change with the event's `Stamp` (time and id) to
the projection. `apply_eq` says this of all twelve handlers, so that a fact
about the projection is a fact about ten kinds of change.
-/

namespace SimpleL1.Realm

open SimpleL1.Js

/-- The time and the id an event leaves on the entries it writes. -/
structure Stamp where
  time : Json
  event : Json

def stampOf (envelope event : Json) : Stamp := ⟨timestampOf envelope event, eventIdOf event⟩

inductive Change where
  | establishRoot (id authorityRef : String)
  | issueDevice (id authorityRef : String) (publicKey : Json)
  | revokeDevices (target : String)
  | issueSession (id authorityRef : String) (deviceRef expiresAt : Json)
  | expireSessions (target : String)
  | issueRecovery (id authorityRef : String) (publicKey issuedBy : Json)
  | revokeRecovery (target : String)
  | executeRecovery (recoveryRef recoveryAuthority oldDeviceId oldDeviceRef newDeviceId
      newDeviceAuthorityRef : Json)
  | establishTrust (realmId : String) (trustedRootAuthority allowedClaimScopes trustScope policyId
      remoteEventHead : Json)
  | revokeTrust (realmId : String)

def Device.revoke (stamp : Stamp) (device : Device) : Device :=
  { device with status := .revoked, revokedAt := stamp.time, revokedEvent := stamp.event }

def Session.expire (stamp : Stamp) (session : Session) : Session :=
  { session with
    status := .expired, expiredAt := some stamp.time, expiredEvent := some stamp.event }

def RecoveryAuthority.revoke (stamp : Stamp) (authority : RecoveryAuthority) : RecoveryAuthority :=
  { authority with
    status := .revoked, revokedAt := some stamp.time, revokedEvent := stamp.event }

def FederationTrust.revoke (stamp : Stamp) (trust : FederationTrust) : FederationTrust :=
  { trust with
    status := .revoked, revokedAt := some stamp.time, revokedEvent := some stamp.event }

namespace Change

/-! ## The entries a change writes -/

def newRoot (stamp : Stamp) (id authorityRef : String) : RootAuthority where
  id := id
  authorityRef := authorityRef
  status := .active
  issuedAt := stamp.time
  issuedEvent := stamp.event

def newDevice (stamp : Stamp) (id authorityRef : String) (publicKey : Json) : Device where
  id := id
  authority := authorityRef
  authorityRef := authorityRef
  status := .active
  publicKey := publicKey
  issuedAt := stamp.time
  issuedEvent := stamp.event
  revokedAt := .null
  revokedEvent := .null

def newSession (stamp : Stamp) (id authorityRef : String) (deviceRef expiresAt : Json) :
    Session where
  id := id
  authorityRef := authorityRef
  deviceRef := deviceRef
  status := .active
  issuedAt := stamp.time
  issuedEvent := stamp.event
  expiresAt := expiresAt
  expiredAt := none
  expiredEvent := none

def newRecovery (stamp : Stamp) (id authorityRef : String) (publicKey issuedBy : Json) :
    RecoveryAuthority where
  id := id
  authorityRef := authorityRef
  status := .active
  publicKey := publicKey
  issuedBy := issuedBy
  issuedAt := stamp.time
  issuedEvent := stamp.event
  revokedEvent := .null
  revokedAt := none

def newTrust (stamp : Stamp) (realmId : String) (trustedRootAuthority allowedClaimScopes trustScope
    policyId remoteEventHead : Json) : FederationTrust where
  realmId := realmId
  status := .active
  trustedRootAuthority := trustedRootAuthority
  allowedClaimScopes := allowedClaimScopes
  trustScope := trustScope
  policyId := policyId
  remoteEventHead := remoteEventHead
  establishedAt := stamp.time
  establishedEvent := stamp.event
  revokedAt := none
  revokedEvent := none

/-- The projection after the change; the sequence number is not part of it. -/
def apply (stamp : Stamp) (s : AuthorityState) : Change → AuthorityState
  | establishRoot id authorityRef =>
    { s with rootAuthority := some (newRoot stamp id authorityRef) }
  | issueDevice id authorityRef publicKey =>
    { s with
      devices := s.devices.filter (fun device => device.id != id && device.authorityRef != authorityRef)
        ++ [newDevice stamp id authorityRef publicKey] }
  | revokeDevices target =>
    { s with devices := s.devices.map fun d => if d.named target then d.revoke stamp else d }
  | issueSession id authorityRef deviceRef expiresAt =>
    { s with
      sessions := s.sessions.filter (fun session => session.id != id)
        ++ [newSession stamp id authorityRef deviceRef expiresAt] }
  | expireSessions target =>
    { s with sessions := s.sessions.map fun x => if x.named target then x.expire stamp else x }
  | issueRecovery id authorityRef publicKey issuedBy =>
    { s with
      recoveryAuthorities :=
        s.recoveryAuthorities.filter (fun authority =>
          authority.id != id && authority.authorityRef != authorityRef)
        ++ [newRecovery stamp id authorityRef publicKey issuedBy] }
  | revokeRecovery target =>
    { s with
      recoveryAuthorities := s.recoveryAuthorities.map fun a =>
        if a.named target then a.revoke stamp else a }
  | executeRecovery recoveryRef recoveryAuthority oldDeviceId oldDeviceRef newDeviceId newRef =>
    { s with
      lastRecovery := some {
        executedAt := stamp.time
        executedEvent := stamp.event
        recoveryRef := recoveryRef
        recoveryAuthority := recoveryAuthority
        oldDeviceId := oldDeviceId
        oldDeviceRef := oldDeviceRef
        newDeviceId := newDeviceId
        newDeviceAuthorityRef := newRef
        status := .executed } }
  | establishTrust realmId trustedRootAuthority allowedClaimScopes trustScope policyId head =>
    { s with
      federationTrusts := s.federationTrusts.filter (fun trust => trust.realmId != realmId)
        ++ [newTrust stamp realmId trustedRootAuthority allowedClaimScopes trustScope policyId head] }
  | revokeTrust realmId =>
    { s with
      federationTrusts := s.federationTrusts.map fun t =>
        if t.realmId == realmId then t.revoke stamp else t }

@[simp] theorem apply_lastSequence (c : Change) (stamp : Stamp) (s : AuthorityState) :
    (c.apply stamp s).lastSequence = s.lastSequence := by cases c <;> rfl

/-- Only a recovery execution writes `lastRecovery`. -/
theorem apply_lastRecovery {c : Change} (hc : ∀ a b d e f g, c ≠ .executeRecovery a b d e f g)
    (stamp : Stamp) (s : AuthorityState) : (c.apply stamp s).lastRecovery = s.lastRecovery := by
  cases c with
  | executeRecovery a b d e f g => exact absurd rfl (hc a b d e f g)
  | _ => rfl

/-- Only `establishRoot` writes the root. -/
theorem apply_rootAuthority {c : Change} (hc : ∀ id ref, c ≠ .establishRoot id ref)
    (stamp : Stamp) (s : AuthorityState) : (c.apply stamp s).rootAuthority = s.rootAuthority := by
  cases c with
  | establishRoot id ref => exact absurd rfl (hc id ref)
  | _ => rfl

end Change

/-- `withSequence` on a number already read. -/
def AuthorityState.setSequence (s : AuthorityState) (n : Number) : AuthorityState :=
  { s with lastSequence := if n.isFinite then n else numOr s.lastSequence (.int 0) }

theorem withSequence_eq (s : AuthorityState) (envelope : Json) :
    withSequence s envelope = (toNumber (envelope.prop "sequence")).map s.setSequence := by
  unfold withSequence
  cases toNumber (envelope.prop "sequence") with
  | error e => rfl
  | ok n =>
    simp only [AuthorityState.setSequence, cloneProjection, ok_bind, pure_eq_ok, Except.map]
    split <;> rfl

/-! ## Reading a change -/

section
variable (envelope : Json) (payload : Fields)

def readEstablishRoot : JsM Change := do
  let authorityRef ← toStr (or (envelope.prop "authority_reference")
    (or (envelope.prop "signer") (or (payload.get "authority_id") (some (.str "root")))))
  let id ← toStr (or (payload.get "root_id") (some (.str authorityRef)))
  return .establishRoot id authorityRef

def readIssueDevice : JsM Change := do
  let authorityRef ← refOr (or (payload.get "authority_ref") (payload.get "device_authority"))
    "device:" (payload.get "device_id")
  let deviceId ← toStr (or (payload.get "device_id") (some (.str authorityRef)))
  return .issueDevice deviceId authorityRef (orNull (payload.get "public_key"))

def readRevokeDevices : JsM Change := do
  let target ← strOrEmpty (targetDeviceRef (envelope.prop "authority_reference") payload)
  return .revokeDevices target

def readIssueSession (sessions : Nat) : JsM Change := do
  let sessionId ← toStr (or (payload.get "session_id")
    (some (.str ("session_" ++ Nat.repr (sessions + 1)))))
  let authorityRef ← toStr (or (payload.get "authority_ref")
    (or (payload.get "session_authority") (some (.str sessionId))))
  return .issueSession sessionId authorityRef (orNull (payload.get "device_ref"))
    (orNull (payload.get "expires_at"))

def readExpireSessions : JsM Change := do
  let target ← strOrEmpty (or (payload.get "session_id") (payload.get "authority_ref"))
  return .expireSessions target

def readRotateRoot : JsM Change := do
  let newAuthorityRef ← strOrEmpty (or (payload.get "new_authority_ref")
    (envelope.prop "authority_reference"))
  let id ← toStr (or (payload.get "new_root_id") (some (.str newAuthorityRef)))
  return .establishRoot id newAuthorityRef

def readIssueRecovery : JsM Change := do
  let authorityRef ← refOr (or (payload.get "authority_ref") (payload.get "recovery_authority_ref"))
    "recovery:" (payload.get "recovery_authority_id")
  let recoveryAuthorityId ← toStr (or (payload.get "recovery_authority_id")
    (some (.str authorityRef)))
  return .issueRecovery recoveryAuthorityId authorityRef (orNull (payload.get "public_key"))
    (orNull (envelope.prop "signer"))

def readRevokeRecovery : JsM Change := do
  let target ← strOrEmpty (targetRecoveryAuthorityRef (envelope.prop "authority_reference") payload)
  return .revokeRecovery target

def readExecuteRecovery : Change :=
  .executeRecovery
    (orNull (or (payload.get "recovery_ref") (envelope.prop "authority_reference")))
    (orNull (envelope.prop "signer")) (orNull (payload.get "old_device_id"))
    (orNull (or (payload.get "old_device_ref") (payload.get "old_device_id")))
    (orNull (payload.get "new_device_id")) (orNull (payload.get "new_device_authority_ref"))

def arrayOrEmpty : Option Json → Json
  | some (.arr xs) => .arr xs
  | _ => .arr []

def readEstablishTrust : JsM Change := do
  let realmId ← strOrEmpty (or (payload.get "remote_realm_id") (payload.get "realm_id"))
  return .establishTrust realmId (orNull (payload.get "trusted_root_authority"))
    (arrayOrEmpty (payload.get "allowed_claim_scopes"))
    (orNull (or (payload.get "trust_scope") (some (.str "claims"))))
    (orNull (payload.get "policy_id")) (orNull (payload.get "remote_event_head"))

def readRevokeTrust : JsM Change := do
  let realmId ← strOrEmpty (or (payload.get "remote_realm_id") (payload.get "realm_id"))
  return .revokeTrust realmId

/-- The change an event of type `t` asks for, on a projection with `sessions` sessions. -/
def changeOf (t : EventType) (sessions : Nat) : JsM Change :=
  match t with
  | .rootAuthorityCreated => readEstablishRoot envelope payload
  | .deviceKeyIssued => readIssueDevice payload
  | .deviceKeyRevoked => readRevokeDevices envelope payload
  | .sessionAuthorityIssued => readIssueSession payload sessions
  | .sessionAuthorityExpired => readExpireSessions payload
  | .authorityRotated => readRotateRoot envelope payload
  | .recoveryAuthorityIssued => readIssueRecovery envelope payload
  | .recoveryAuthorityRevoked => readRevokeRecovery envelope payload
  | .recoveryExecuted => .ok (readExecuteRecovery envelope payload)
  | .federationTrustEstablished | .federationTrustUpdated => readEstablishTrust payload
  | .federationTrustRevoked => readRevokeTrust payload

end

/-- The types that ask for a change of this kind. -/
def Change.types : Change → List EventType
  | establishRoot .. => [.rootAuthorityCreated, .authorityRotated]
  | issueDevice .. => [.deviceKeyIssued]
  | revokeDevices _ => [.deviceKeyRevoked]
  | issueSession .. => [.sessionAuthorityIssued]
  | expireSessions _ => [.sessionAuthorityExpired]
  | issueRecovery .. => [.recoveryAuthorityIssued]
  | revokeRecovery _ => [.recoveryAuthorityRevoked]
  | executeRecovery .. => [.recoveryExecuted]
  | establishTrust .. => [.federationTrustEstablished, .federationTrustUpdated]
  | revokeTrust _ => [.federationTrustRevoked]

theorem mem_types_of_changeOf {envelope : Json} {payload : Fields} {t : EventType} {k : Nat}
    {c : Change} (h : changeOf envelope payload t k = .ok c) : t ∈ c.types := by
  cases t <;>
    simp only [changeOf, readEstablishRoot, readIssueDevice, readRevokeDevices, readIssueSession,
      readExpireSessions, readRotateRoot, readIssueRecovery, readRevokeRecovery,
      readExecuteRecovery, readEstablishTrust, readRevokeTrust, bind_eq_ok, pure_eq_ok,
      Except.ok.injEq] at h
  all_goals
    obtain ⟨_, -, _, -, rfl⟩ := h
    simp [Change.types]

/-- A handler reads the sequence number and a change, and applies the change. -/
theorem apply_eq (t : EventType) (s : AuthorityState) (event envelope : Json) (payload : Fields) :
    (realmEventRegistry t).apply s event envelope payload = (do
      let n ← toNumber (envelope.prop "sequence")
      let change ← changeOf envelope payload t s.sessions.length
      return change.apply (stampOf envelope event) (s.setSequence n)) := by
  cases t <;>
    simp only [realmEventRegistry, changeOf, applyRootAuthorityCreated, readEstablishRoot,
      applyDeviceKeyIssued, readIssueDevice, applyDeviceKeyRevoked, readRevokeDevices,
      applySessionAuthorityIssued, readIssueSession, applySessionAuthorityExpired,
      readExpireSessions, applyAuthorityRotated, readRotateRoot, applyRecoveryAuthorityIssued,
      readIssueRecovery, applyRecoveryAuthorityRevoked, readRevokeRecovery, applyRecoveryExecuted,
      readExecuteRecovery, applyFederationTrustUpdated, applyFederationTrustEstablished,
      readEstablishTrust, applyFederationTrustRevoked, readRevokeTrust, withSequence_eq]
  all_goals
    cases toNumber (envelope.prop "sequence") with
    | error e => rfl
    | ok n => simp only [Except.map, ok_bind, bind_assoc, pure_bind]; rfl

/-! ## Replay of one event -/

/-- Replay runs the handler of type `t` on the event, under this envelope and sequence number. -/
structure Runs (event envelope : Json) (t : EventType) (n : Number) : Prop where
  canonical : isCanonicalRealmEvent event = .ok true
  read : Projection.eventEnvelope event = .ok (some envelope)
  contract : getRealmEventContract (envelope.prop "type") = .ok (some (.contract t))
  version : eventVersion event envelope = .ok (.int 1)
  sequence : toNumber (envelope.prop "sequence") = .ok n

theorem contract_version (t : EventType) : (realmEventRegistry t).version = .int 1 := by
  cases t <;> rfl

/-- The payload a handler of type `t` gets. -/
def migratedPayload (t : EventType) (event : Json) : Fields :=
  (realmEventRegistry t).migrationAdapter (eventPayload event)

theorem Runs.replay {event envelope : Json} {t : EventType} {n : Number} (h : Runs event envelope t n)
    (s : AuthorityState) :
    replayEvent s event = (do
      let c ← changeOf envelope (migratedPayload t event) t s.sessions.length
      return c.apply (stampOf envelope event) (s.setSequence n)) := by
  simp only [replayEvent, h.canonical, ok_bind, if_true, applyAuthorityEvent, h.read,
    h.contract, interpretRealmEvent, h.version, contract_version, applyContract, apply_eq,
    h.sequence, pure_eq_ok, migratedPayload]

/-- Replay passes over the event: it is not canonical, or no contract is found for it. -/
inductive Ignored (event : Json) : Prop where
  | notCanonical : isCanonicalRealmEvent event = .ok false → Ignored event
  | noEnvelope : Projection.eventEnvelope event = .ok none → Ignored event
  | noContract {envelope : Json} : Projection.eventEnvelope event = .ok (some envelope) →
      getRealmEventContract (envelope.prop "type") = .ok none → Ignored event

theorem Ignored.replay {event : Json} (h : Ignored event)
    (hcanon : ∃ b, isCanonicalRealmEvent event = .ok b) (s : AuthorityState) :
    replayEvent s event = .ok s := by
  obtain ⟨b, hb⟩ := hcanon
  cases b with
  | false => rw [replayEvent, hb]; rfl
  | true =>
    rw [replayEvent, hb, ok_bind, if_pos rfl, applyAuthorityEvent]
    cases h with
    | notCanonical hno => rw [hb] at hno; cases hno
    | noEnvelope hno => rw [hno]; rfl
    | noContract henv hno => simp only [henv, ok_bind, hno]; rfl

/-- Replay passes over an event or runs one handler on it. -/
theorem replayEvent_cases {s s' : AuthorityState} {event : Json} (h : replayEvent s event = .ok s') :
    (Ignored event ∧ s' = s) ∨ ∃ envelope t n, Runs event envelope t n := by
  unfold replayEvent at h
  obtain ⟨canonical, hcanon, h⟩ := bind_eq_ok.mp h
  cases canonical with
  | false => exact .inl ⟨.notCanonical hcanon, (Except.ok.inj h).symm⟩
  | true =>
    rw [if_pos rfl] at h
    unfold applyAuthorityEvent at h
    obtain ⟨env, henv, h⟩ := bind_eq_ok.mp h
    cases env with
    | none => exact .inl ⟨.noEnvelope henv, (Except.ok.inj h).symm⟩
    | some envelope =>
      obtain ⟨entry, hentry, h⟩ := bind_eq_ok.mp h
      cases entry with
      | none => exact .inl ⟨.noContract henv hentry, (Except.ok.inj h).symm⟩
      | some entry =>
        obtain ⟨payload, hpayload, h⟩ := bind_eq_ok.mp h
        obtain ⟨version, hversion, hadapter⟩ := bind_eq_ok.mp hpayload
        cases entry with
        | inherited => cases hadapter
        | contract t =>
          refine .inr ⟨envelope, t, ?_⟩
          rw [applyContract, apply_eq] at h
          obtain ⟨n, hn, -⟩ := bind_eq_ok.mp h
          have hone : version = .int 1 := by
            by_contra hne
            simp only [contract_version, hne, if_false] at hadapter
            cases hadapter
          exact ⟨n, hcanon, henv, hentry, hone ▸ hversion, hn⟩

end SimpleL1.Realm
