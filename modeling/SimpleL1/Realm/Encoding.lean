import SimpleL1.Js.Codec
import SimpleL1.Realm.Change

/-!
# The projection as JSON

Snapshots, backups and projection hashes see the projection as a JSON object, its
fields in the order the handlers write them. A copy through text keeps a
projection of finite numbers. On the ledgers of accepted events only the claim
scopes of a federation trust, which no check looks into, hold other values:
`rounded` is what a copy leaves of a projection that is plain elsewhere.
-/

namespace SimpleL1.Realm

open SimpleL1.Js

def Status.text : Status → String
  | active => "active"
  | revoked => "revoked"
  | expired => "expired"
  | executed => "executed"

def Status.ofText (s : String) : Option Status :=
  [active, revoked, expired, executed].find? (·.text == s)

theorem Status.ofText_text (s : Status) : Status.ofText s.text = some s := by
  cases s <;> decide

def statusField (v : Json) : Option Status := (strField v "status").bind Status.ofText

theorem statusField_eq {v : Json} {s : Status} (h : v.prop "status" = some (.str s.text)) :
    statusField v = some s := by
  rw [statusField, strField_eq h, Option.bind_some, Status.ofText_text]

/-! ## The entries -/

def RootAuthority.codec : Codec RootAuthority where
  encode r := .obj [("id", .str r.id), ("authorityRef", .str r.authorityRef),
    ("status", .str r.status.text), ("issuedAt", r.issuedAt), ("issuedEvent", r.issuedEvent)]
  decode v := do
    some {
      id := ← strField v "id"
      authorityRef := ← strField v "authorityRef"
      status := ← statusField v
      issuedAt := ← v.prop "issuedAt"
      issuedEvent := ← v.prop "issuedEvent" }
  decode_encode r := by
    rw [strField_eq rfl, strField_eq rfl, statusField_eq rfl]
    rfl

def Device.codec : Codec Device where
  encode d := .obj [("id", .str d.id), ("authority", .str d.authority),
    ("authorityRef", .str d.authorityRef), ("status", .str d.status.text),
    ("publicKey", d.publicKey), ("issuedAt", d.issuedAt), ("issuedEvent", d.issuedEvent),
    ("revokedAt", d.revokedAt), ("revokedEvent", d.revokedEvent)]
  decode v := do
    some {
      id := ← strField v "id"
      authority := ← strField v "authority"
      authorityRef := ← strField v "authorityRef"
      status := ← statusField v
      publicKey := ← v.prop "publicKey"
      issuedAt := ← v.prop "issuedAt"
      issuedEvent := ← v.prop "issuedEvent"
      revokedAt := ← v.prop "revokedAt"
      revokedEvent := ← v.prop "revokedEvent" }
  decode_encode d := by
    rw [strField_eq rfl, strField_eq rfl, strField_eq rfl, statusField_eq rfl]
    rfl

def RecoveryAuthority.codec : Codec RecoveryAuthority where
  encode a := .obj (Fields.ofOptions [("id", some (.str a.id)), ("authorityRef", some (.str a.authorityRef)),
    ("status", some (.str a.status.text)), ("publicKey", some a.publicKey),
    ("issuedBy", some a.issuedBy), ("issuedAt", some a.issuedAt),
    ("issuedEvent", some a.issuedEvent), ("revokedEvent", some a.revokedEvent),
    ("revokedAt", a.revokedAt)])
  decode v := do
    some {
      id := ← strField v "id"
      authorityRef := ← strField v "authorityRef"
      status := ← statusField v
      publicKey := ← v.prop "publicKey"
      issuedBy := ← v.prop "issuedBy"
      issuedAt := ← v.prop "issuedAt"
      issuedEvent := ← v.prop "issuedEvent"
      revokedEvent := ← v.prop "revokedEvent"
      revokedAt := v.prop "revokedAt" }
  decode_encode a := by
    rw [strField_eq rfl, strField_eq rfl, statusField_eq rfl]
    obtain ⟨_, _, _, _, _, _, _, _, _ | _⟩ := a <;> rfl

def Session.codec : Codec Session where
  encode x := .obj (Fields.ofOptions [("id", some (.str x.id)), ("authorityRef", some (.str x.authorityRef)),
    ("deviceRef", some x.deviceRef), ("status", some (.str x.status.text)),
    ("issuedAt", some x.issuedAt), ("issuedEvent", some x.issuedEvent),
    ("expiresAt", some x.expiresAt), ("expiredAt", x.expiredAt), ("expiredEvent", x.expiredEvent)])
  decode v := do
    some {
      id := ← strField v "id"
      authorityRef := ← strField v "authorityRef"
      deviceRef := ← v.prop "deviceRef"
      status := ← statusField v
      issuedAt := ← v.prop "issuedAt"
      issuedEvent := ← v.prop "issuedEvent"
      expiresAt := ← v.prop "expiresAt"
      expiredAt := v.prop "expiredAt"
      expiredEvent := v.prop "expiredEvent" }
  decode_encode x := by
    rw [strField_eq rfl, strField_eq rfl, statusField_eq rfl]
    obtain ⟨_, _, _, _, _, _, _, _ | _, _ | _⟩ := x <;> rfl

def FederationTrust.codec : Codec FederationTrust where
  encode t := .obj (Fields.ofOptions [("realmId", some (.str t.realmId)),
    ("status", some (.str t.status.text)), ("trustedRootAuthority", some t.trustedRootAuthority),
    ("allowedClaimScopes", some t.allowedClaimScopes), ("trustScope", some t.trustScope),
    ("policyId", some t.policyId), ("remoteEventHead", some t.remoteEventHead),
    ("establishedAt", some t.establishedAt), ("establishedEvent", some t.establishedEvent),
    ("revokedAt", t.revokedAt), ("revokedEvent", t.revokedEvent)])
  decode v := do
    some {
      realmId := ← strField v "realmId"
      status := ← statusField v
      trustedRootAuthority := ← v.prop "trustedRootAuthority"
      allowedClaimScopes := ← v.prop "allowedClaimScopes"
      trustScope := ← v.prop "trustScope"
      policyId := ← v.prop "policyId"
      remoteEventHead := ← v.prop "remoteEventHead"
      establishedAt := ← v.prop "establishedAt"
      establishedEvent := ← v.prop "establishedEvent"
      revokedAt := v.prop "revokedAt"
      revokedEvent := v.prop "revokedEvent" }
  decode_encode t := by
    rw [strField_eq rfl, statusField_eq rfl]
    obtain ⟨_, _, _, _, _, _, _, _, _, _ | _, _ | _⟩ := t <;> rfl

def LastRecovery.codec : Codec LastRecovery where
  encode r := .obj [("executedAt", r.executedAt), ("executedEvent", r.executedEvent),
    ("recoveryRef", r.recoveryRef), ("recoveryAuthority", r.recoveryAuthority),
    ("oldDeviceId", r.oldDeviceId), ("oldDeviceRef", r.oldDeviceRef),
    ("newDeviceId", r.newDeviceId), ("newDeviceAuthorityRef", r.newDeviceAuthorityRef),
    ("status", .str r.status.text)]
  decode v := do
    some {
      executedAt := ← v.prop "executedAt"
      executedEvent := ← v.prop "executedEvent"
      recoveryRef := ← v.prop "recoveryRef"
      recoveryAuthority := ← v.prop "recoveryAuthority"
      oldDeviceId := ← v.prop "oldDeviceId"
      oldDeviceRef := ← v.prop "oldDeviceRef"
      newDeviceId := ← v.prop "newDeviceId"
      newDeviceAuthorityRef := ← v.prop "newDeviceAuthorityRef"
      status := ← statusField v }
  decode_encode r := by
    rw [statusField_eq rfl]
    rfl

/-! ## The projection -/

/-- `v.k` as a list of records. -/
def listField {α : Type} (c : Codec α) (v : Json) (k : String) : Option (List α) :=
  (v.prop k).bind c.list.decode

theorem listField_eq {α : Type} {c : Codec α} {v : Json} {k : String} {xs : List α}
    (h : v.prop k = some (c.list.encode xs)) : listField c v k = some xs := by
  rw [listField, h, Option.bind_some, c.list.decode_encode]

def AuthorityState.codec : Codec AuthorityState where
  encode s := .obj (Fields.ofOptions [
    ("rootAuthority", some ((RootAuthority.codec.orNull (by intro _ h; cases h)).encode s.rootAuthority)),
    ("recoveryAuthorities", some (RecoveryAuthority.codec.list.encode s.recoveryAuthorities)),
    ("devices", some (Device.codec.list.encode s.devices)),
    ("sessions", some (Session.codec.list.encode s.sessions)),
    ("federationTrusts", some (FederationTrust.codec.list.encode s.federationTrusts)),
    ("lastSequence", some (.num s.lastSequence)),
    ("lastRecovery", s.lastRecovery.map LastRecovery.codec.encode)])
  decode v := do
    some {
      rootAuthority := ← (v.prop "rootAuthority").bind
        (RootAuthority.codec.orNull (by intro _ h; cases h)).decode
      recoveryAuthorities := ← listField RecoveryAuthority.codec v "recoveryAuthorities"
      devices := ← listField Device.codec v "devices"
      sessions := ← listField Session.codec v "sessions"
      federationTrusts := ← listField FederationTrust.codec v "federationTrusts"
      lastSequence := ← match v.prop "lastSequence" with
        | some (.num n) => some n
        | _ => none
      lastRecovery := ← match v.prop "lastRecovery" with
        | none => some none
        | some r => (LastRecovery.codec.decode r).map some }
  decode_encode s := by
    rw [listField_eq rfl, listField_eq rfl, listField_eq rfl, listField_eq rfl]
    have hroot := (RootAuthority.codec.orNull (by intro _ h; cases h)).decode_encode s.rootAuthority
    obtain ⟨_, _, _, _, _, _, _ | r⟩ := s
    · simp [Fields.ofOptions, hroot]
    · simp [Fields.ofOptions, hroot, LastRecovery.codec.decode_encode r]

end SimpleL1.Realm
