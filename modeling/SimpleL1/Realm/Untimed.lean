import SimpleL1.Realm.Change

/-!
# The projection up to timestamps

`untimed` forgets the times of a projection and the key order of the values it
copied from events. A change acts on what is left: `apply_untimed`. What a change
is read from matters up to key order only, and a falsy value counts as absent
(`changeOf_congr`). The authority checks do not see the difference either.
-/

namespace SimpleL1.Realm

open SimpleL1.Js

/-! ## Forgetting times -/

def RootAuthority.untimed (r : RootAuthority) : RootAuthority := { r with issuedAt := .null }

def Device.untimed (d : Device) : Device :=
  { d with publicKey := d.publicKey.canon, issuedAt := .null, revokedAt := .null }

def RecoveryAuthority.untimed (a : RecoveryAuthority) : RecoveryAuthority :=
  { a with
    publicKey := a.publicKey.canon, issuedBy := a.issuedBy.canon, issuedAt := .null
    revokedAt := a.revokedAt.map fun _ => .null }

def Session.untimed (x : Session) : Session :=
  { x with
    deviceRef := x.deviceRef.canon, expiresAt := x.expiresAt.canon, issuedAt := .null
    expiredAt := x.expiredAt.map fun _ => .null }

def FederationTrust.untimed (t : FederationTrust) : FederationTrust :=
  { t with
    trustedRootAuthority := t.trustedRootAuthority.canon
    allowedClaimScopes := t.allowedClaimScopes.canon
    trustScope := t.trustScope.canon
    policyId := t.policyId.canon
    remoteEventHead := t.remoteEventHead.canon
    establishedAt := .null
    revokedAt := t.revokedAt.map fun _ => .null }

def LastRecovery.untimed (r : LastRecovery) : LastRecovery :=
  { r with
    executedAt := .null
    recoveryRef := r.recoveryRef.canon
    recoveryAuthority := r.recoveryAuthority.canon
    oldDeviceId := r.oldDeviceId.canon
    oldDeviceRef := r.oldDeviceRef.canon
    newDeviceId := r.newDeviceId.canon
    newDeviceAuthorityRef := r.newDeviceAuthorityRef.canon }

/-- The projection without its timestamps. -/
def AuthorityState.untimed (s : AuthorityState) : AuthorityState where
  rootAuthority := s.rootAuthority.map RootAuthority.untimed
  recoveryAuthorities := s.recoveryAuthorities.map RecoveryAuthority.untimed
  devices := s.devices.map Device.untimed
  sessions := s.sessions.map Session.untimed
  federationTrusts := s.federationTrusts.map FederationTrust.untimed
  lastSequence := s.lastSequence
  lastRecovery := s.lastRecovery.map LastRecovery.untimed

def Stamp.untimed (stamp : Stamp) : Stamp := { stamp with time := .null }

/-- The change, its copied values in canonical form. -/
def Change.canon : Change → Change
  | issueDevice id ref key => issueDevice id ref key.canon
  | issueSession id ref device expires => issueSession id ref device.canon expires.canon
  | issueRecovery id ref key issuer => issueRecovery id ref key.canon issuer.canon
  | executeRecovery ref authority oldId oldRef newId newRef =>
    executeRecovery ref.canon authority.canon oldId.canon oldRef.canon newId.canon newRef.canon
  | establishTrust realm root scopes scope policy head =>
    establishTrust realm root.canon scopes.canon scope.canon policy.canon head.canon
  | c => c

@[simp] theorem untimed_setSequence (s : AuthorityState) (n : Number) :
    (s.setSequence n).untimed = s.untimed.setSequence n := rfl

@[simp] theorem untimed_sessions_length (s : AuthorityState) :
    s.untimed.sessions.length = s.sessions.length := by simp [AuthorityState.untimed]

theorem Device.untimed_named (d : Device) (key : String) : d.untimed.named key = d.named key := rfl

theorem RecoveryAuthority.untimed_named (a : RecoveryAuthority) (key : String) :
    a.untimed.named key = a.named key := rfl

theorem map_ite_untimed {α : Type} {u f g : α → α} {p q : α → Bool} (hp : ∀ x, q (u x) = p x)
    (hf : ∀ x, u (f x) = g (u x)) (xs : List α) :
    (xs.map fun x => if p x then f x else x).map u =
      (xs.map u).map fun x => if q x then g x else x := by
  rw [List.map_map, List.map_map]
  apply List.map_congr_left
  intro x _
  simp only [Function.comp_apply, hp]
  split
  · exact hf x
  · rfl

theorem filter_append_untimed {α : Type} {u : α → α} {p q : α → Bool} (hp : ∀ x, q (u x) = p x)
    (xs : List α) (y : α) :
    (xs.filter p ++ [y]).map u = (xs.map u).filter q ++ [u y] := by
  have hcomp : q ∘ u = p := funext hp
  rw [List.map_append, List.filter_map, hcomp, List.map_singleton]

/-- A change acts on the projection without its timestamps. -/
theorem Change.apply_untimed (c : Change) (stamp : Stamp) (s : AuthorityState) :
    (c.apply stamp s).untimed = c.canon.apply stamp.untimed s.untimed := by
  cases c with
  | establishRoot id ref => rfl
  | executeRecovery a b d e f g => rfl
  | issueDevice id ref key =>
    have h := filter_append_untimed (u := Device.untimed)
      (p := fun d => d.id != id && d.authorityRef != ref)
      (q := fun d => d.id != id && d.authorityRef != ref) (fun _ => rfl) s.devices
      (newDevice stamp id ref key)
    simp only [apply, canon, AuthorityState.untimed, h]
    rfl
  | issueSession id ref device expires =>
    have h := filter_append_untimed (u := Session.untimed) (p := fun x => x.id != id)
      (q := fun x => x.id != id) (fun _ => rfl) s.sessions
      (newSession stamp id ref device expires)
    simp only [apply, canon, AuthorityState.untimed, h]
    rfl
  | issueRecovery id ref key issuer =>
    have h := filter_append_untimed (u := RecoveryAuthority.untimed)
      (p := fun a => a.id != id && a.authorityRef != ref)
      (q := fun a => a.id != id && a.authorityRef != ref) (fun _ => rfl) s.recoveryAuthorities
      (newRecovery stamp id ref key issuer)
    simp only [apply, canon, AuthorityState.untimed, h]
    rfl
  | establishTrust realm root scopes scope policy head =>
    have h := filter_append_untimed (u := FederationTrust.untimed) (p := fun t => t.realmId != realm)
      (q := fun t => t.realmId != realm) (fun _ => rfl) s.federationTrusts
      (newTrust stamp realm root scopes scope policy head)
    simp only [apply, canon, AuthorityState.untimed, h]
    rfl
  | revokeDevices target =>
    have h := map_ite_untimed (u := Device.untimed) (f := Device.revoke stamp)
      (g := Device.revoke stamp.untimed) (p := fun d => d.named target)
      (q := fun d => d.named target) (fun _ => rfl) (fun _ => rfl) s.devices
    simp only [apply, canon, AuthorityState.untimed, h]
  | expireSessions target =>
    have h := map_ite_untimed (u := Session.untimed) (f := Session.expire stamp)
      (g := Session.expire stamp.untimed) (p := fun x => x.named target)
      (q := fun x => x.named target) (fun _ => rfl) (fun _ => rfl) s.sessions
    simp only [apply, canon, AuthorityState.untimed, h]
  | revokeRecovery target =>
    have h := map_ite_untimed (u := RecoveryAuthority.untimed) (f := RecoveryAuthority.revoke stamp)
      (g := RecoveryAuthority.revoke stamp.untimed) (p := fun a => a.named target)
      (q := fun a => a.named target) (fun _ => rfl) (fun _ => rfl) s.recoveryAuthorities
    simp only [apply, canon, AuthorityState.untimed, h]
  | revokeTrust realm =>
    have h := map_ite_untimed (u := FederationTrust.untimed) (f := FederationTrust.revoke stamp)
      (g := FederationTrust.revoke stamp.untimed) (p := fun t => t.realmId == realm)
      (q := fun t => t.realmId == realm) (fun _ => rfl) (fun _ => rfl) s.federationTrusts
    simp only [apply, canon, AuthorityState.untimed, h]

/-! ## What a change is read from -/

theorem fillFrom_alike {p q : Fields} (h : p.Alike q) (field source : String) :
    (fillFrom p field source).Alike (fillFrom q field source) := by
  have hfield := truthy_congr (h field)
  have hsource := h source
  unfold fillFrom
  cases hp : p.get source with
  | none =>
    rw [hp] at hsource
    rw [Option.map_eq_none_iff.mp hsource.symm]
    exact h
  | some v =>
    rw [hp] at hsource
    obtain ⟨w, hw, hvw⟩ := Option.map_eq_some_iff.mp hsource.symm
    have htruthy : w.truthy = v.truthy := by
      rw [← Json.truthy_canon w, hvw, Json.truthy_canon]
    simp only [hw, hfield, htruthy]
    split
    · exact h.set field hvw.symm
    · exact h

theorem migration_alike (t : EventType) {v w : Json} (h : v.Same w) :
    Fields.Alike ((realmEventRegistry t).migrationAdapter v)
      ((realmEventRegistry t).migrationAdapter w) := by
  have hspread := spread_alike h
  cases t with
  | deviceKeyIssued =>
    have hnext := fillFrom_alike (fillFrom_alike (fillFrom_alike hspread "device_id" "device")
      "public_key" "publicKey") "authority_ref" "device_authority"
    simp only [realmEventRegistry, deviceKeyIssuedMigrationAdapter]
    generalize fillFrom (fillFrom (fillFrom v.spread "device_id" "device") "public_key" "publicKey")
      "authority_ref" "device_authority" = p at hnext ⊢
    generalize fillFrom (fillFrom (fillFrom w.spread "device_id" "device") "public_key" "publicKey")
      "authority_ref" "device_authority" = q at hnext ⊢
    have harray : (p.get "capabilities").any Json.isArray = (q.get "capabilities").any Json.isArray := by
      have hmap : ∀ a : Option Json, (a.map Json.canon).any Json.isArray = a.any Json.isArray := by
        intro a
        cases a with
        | none => rfl
        | some x => exact Json.isArray_canon x
      rw [← hmap, hnext, hmap]
    rw [harray]
    split
    · exact hnext
    · exact hnext.set _ rfl
  | deviceKeyRevoked =>
    exact fillFrom_alike (fillFrom_alike hspread "device_id" "device") "authority_ref"
      "device_authority"
  | _ => exact hspread

theorem refOr_congr {a a' c c' : Option Json} (ha : ReadAlike a a')
    (hc : c.map Json.canon = c'.map Json.canon) (pre : String) : refOr a pre c = refOr a' pre c' := by
  unfold refOr
  rw [← ha.truthy]
  split
  · next h => exact toStr_congr (ha.eq_of_truthy h)
  · rw [toStr_congr hc]

theorem arrayOrEmpty_congr {a b : Option Json} (h : a.map Json.canon = b.map Json.canon) :
    (arrayOrEmpty a).canon = (arrayOrEmpty b).canon := by
  have hcanon : ∀ c, (arrayOrEmpty c).canon = arrayOrEmpty (c.map Json.canon) := by
    intro c
    cases c with
    | none => rfl
    | some v => cases v <;> rfl
  rw [hcanon, hcanon, h]

theorem bind_map_congr {α β γ : Type} {x y : JsM α} {f g : α → JsM β} {k : β → γ} (hxy : x = y)
    (hfg : ∀ a, (f a).map k = (g a).map k) : (x >>= f).map k = (y >>= g).map k := by
  subst hxy
  cases x with
  | error e => rfl
  | ok a => exact hfg a

/-- The fields of the envelope, other than its type and sequence, that the handler of `t` reads. -/
def EventType.envelopeReads : EventType → List String
  | rootAuthorityCreated | recoveryExecuted => ["authority_reference", "signer"]
  | deviceKeyRevoked | authorityRotated | recoveryAuthorityRevoked => ["authority_reference"]
  | recoveryAuthorityIssued => ["signer"]
  | _ => []

theorem targetRef_congr {p q : Fields} (hp : p.Alike q) {r r' : Option Json} (hr : ReadAlike r r')
    (a b c : String) :
    ReadAlike (or (p.get a) (or (p.get b) (or (p.get c) r)))
      (or (q.get a) (or (q.get b) (or (q.get c) r'))) :=
  (hp.read a).or ((hp.read b).or ((hp.read c).or hr))

/-- A handler reads one change from payloads with the same values and envelopes that read alike. -/
theorem changeOf_congr {t : EventType} {e e' : Json} {p q : Fields} (hp : p.Alike q)
    (he : ∀ field ∈ t.envelopeReads, ReadAlike (e.prop field) (e'.prop field)) (k : Nat) :
    (changeOf e p t k).map Change.canon = (changeOf e' q t k).map Change.canon := by
  have hread := hp.read
  cases t with
  | rootAuthorityCreated =>
    have href := he "authority_reference" (by decide)
    have hsigner := he "signer" (by decide)
    refine bind_map_congr (toStr_congr (or_congr href (or_congr hsigner (or_congr (hread _) rfl))))
      fun ref => ?_
    exact bind_map_congr (toStr_congr (or_congr (hread _) rfl)) fun id => rfl
  | deviceKeyIssued =>
    refine bind_map_congr (refOr_congr ((hread _).or (hread _)) (hp _) _) fun ref => ?_
    refine bind_map_congr (toStr_congr (or_congr (hread _) rfl)) fun id => ?_
    simp only [pure_eq_ok, map_ok, Change.canon, orNull_congr (hread "public_key")]
  | deviceKeyRevoked =>
    have href := he "authority_reference" (by decide)
    exact bind_map_congr (strOrEmpty_congr (targetRef_congr hp href _ _ _)) fun target => rfl
  | sessionAuthorityIssued =>
    refine bind_map_congr (toStr_congr (or_congr (hread _) rfl)) fun id => ?_
    refine bind_map_congr (toStr_congr (or_congr (hread _) (or_congr (hread _) rfl))) fun ref => ?_
    simp only [pure_eq_ok, map_ok, Change.canon, orNull_congr (hread "device_ref"),
      orNull_congr (hread "expires_at")]
  | sessionAuthorityExpired =>
    exact bind_map_congr (strOrEmpty_congr ((hread _).or (hread _))) fun target => rfl
  | authorityRotated =>
    have href := he "authority_reference" (by decide)
    refine bind_map_congr (strOrEmpty_congr ((hread _).or href)) fun ref => ?_
    exact bind_map_congr (toStr_congr (or_congr (hread _) rfl)) fun id => rfl
  | recoveryAuthorityIssued =>
    have hsigner := he "signer" (by decide)
    refine bind_map_congr (refOr_congr ((hread _).or (hread _)) (hp _) _) fun ref => ?_
    refine bind_map_congr (toStr_congr (or_congr (hread _) rfl)) fun id => ?_
    simp only [pure_eq_ok, map_ok, Change.canon, orNull_congr (hread "public_key"),
      orNull_congr hsigner]
  | recoveryAuthorityRevoked =>
    have href := he "authority_reference" (by decide)
    exact bind_map_congr (strOrEmpty_congr (targetRef_congr hp href _ _ _)) fun target => rfl
  | recoveryExecuted =>
    have href := he "authority_reference" (by decide)
    have hsigner := he "signer" (by decide)
    simp only [changeOf, readExecuteRecovery, map_ok, Change.canon,
      orNull_congr ((hread "recovery_ref").or href), orNull_congr hsigner,
      orNull_congr (hread "old_device_id"),
      orNull_congr ((hread "old_device_ref").or (hread "old_device_id")),
      orNull_congr (hread "new_device_id"), orNull_congr (hread "new_device_authority_ref")]
  | federationTrustEstablished | federationTrustUpdated =>
    refine bind_map_congr (strOrEmpty_congr ((hread _).or (hread _))) fun realm => ?_
    simp only [pure_eq_ok, map_ok, Change.canon, orNull_congr (hread "trusted_root_authority"),
      arrayOrEmpty_congr (hp "allowed_claim_scopes"),
      orNull_congr (.of_eq (or_congr (hread "trust_scope") rfl)),
      orNull_congr (hread "policy_id"), orNull_congr (hread "remote_event_head")]
  | federationTrustRevoked =>
    exact bind_map_congr (strOrEmpty_congr ((hread _).or (hread _))) fun realm => rfl

/-! ## Authority checks -/

section
variable (s : AuthorityState) (key : String)

theorem findDevice_untimed :
    findDevice s.untimed key = (findDevice s key).map Device.untimed := by
  simp only [findDevice, AuthorityState.untimed, List.find?_map]
  rfl

theorem findRecoveryAuthority_untimed :
    findRecoveryAuthority s.untimed key =
      (findRecoveryAuthority s key).map RecoveryAuthority.untimed := by
  simp only [findRecoveryAuthority, AuthorityState.untimed, List.find?_map]
  rfl

theorem isActiveRoot_untimed : isActiveRoot s.untimed key = isActiveRoot s key := by
  unfold isActiveRoot
  cases h : s.rootAuthority with
  | none => simp only [AuthorityState.untimed, h, Option.map_none]
  | some root => simp only [AuthorityState.untimed, h, Option.map_some]; rfl

theorem isActiveDevice_untimed : isActiveDevice s.untimed key = isActiveDevice s key := by
  unfold isActiveDevice
  rw [findDevice_untimed]
  cases findDevice s key <;> rfl

theorem isActiveRecoveryAuthority_untimed :
    isActiveRecoveryAuthority s.untimed key = isActiveRecoveryAuthority s key := by
  unfold isActiveRecoveryAuthority
  rw [findRecoveryAuthority_untimed]
  cases findRecoveryAuthority s key <;> rfl

theorem policy_untimed (policy : AuthorityPolicy) :
    canSignerSatisfyAuthorityPolicy s.untimed key policy =
      canSignerSatisfyAuthorityPolicy s key policy := by
  cases policy <;>
    simp only [canSignerSatisfyAuthorityPolicy, isActiveRoot_untimed, isActiveDevice_untimed,
      isActiveRecoveryAuthority_untimed]
  simp only [AuthorityState.untimed, Option.isNone_map]

end

theorem strictEq_canon (v : Json) (a : Option Json) :
    strictEq (some v.canon) a = strictEq (some v) a := by
  cases v with
  | arr xs => cases a <;> rfl
  | obj fs => cases a <;> rfl
  | _ => rfl

/-- The transition rules read names, statuses and the last recovery. -/
theorem rule_untimed (t : EventType) (s : AuthorityState) (envelope : Envelope) (payload : Fields) :
    (realmEventRegistry t).validateTransition s.untimed envelope payload =
      (realmEventRegistry t).validateTransition s envelope payload := by
  have hrecovery : s.untimed.lastRecovery = s.lastRecovery.map LastRecovery.untimed := rfl
  cases t with
  | rootAuthorityCreated =>
    simp only [realmEventRegistry, validateRootAuthorityCreated, AuthorityState.untimed,
      Option.isSome_map]
  | deviceKeyIssued =>
    simp only [realmEventRegistry, validateDeviceKeyIssued, isActiveRoot_untimed, hrecovery]
    cases s.lastRecovery with
    | none => rfl
    | some r => simp only [Option.map_some, LastRecovery.untimed, strictEq_canon]
  | deviceKeyRevoked =>
    have hself : ∀ target, revokeTargetNotSelf s.untimed envelope target =
        revokeTargetNotSelf s envelope target := by
      intro target
      simp only [revokeTargetNotSelf, isActiveDevice_untimed, isActiveRoot_untimed,
        isActiveRecoveryAuthority_untimed, findDevice_untimed]
      cases findDevice s envelope.signer <;> rfl
    simp only [realmEventRegistry, validateDeviceKeyRevoked, findDevice_untimed, hself,
      isActiveRecoveryAuthority_untimed, hrecovery]
    refine bind_congr fun target => ?_
    cases findDevice s target with
    | none => rfl
    | some device =>
      cases s.lastRecovery with
      | none => rfl
      | some r =>
        simp only [Option.map_some, LastRecovery.untimed, Device.untimed, strictEq_canon]
  | recoveryAuthorityIssued =>
    simp only [realmEventRegistry, validateRecoveryAuthorityIssued, findRecoveryAuthority_untimed]
    refine bind_congr fun target => ?_
    cases findRecoveryAuthority s target <;> rfl
  | recoveryAuthorityRevoked =>
    simp only [realmEventRegistry, validateRecoveryAuthorityRevoked, findRecoveryAuthority_untimed]
    refine bind_congr fun target => ?_
    cases findRecoveryAuthority s target <;> rfl
  | recoveryExecuted =>
    simp only [realmEventRegistry, validateRecoveryExecuted, findDevice_untimed]
    refine bind_congr fun old => ?_
    cases findDevice s old with
    | none => rfl
    | some device =>
      simp only [Option.map_some, Device.untimed]
      split
      · rfl
      · refine bind_congr fun new => ?_
        cases findDevice s new <;> rfl
  | _ => rfl

end SimpleL1.Realm
