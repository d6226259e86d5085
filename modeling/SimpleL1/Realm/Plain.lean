import SimpleL1.Realm.Encoding
import SimpleL1.Realm.Payload
import SimpleL1.Realm.Freshness

/-!
# Copies of live projections

The fields of an accepted event that its contract declares as strings are strings,
so the projection of a live ledger holds finite numbers only, but for the claim
scopes of its federation trusts: `Plain`. A copy through text rounds these scopes.
What a change does to a projection with rounded scopes, it does to the original,
and a trust that is established again has its scopes from then on unrounded.
-/

namespace SimpleL1.Realm

open SimpleL1.Js

/-! ## Plain projections -/

/-- The trust, its scopes left out. -/
def FederationTrust.unscoped (t : FederationTrust) : FederationTrust :=
  { t with allowedClaimScopes := .null }

/-- Every number in the projection outside the scopes is finite. -/
structure Plain (s : AuthorityState) : Prop where
  root : ∀ r ∈ s.rootAuthority, (RootAuthority.codec.encode r).finite = true
  recovery : ∀ a ∈ s.recoveryAuthorities, (RecoveryAuthority.codec.encode a).finite = true
  devices : ∀ d ∈ s.devices, (Device.codec.encode d).finite = true
  sessions : ∀ x ∈ s.sessions, (Session.codec.encode x).finite = true
  trusts : ∀ t ∈ s.federationTrusts, (FederationTrust.codec.encode t.unscoped).finite = true
  sequence : s.lastSequence.isFinite = true
  lastRecovery : ∀ r ∈ s.lastRecovery, (LastRecovery.codec.encode r).finite = true

structure Stamp.Plain (stamp : Stamp) : Prop where
  time : stamp.time.finite = true
  event : stamp.event.finite = true

/-- The values a change copies are finite, but for the scopes. -/
def Change.Plain : Change → Prop
  | issueDevice _ _ key => key.finite = true
  | issueSession _ _ device expires => device.finite = true ∧ expires.finite = true
  | issueRecovery _ _ key issuer => key.finite = true ∧ issuer.finite = true
  | executeRecovery ref authority oldId oldRef newId newRef =>
    ref.finite = true ∧ authority.finite = true ∧ oldId.finite = true ∧ oldRef.finite = true
      ∧ newId.finite = true ∧ newRef.finite = true
  | establishTrust _ root _ scope policy head =>
    root.finite = true ∧ scope.finite = true ∧ policy.finite = true ∧ head.finite = true
  | _ => True

theorem finite_map_ite {α : Type} {p : α → Bool} {f : α → α} {q : α → Prop} {xs : List α}
    (hf : ∀ x, q x → q (f x)) (h : ∀ x ∈ xs, q x) :
    ∀ x ∈ xs.map (fun x => if p x then f x else x), q x := by
  intro y hy
  obtain ⟨x, hx, rfl⟩ := List.mem_map.mp hy
  split
  · exact hf x (h x hx)
  · exact h x hx

theorem finite_filter_append {α : Type} {p : α → Bool} {q : α → Prop} {xs : List α} {y : α}
    (hy : q y) (h : ∀ x ∈ xs, q x) : ∀ x ∈ xs.filter p ++ [y], q x := by
  intro x hx
  rcases List.mem_append.mp hx with hx | hx
  · exact h x (List.mem_of_mem_filter hx)
  · rw [List.mem_singleton.mp hx]
    exact hy

theorem Device.finite_revoke {stamp : Stamp} (hs : stamp.Plain) (d : Device)
    (h : (Device.codec.encode d).finite = true) :
    (Device.codec.encode (d.revoke stamp)).finite = true := by
  simp only [Device.codec, Device.revoke, Json.finite, Json.finiteFields, Bool.and_eq_true,
    and_true, true_and, hs.time, hs.event] at h ⊢
  exact ⟨h.1, h.2.1, h.2.2.1⟩

theorem Session.finite_expire {stamp : Stamp} (hs : stamp.Plain) (x : Session)
    (h : (Session.codec.encode x).finite = true) :
    (Session.codec.encode (x.expire stamp)).finite = true := by
  simp only [codec, expire, Json.finite, finite_ofOptions, List.all_cons, List.all_nil,
    Option.all_some, Bool.and_eq_true, true_and, and_true, hs.time, hs.event] at h ⊢
  exact ⟨h.1, h.2.1, h.2.2.1, h.2.2.2.1⟩

theorem RecoveryAuthority.finite_revoke {stamp : Stamp} (hs : stamp.Plain) (a : RecoveryAuthority)
    (h : (RecoveryAuthority.codec.encode a).finite = true) :
    (RecoveryAuthority.codec.encode (a.revoke stamp)).finite = true := by
  simp only [codec, revoke, Json.finite, finite_ofOptions, List.all_cons, List.all_nil,
    Option.all_some, Bool.and_eq_true, true_and, and_true, hs.time, hs.event] at h ⊢
  exact ⟨h.1, h.2.1, h.2.2.1, h.2.2.2.1⟩

theorem FederationTrust.finite_revoke {stamp : Stamp} (hs : stamp.Plain) (t : FederationTrust)
    (h : (FederationTrust.codec.encode t.unscoped).finite = true) :
    (FederationTrust.codec.encode (t.revoke stamp).unscoped).finite = true := by
  simp only [codec, revoke, unscoped, Json.finite, finite_ofOptions, List.all_cons, List.all_nil,
    Option.all_some, Bool.and_eq_true, true_and, and_true, hs.time, hs.event] at h ⊢
  exact ⟨h.1, h.2.1, h.2.2.1, h.2.2.2.1, h.2.2.2.2.1, h.2.2.2.2.2.1⟩

theorem plain_empty : Plain emptyAuthorityState where
  root := by simp [emptyAuthorityState]
  recovery := by simp [emptyAuthorityState]
  devices := by simp [emptyAuthorityState]
  sessions := by simp [emptyAuthorityState]
  trusts := by simp [emptyAuthorityState]
  sequence := rfl
  lastRecovery := by simp [emptyAuthorityState]

theorem Plain.setSequence {s : AuthorityState} (h : Plain s) (n : Number) :
    Plain (s.setSequence n) where
  root := h.root
  recovery := h.recovery
  devices := h.devices
  sessions := h.sessions
  trusts := h.trusts
  sequence := by
    unfold AuthorityState.setSequence
    dsimp only
    split
    · assumption
    · unfold numOr
      split
      · exact h.sequence
      · rfl
  lastRecovery := h.lastRecovery

/-- A plain change keeps a projection plain. -/
theorem Plain.apply {s : AuthorityState} {stamp : Stamp} {c : Change} (h : Plain s)
    (hs : stamp.Plain) (hc : c.Plain) : Plain (c.apply stamp s) := by
  have htime := hs.time
  have hevent := hs.event
  cases c with
  | establishRoot id ref =>
    refine { h with root := ?_ }
    rintro r ⟨⟩
    simp [RootAuthority.codec, Change.newRoot, Json.finite, Json.finiteFields, htime, hevent]
  | issueDevice id ref key =>
    refine { h with devices := finite_filter_append ?_ h.devices }
    have hkey : key.finite = true := hc
    simp [Device.codec, Change.newDevice, Json.finite, Json.finiteFields, htime, hevent, hkey]
  | revokeDevices target =>
    exact { h with devices := finite_map_ite (Device.finite_revoke hs) h.devices }
  | issueSession id ref device expires =>
    refine { h with sessions := finite_filter_append ?_ h.sessions }
    obtain ⟨hdevice, hexpires⟩ := hc
    simp [Session.codec, Change.newSession, Json.finite, finite_ofOptions, htime,
      hevent, hdevice, hexpires]
  | expireSessions target =>
    exact { h with sessions := finite_map_ite (Session.finite_expire hs) h.sessions }
  | issueRecovery id ref key issuer =>
    refine { h with recovery := finite_filter_append ?_ h.recovery }
    obtain ⟨hkey, hissuer⟩ := hc
    simp [RecoveryAuthority.codec, Change.newRecovery, Json.finite,
      finite_ofOptions, htime, hevent, hkey, hissuer]
  | revokeRecovery target =>
    exact { h with recovery := finite_map_ite (RecoveryAuthority.finite_revoke hs) h.recovery }
  | executeRecovery ref authority oldId oldRef newId newRef =>
    refine { h with lastRecovery := ?_ }
    rintro r ⟨⟩
    obtain ⟨h₁, h₂, h₃, h₄, h₅, h₆⟩ := hc
    simp [LastRecovery.codec, Json.finite, Json.finiteFields, htime, hevent, h₁, h₂, h₃, h₄, h₅, h₆]
  | establishTrust realm root scopes scope policy head =>
    refine { h with trusts := finite_filter_append ?_ h.trusts }
    obtain ⟨hroot, hscope, hpolicy, hhead⟩ := hc
    simp [FederationTrust.codec, FederationTrust.unscoped, Change.newTrust, Json.finite, finite_ofOptions, htime, hevent, hroot, hscope, hpolicy, hhead]
  | revokeTrust realm =>
    exact { h with trusts := finite_map_ite (FederationTrust.finite_revoke hs) h.trusts }

/-! ## Rounded scopes -/

/-- The trust as a copy through text leaves it. -/
def FederationTrust.rounded (t : FederationTrust) : FederationTrust :=
  { t with allowedClaimScopes := clone t.allowedClaimScopes }

/-- The projection with the scopes of the realms `stale` picks rounded. -/
def AuthorityState.rounded (stale : String → Bool) (s : AuthorityState) : AuthorityState :=
  { s with
    federationTrusts := s.federationTrusts.map fun t => if stale t.realmId then t.rounded else t }

theorem rounded_eq_self {stale : String → Bool} {s : AuthorityState} :
    s.rounded stale = s ↔
      ∀ t ∈ s.federationTrusts, stale t.realmId = true → t.allowedClaimScopes.finite = true := by
  have hround : ∀ t : FederationTrust, t.rounded = t ↔ t.allowedClaimScopes.finite = true := by
    intro t
    rw [finite_iff_clone]
    constructor
    · exact congrArg FederationTrust.allowedClaimScopes
    · intro h
      unfold FederationTrust.rounded
      rw [h]
  have hmap : s.rounded stale = s ↔
      s.federationTrusts.map (fun t => if stale t.realmId then t.rounded else t) =
        s.federationTrusts := by
    constructor
    · exact congrArg AuthorityState.federationTrusts
    · intro h
      unfold AuthorityState.rounded
      rw [h]
  rw [hmap]
  nth_rewrite 2 [← List.map_id s.federationTrusts]
  rw [List.map_inj_left]
  refine forall₂_congr fun t _ => ?_
  split
  · next h => simp [h, hround t]
  · next h => simp [h]

theorem clone_list {α : Type} {c : Codec α} {f : α → α} {xs : List α}
    (h : ∀ x ∈ xs, clone (c.encode x) = c.encode (f x)) :
    clone (c.list.encode xs) = c.list.encode (xs.map f) := by
  show Json.arr (Json.writtenList (xs.map c.encode)) = Json.arr ((xs.map f).map c.encode)
  congr 1
  induction xs with
  | nil => rfl
  | cons x xs ih =>
    have hx : (c.encode x).written = c.encode (f x) := h x List.mem_cons_self
    simp only [List.map_cons, Json.writtenList, hx]
    rw [ih fun y hy => h y (List.mem_cons_of_mem x hy)]

theorem clone_list_of_finite {α : Type} {c : Codec α} {xs : List α}
    (h : ∀ x ∈ xs, (c.encode x).finite = true) : clone (c.list.encode xs) = c.list.encode xs := by
  have hid := clone_list (f := id) fun x hx => finite_iff_clone.mp (h x hx)
  rwa [List.map_id] at hid

theorem FederationTrust.clone_encode {t : FederationTrust}
    (h : (codec.encode t.unscoped).finite = true) : clone (codec.encode t) = codec.encode t.rounded := by
  simp only [codec, unscoped, Json.finite, finite_ofOptions, List.all_cons, List.all_nil,
    Option.all_some, Bool.and_eq_true, true_and, and_true] at h
  obtain ⟨hroot, hscope, hpolicy, hhead, hat, hevent, hrevokedAt, hrevokedEvent⟩ := h
  simp only [codec, rounded, clone, Json.written, written_ofOptions, List.map_cons, List.map_nil,
    Option.map_some, map_written_of_all, Json.written_of_finite, *]

/-- A copy through text rounds the scopes of a plain projection. -/
theorem Plain.clone_encode {s : AuthorityState} (h : Plain s) :
    clone (AuthorityState.codec.encode s) =
      AuthorityState.codec.encode (s.rounded fun _ => true) := by
  have hrecovery := clone_list_of_finite h.recovery
  have hdevices := clone_list_of_finite h.devices
  have hsessions := clone_list_of_finite h.sessions
  have htrusts := clone_list (f := FederationTrust.rounded) fun t ht =>
    FederationTrust.clone_encode (h.trusts t ht)
  have hroot : clone ((RootAuthority.codec.orNull (by intro _ h; cases h)).encode s.rootAuthority) =
      (RootAuthority.codec.orNull (by intro _ h; cases h)).encode s.rootAuthority := by
    cases hs : s.rootAuthority with
    | none => rfl
    | some r => exact finite_iff_clone.mp (h.root r hs)
  have hlast : ∀ r ∈ s.lastRecovery, clone (LastRecovery.codec.encode r) = LastRecovery.codec.encode r :=
    fun r hr => finite_iff_clone.mp (h.lastRecovery r hr)
  unfold clone at *
  cases hr : s.lastRecovery with
  | none =>
    simp [AuthorityState.codec, AuthorityState.rounded, Json.written, written_ofOptions, hr, hroot, hrecovery, hdevices, hsessions, htrusts, h.sequence]
  | some r =>
    simp [AuthorityState.codec, AuthorityState.rounded, Json.written, written_ofOptions, hr, hroot, hrecovery, hdevices, hsessions, htrusts, h.sequence, hlast r hr]

/-! ## Changes and rounding -/

/-- The realm a change establishes a trust for. -/
def Change.trustedRealm : Change → Option String
  | establishTrust realm .. => some realm
  | _ => none

theorem rounded_setSequence (stale : String → Bool) (s : AuthorityState) (n : Number) :
    (s.rounded stale).setSequence n = (s.setSequence n).rounded stale := rfl

/-- A change does the same to rounded scopes; the trust it establishes is new. -/
theorem Change.apply_rounded (c : Change) (stamp : Stamp) (stale : String → Bool)
    (s : AuthorityState) :
    c.apply stamp (s.rounded stale) =
      (c.apply stamp s).rounded (fun realm => stale realm && c.trustedRealm != some realm) := by
  have hkeep : c.trustedRealm = none →
      (fun realm => stale realm && c.trustedRealm != some realm) = stale := by
    intro hc
    funext realm
    rw [hc]
    exact Bool.and_true _
  cases c with
  | establishTrust realm root scopes scope policy head =>
    simp only [apply, AuthorityState.rounded, trustedRealm, List.map_append, List.map_cons,
      List.map_nil, List.filter_map]
    congr 2
    · -- the trusts that stay belong to other realms
      have hfilter : (fun t : FederationTrust => t.realmId != realm) ∘
          (fun t => if stale t.realmId then t.rounded else t) = fun t => t.realmId != realm := by
        funext t
        dsimp only [Function.comp]
        split <;> rfl
      rw [hfilter]
      refine List.map_congr_left fun t ht => ?_
      have hne : t.realmId ≠ realm := by simpa using List.of_mem_filter ht
      simp [bne, Ne.symm hne]
    · simp [newTrust]
  | revokeTrust realm =>
    rw [hkeep rfl]
    simp only [apply, AuthorityState.rounded, List.map_map]
    congr 1
    refine List.map_congr_left fun t _ => ?_
    dsimp only [Function.comp]
    split <;> rename_i h <;> by_cases hr : t.realmId == realm <;>
      simp [h, hr, FederationTrust.rounded, FederationTrust.revoke]
  | _ =>
    rw [hkeep rfl]
    rfl

/-! ## Accepted events are plain -/

namespace OptionalString

theorem or {v w : Option Json} (hv : OptionalString v) (hw : OptionalString w) :
    OptionalString (Js.or v w) := by
  unfold Js.or
  split
  · exact hv
  · exact hw

theorem finite_orNull {v : Option Json} (h : OptionalString v) : (orNull v).finite = true := by
  cases h with
  | none | null => rfl
  | str x =>
    unfold orNull
    dsimp only
    split <;> rfl

end OptionalString

section
variable {host : Host} {clock : Clock} {s s' : AuthorityState} {fs : List HashedFields}
  {t : EventType} {n : NormalizedProposal} {event : Json}

theorem Checked.stampPlain (h : Checked host clock s fs t n event) :
    (stampOf n.envelope.toJson event).Plain where
  time := by
    have ht := h.timestamp
    show (timestampOf n.envelope.toJson event).finite = true
    have hprop : n.envelope.toJson.prop "timestamp" = some n.envelope.timestamp := rfl
    unfold timestampOf
    rw [hprop]
    cases hv : n.envelope.timestamp with
    | str x =>
      rw [hv] at ht
      have hne : x ≠ "" := ne_empty_of_trim (by simpa [isNonEmptyString] using ht)
      rw [or_str hne, orNull_str hne]
      rfl
    | _ =>
      rw [hv] at ht
      cases ht
  event := by
    obtain ⟨rest, hrest⟩ := h.stamp
    rw [hrest]
    rfl

/-- The fields of its contract an accepted event copies are strings. -/
theorem Checked.changePlain (h : Checked host clock s fs t n event) {k : Nat} {c : Change}
    (hc : changeOf n.envelope.toJson ((realmEventRegistry t).migrationAdapter (.obj n.payload)) t k =
      .ok c) : c.Plain := by
  have hpayload := validatePayload_eq_nil.mp h.payload
  have hsigner : OptionalString (n.envelope.toJson.prop "signer") := .str _
  have href : OptionalString (n.envelope.toJson.prop "authority_reference") := .str _
  cases t with
  | deviceKeyIssued =>
    obtain ⟨key, hkey, hne⟩ := hpayload.string "public_key" (by decide) (by decide)
    have hmigrated := get_deviceKeyIssued_migrated hkey (ne_empty_of_trim hne) (by decide)
    simp only [changeOf, readIssueDevice, bind_eq_ok, pure_eq_ok, Except.ok.injEq] at hc
    obtain ⟨_, -, _, -, rfl⟩ := hc
    show (orNull ((deviceKeyIssuedMigrationAdapter (.obj n.payload)).get "public_key")).finite = true
    rw [hmigrated, orNull_str (ne_empty_of_trim hne)]
    rfl
  | sessionAuthorityIssued =>
    simp only [changeOf, readIssueSession, bind_eq_ok, pure_eq_ok, Except.ok.injEq] at hc
    obtain ⟨_, -, _, -, rfl⟩ := hc
    exact ⟨(hpayload.optional "device_ref" (by decide)).finite_orNull,
      (hpayload.optional "expires_at" (by decide)).finite_orNull⟩
  | recoveryAuthorityIssued =>
    simp only [changeOf, readIssueRecovery, bind_eq_ok, pure_eq_ok, Except.ok.injEq] at hc
    obtain ⟨_, -, _, -, rfl⟩ := hc
    exact ⟨(hpayload.optional "public_key" (by decide)).finite_orNull, hsigner.finite_orNull⟩
  | recoveryExecuted =>
    simp only [changeOf, readExecuteRecovery, Except.ok.injEq] at hc
    subst hc
    have hold := hpayload.optional "old_device_id" (by decide)
    exact ⟨((hpayload.optional "recovery_ref" (by decide)).or href).finite_orNull,
      hsigner.finite_orNull, hold.finite_orNull,
      ((hpayload.optional "old_device_ref" (by decide)).or hold).finite_orNull,
      (hpayload.optional "new_device_id" (by decide)).finite_orNull,
      (hpayload.optional "new_device_authority_ref" (by decide)).finite_orNull⟩
  | federationTrustEstablished | federationTrustUpdated =>
    simp only [changeOf, readEstablishTrust, bind_eq_ok, pure_eq_ok, Except.ok.injEq] at hc
    obtain ⟨_, -, rfl⟩ := hc
    exact ⟨(hpayload.optional "trusted_root_authority" (by decide)).finite_orNull,
      ((hpayload.optional "trust_scope" (by decide)).or (.str "claims")).finite_orNull,
      (hpayload.optional "policy_id" (by decide)).finite_orNull,
      (hpayload.optional "remote_event_head" (by decide)).finite_orNull⟩
  | _ =>
    have hmem := mem_types_of_changeOf hc
    -- the other kinds of change are not of this type
    cases c <;> trivial

theorem Accepts.plain (h : Accepts host clock s fs t n event s') (hs : Plain s) : Plain s' := by
  obtain ⟨c, hc, rfl⟩ := h.change
  exact (hs.setSequence _).apply h.stampPlain (h.changePlain hc)

end

end SimpleL1.Realm
