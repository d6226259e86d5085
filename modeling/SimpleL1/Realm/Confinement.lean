import SimpleL1.Realm.Freshness
import SimpleL1.Realm.LiveState
import SimpleL1.Realm.Payload

/-!
# What a signer's power reaches

A change with a fresh stamp shows exactly on the entries it matches. So for a
device that revokes, and for a recovery authority, one can say exactly when an
accepted event stays within what its signer stands for: the handler matches
names, and names may be shared.
-/

namespace SimpleL1.Realm

open SimpleL1.Js

/-! ## Changed entries -/

/-- Every entry of `devices` that is gone satisfies `gone`, every new one satisfies `new`. -/
structure DevicesWithin (gone new : Device → Prop) (s s' : AuthorityState) : Prop where
  gone : ∀ d ∈ s.devices, d ∉ s'.devices → gone d
  new : ∀ d ∈ s'.devices, d ∉ s.devices → new d

section
variable {k : Nat} {s : AuthorityState} {stamp : Stamp} {n : Number} {gone new : Device → Prop}

theorem revoke_not_mem (hd : Dated k s) (hf : ¬ Before k stamp.event) (d : Device) :
    d.revoke stamp ∉ s.devices :=
  fun h => hf (hd.devices _ h).2

theorem newDevice_not_mem (hd : Dated k s) (hf : ¬ Before k stamp.event) (id ref : String)
    (key : Json) : Change.newDevice stamp id ref key ∉ s.devices :=
  fun h => hf (hd.devices _ h).1

theorem devicesWithin_of_eq {s' : AuthorityState} (h : s'.devices = s.devices) :
    DevicesWithin gone new s s' :=
  ⟨fun _ hd hno => absurd (h ▸ hd) hno, fun _ hd hno => absurd (h ▸ hd) hno⟩

theorem devicesWithin_issue (hd : Dated k s) (hf : ¬ Before k stamp.event) {id ref : String}
    {key : Json} :
    DevicesWithin gone new s ((Change.issueDevice id ref key).apply stamp (s.setSequence n)) ↔
      (∀ d ∈ s.devices, d.id = id ∨ d.authorityRef = ref → gone d)
        ∧ new (Change.newDevice stamp id ref key) := by
  have hmem : ∀ d, d ∈ ((Change.issueDevice id ref key).apply stamp (s.setSequence n)).devices ↔
      (d ∈ s.devices ∧ d.id ≠ id ∧ d.authorityRef ≠ ref) ∨ d = Change.newDevice stamp id ref key := by
    intro d
    simp [Change.apply, AuthorityState.setSequence]
  constructor
  · intro h
    constructor
    · intro d hmd hmatch
      apply h.gone d hmd
      rw [hmem]
      rintro (⟨-, hid, href⟩ | rfl)
      · exact hmatch.elim hid href
      · exact newDevice_not_mem hd hf _ _ _ hmd
    · exact h.new _ ((hmem _).mpr (.inr rfl)) (newDevice_not_mem hd hf _ _ _)
  · rintro ⟨hgone, hnew⟩
    constructor
    · intro d hmd hno
      apply hgone d hmd
      by_contra hmatch
      rw [not_or] at hmatch
      exact hno ((hmem d).mpr (.inl ⟨hmd, hmatch⟩))
    · intro d hmd hno
      rcases (hmem d).mp hmd with ⟨hold, -⟩ | rfl
      · exact absurd hold hno
      · exact hnew

theorem devicesWithin_revoke (hd : Dated k s) (hf : ¬ Before k stamp.event) {target : String} :
    DevicesWithin gone new s ((Change.revokeDevices target).apply stamp (s.setSequence n)) ↔
      ∀ d ∈ s.devices, d.named target = true → gone d ∧ new (d.revoke stamp) := by
  have hmem : ∀ d, d ∈ ((Change.revokeDevices target).apply stamp (s.setSequence n)).devices ↔
      ∃ d₀ ∈ s.devices, (if d₀.named target then d₀.revoke stamp else d₀) = d := by
    intro d
    simp only [Change.apply, AuthorityState.setSequence, List.mem_map]
  constructor
  · intro h d hmd hnamed
    constructor
    · apply h.gone d hmd
      rw [hmem]
      rintro ⟨d₀, hd₀, heq⟩
      split at heq
      · rw [← heq] at hmd
        exact revoke_not_mem hd hf d₀ hmd
      · next hno => rw [heq] at hno; exact hno hnamed
    · apply h.new _ ((hmem _).mpr ⟨d, hmd, if_pos hnamed⟩) (revoke_not_mem hd hf d)
  · intro h
    constructor
    · intro d hmd hno
      have hnamed : d.named target = true := by
        by_contra hn
        exact hno ((hmem d).mpr ⟨d, hmd, if_neg hn⟩)
      exact (h d hmd hnamed).1
    · intro d hmd hno
      obtain ⟨d₀, hd₀, heq⟩ := (hmem d).mp hmd
      split at heq
      · next hnamed => exact heq ▸ (h d₀ hd₀ hnamed).2
      · exact absurd (heq ▸ hd₀) hno

/-! ## Other tables -/

theorem establishRoot_changes (hd : Dated k s) (hf : ¬ Before k stamp.event) (id ref : String) :
    ((Change.establishRoot id ref).apply stamp (s.setSequence n)).rootAuthority ≠ s.rootAuthority :=
  fun h => hf (hd.root _ h.symm)

theorem issueRecovery_changes (hd : Dated k s) (hf : ¬ Before k stamp.event) (id ref : String)
    (key issuer : Json) :
    ((Change.issueRecovery id ref key issuer).apply stamp (s.setSequence n)).recoveryAuthorities ≠
      s.recoveryAuthorities := by
  intro h
  have hmem : Change.newRecovery stamp id ref key issuer ∈ s.recoveryAuthorities := by
    rw [← h]
    exact List.mem_append_right _ (List.mem_singleton_self _)
  exact hf (hd.recoveries _ hmem).1

theorem executeRecovery_changes (hd : Dated k s) (hf : ¬ Before k stamp.event)
    (a b c d e g : Json) :
    ((Change.executeRecovery a b c d e g).apply stamp (s.setSequence n)).lastRecovery ≠
      s.lastRecovery :=
  fun h => hf (hd.recovery _ h.symm)

theorem issueSession_changes (hd : Dated k s) (hf : ¬ Before k stamp.event) (id ref : String)
    (device expires : Json) :
    ((Change.issueSession id ref device expires).apply stamp (s.setSequence n)).sessions ≠
      s.sessions := by
  intro h
  have hmem : Change.newSession stamp id ref device expires ∈ s.sessions := by
    rw [← h]
    exact List.mem_append_right _ (List.mem_singleton_self _)
  exact hf (hd.sessions _ hmem).1

theorem establishTrust_changes (hd : Dated k s) (hf : ¬ Before k stamp.event) (realm : String)
    (a b c d e : Json) :
    ((Change.establishTrust realm a b c d e).apply stamp (s.setSequence n)).federationTrusts ≠
      s.federationTrusts := by
  intro h
  have hmem : Change.newTrust stamp realm a b c d e ∈ s.federationTrusts := by
    rw [← h]
    exact List.mem_append_right _ (List.mem_singleton_self _)
  exact hf (hd.trusts _ hmem).1

/-- Rewriting the entries a test picks keeps a list exactly when it picks none. -/
theorem map_ite_eq_self {α : Type} {p : α → Bool} {f : α → α} {l : List α}
    (hf : ∀ x ∈ l, f x ≠ x) :
    l.map (fun x => if p x then f x else x) = l ↔ ∀ x ∈ l, p x = false := by
  rw [show (l.map (fun x => if p x then f x else x) = l) ↔
    (l.map (fun x => if p x then f x else x) = l.map id) by rw [List.map_id], List.map_inj_left]
  refine forall₂_congr fun x hx => ?_
  split
  · next hp => simp [hf x hx, hp]
  · next hp => simp [hp]

theorem revokeRecovery_keeps (hd : Dated k s) (hf : ¬ Before k stamp.event) {target : String} :
    ((Change.revokeRecovery target).apply stamp (s.setSequence n)).recoveryAuthorities =
      s.recoveryAuthorities ↔ ∀ a ∈ s.recoveryAuthorities, a.named target = false := by
  apply map_ite_eq_self
  intro a ha h
  have := (hd.recoveries _ ha).2
  rw [← h] at this
  exact hf this

theorem expireSessions_keeps (hd : Dated k s) (hf : ¬ Before k stamp.event) {target : String} :
    ((Change.expireSessions target).apply stamp (s.setSequence n)).sessions = s.sessions ↔
      ∀ x ∈ s.sessions, x.named target = false := by
  apply map_ite_eq_self
  intro x hx h
  have := (hd.sessions _ hx).2
  rw [← h] at this
  exact hf (this _ rfl)

theorem revokeTrust_keeps (hd : Dated k s) (hf : ¬ Before k stamp.event) {realm : String} :
    ((Change.revokeTrust realm).apply stamp (s.setSequence n)).federationTrusts =
      s.federationTrusts ↔ ∀ t ∈ s.federationTrusts, t.realmId ≠ realm := by
  have h := map_ite_eq_self (α := FederationTrust) (p := fun t : FederationTrust => t.realmId == realm)
    (f := fun t => t.revoke stamp) (l := s.federationTrusts) (by
      intro t ht h
      have := (hd.trusts _ ht).2
      rw [← h] at this
      exact hf (this _ rfl))
  simp only [beq_eq_false_iff_ne] at h
  exact h

end

/-! ## A device revokes -/

/-- Exactly `own` is revoked, every other device is as it was. -/
def RevokesOnly (own : Device) (s s' : AuthorityState) : Prop :=
  List.Forall₂ (fun d d' => (d = own → d'.status = .revoked) ∧ (d ≠ own → d' = d))
    s.devices s'.devices

theorem revokesOnly_iff {k : Nat} {s : AuthorityState} {stamp : Stamp} {n : Number} {own : Device}
    (hd : Dated k s) (hf : ¬ Before k stamp.event) (hown : own.status = .active) (target : String) :
    RevokesOnly own s ((Change.revokeDevices target).apply stamp (s.setSequence n)) ↔
      ∀ d ∈ s.devices, d.named target = true ↔ d = own := by
  unfold RevokesOnly
  simp only [Change.apply, AuthorityState.setSequence, List.forall₂_map_right_iff, List.forall₂_same]
  refine forall₂_congr fun d hmd => ?_
  by_cases hnamed : d.named target = true
  · have hne : d.revoke stamp ≠ d := fun h => revoke_not_mem hd hf d (h ▸ hmd)
    simp only [hnamed, if_true, true_iff]
    constructor
    · intro h; by_contra hno; exact hne (h.2 hno)
    · intro h; exact ⟨fun _ => rfl, fun hno => absurd h hno⟩
  · rw [Bool.not_eq_true] at hnamed
    simp only [hnamed, Bool.false_eq_true, if_false, false_iff]
    constructor
    · rintro ⟨h, -⟩ rfl
      rw [hown] at h
      cases h rfl
    · intro h; exact ⟨fun heq => absurd heq h, fun _ => trivial⟩

/-- The name the handler of a device revocation matches, read off the migrated payload. -/
def revokeTarget (n : NormalizedProposal) : JsM String :=
  strOrEmpty (targetDeviceRef (some (.str n.envelope.authority_reference))
    (deviceKeyRevokedMigrationAdapter (.obj n.payload)))

theorem Checked.changeOf_deviceKeyRevoked {host : Host} {clock : Clock} {s : AuthorityState}
    {fs : List HashedFields} {n : NormalizedProposal} {event : Json}
    (_h : Checked host clock s fs .deviceKeyRevoked n event) {c : Change} {m : Nat} :
    changeOf n.envelope.toJson
        ((realmEventRegistry .deviceKeyRevoked).migrationAdapter (.obj n.payload))
        .deviceKeyRevoked m = .ok c ↔
      ∃ target, revokeTarget n = .ok target ∧ c = .revokeDevices target := by
  have henv : n.envelope.toJson.prop "authority_reference" =
      some (.str n.envelope.authority_reference) := rfl
  simp only [changeOf, readRevokeDevices, henv, bind_eq_ok, pure_eq_ok, Except.ok.injEq]
  simp only [revokeTarget, realmEventRegistry, eq_comm]

/-- A revocation accepted from an active device, root and recovery authority or not, revokes the signer's
entry and no other exactly when the migrated target is a name of that entry and of no other. -/
theorem self_revocation_iff {host : Host} {clock : Clock} {ledger : Ledger} {proposal event : Json}
    {n : NormalizedProposal} {s : AuthorityState} (h : Reachable host ledger)
    (hval : validateRealmEventProposal host clock ledger proposal = .ok (.accepted event n))
    (htype : n.envelope.type = "DEVICE_KEY_REVOKED")
    (hs : ledger.current_authority_state = some s)
    (hdevice : isActiveDevice s n.envelope.signer = true) :
    ∃ own, findDevice s n.envelope.signer = some own ∧
      ((∃ s', applyAuthorityEvent s event = .ok s' ∧ RevokesOnly own s s') ↔
        ∃ target, revokeTarget n = .ok target ∧ ∀ d ∈ s.devices, d.named target = true ↔ d = own) := by
  obtain ⟨s₀, fs, hlive, hdated⟩ := h.dated
  cases Option.some.inj (hlive.state.symm.trans hs)
  obtain ⟨t, hcheck⟩ := hlive.check hval
  have ht : t = .deviceKeyRevoked :=
    EventType.name_injective (hcheck.type.symm.trans htype)
  subst ht
  have happly : applyAuthorityEvent s event = replayEvent s event := by
    rw [replayEvent, hcheck.shows.canonical]; rfl
  unfold isActiveDevice at hdevice
  split at hdevice
  · cases hdevice
  next own hown =>
  refine ⟨own, hown, ?_⟩
  have hiff := revokesOnly_iff (n := n.envelope.sequence) hdated hcheck.fresh (beq_iff_eq.mp hdevice)
  rw [happly]
  simp only [hcheck.replay_eq_ok, hcheck.changeOf_deviceKeyRevoked]
  constructor
  · rintro ⟨_, ⟨_, ⟨target, htarget, rfl⟩, rfl⟩, honly⟩
    exact ⟨target, htarget, (hiff target).mp honly⟩
  · rintro ⟨target, htarget, hnames⟩
    exact ⟨_, ⟨_, ⟨target, htarget, rfl⟩, rfl⟩, (hiff target).mpr hnames⟩

/-- The laptop revokes itself. -/
def laptopRevokesItself : ScriptEntry :=
  ⟨"DEVICE_KEY_REVOKED", "laptop", "device:laptop", [("device_id", .str "laptop")],
    "bc2fd8b1d2466df896f377362c5a35eef1311d3df4cfd574c905dabb53c4ede9"⟩

theorem self_revocation_laptop :
    ∃ event n s own, validateRealmEventProposal (aliceHost laptopRevokesItself) scriptClock
        (aliceLedger (aliceHost laptopRevokesItself)) (laptopRevokesItself.proposal 6) =
          .ok (.accepted event n)
      ∧ findDevice s n.envelope.signer = some own
      ∧ ((∃ s', applyAuthorityEvent s event = .ok s' ∧ RevokesOnly own s s') ↔
        ∃ target, revokeTarget n = .ok target
          ∧ ∀ d ∈ s.devices, d.named target = true ↔ d = own) := by
  obtain ⟨event, n, ledger', s, s', hcall, htype, hsigner, hs, hactive, -, -⟩ :=
    aliceCall_facts (aliceHost laptopRevokesItself) laptopRevokesItself
      (isActiveDevice · "laptop") (fun _ => ()) "DEVICE_KEY_REVOKED" "laptop" true ()
      (by decide +kernel)
  obtain ⟨hval, -⟩ := accept_eq_accepted hcall
  obtain ⟨own, hown, hiff⟩ :=
    self_revocation_iff (reachable_alice _) hval htype hs (hsigner ▸ hactive)
  exact ⟨event, n, s, own, hval, hown, hiff⟩

/-- The laptop revokes another device: the check sees its own reference, the adapter the other id. -/
def laptopRevokesAlice : ScriptEntry :=
  ⟨"DEVICE_KEY_REVOKED", "laptop", "device:laptop",
    [("device", .str "alice"), ("authority_ref", .str "device:laptop")],
    "c56ed7679ff62f6e2cb285030f6ed83f43ae7b14c344426c0c653941b3052637"⟩

theorem RevokesOnly.view {own : Device} {s s' : AuthorityState} (h : RevokesOnly own s s') :
    List.Forall₂ (fun v v' => v.1 ≠ own.id → v' = v) (deviceView s) (deviceView s') := by
  unfold deviceView
  rw [List.forall₂_map_left_iff, List.forall₂_map_right_iff]
  refine h.imp ?_
  rintro d d' ⟨-, hother⟩ hne
  rw [hother (fun heq => hne (heq ▸ rfl))]

theorem self_revocation_fails :
    ¬ ∀ (host : Host) (clock : Clock) (ledger : Ledger) (proposal event : Json)
      (n : NormalizedProposal) (s : AuthorityState) (own : Device), Reachable host ledger →
      validateRealmEventProposal host clock ledger proposal = .ok (.accepted event n) →
      n.envelope.type = "DEVICE_KEY_REVOKED" → ledger.current_authority_state = some s →
      isActiveDevice s n.envelope.signer = true → isActiveRoot s n.envelope.signer = false →
      isActiveRecoveryAuthority s n.envelope.signer = false →
      findDevice s n.envelope.signer = some own →
      ∃ s', applyAuthorityEvent s event = .ok s' ∧ RevokesOnly own s s' := by
  intro h
  obtain ⟨event, n, ledger', s, s', hcall, htype, hsigner, hs, hview, hs', hview'⟩ :=
    aliceCall_facts (aliceHost laptopRevokesAlice) laptopRevokesAlice
      (fun s => (isActiveDevice s "laptop" && !isActiveRoot s "laptop"
        && !isActiveRecoveryAuthority s "laptop", (findDevice s "laptop").map (·.id), deviceView s))
      deviceView "DEVICE_KEY_REVOKED" "laptop"
      (true, some "laptop", [("alice", .active), ("laptop", .active)])
      [("alice", .revoked), ("laptop", .active)]
      (by decide +kernel)
  simp only [Prod.mk.injEq, Bool.and_eq_true, Bool.not_eq_true', Option.map_eq_some_iff] at hview
  obtain ⟨⟨⟨hdevice, hroot⟩, hrecovery⟩, ⟨own, hown, hid⟩, hbefore⟩ := hview
  obtain ⟨hval, -⟩ := accept_eq_accepted hcall
  obtain ⟨s'', happly, honly⟩ := h _ _ _ _ event n s own (reachable_alice _) hval htype hs
    (hsigner ▸ hdevice) (hsigner ▸ hroot) (hsigner ▸ hrecovery) (hsigner ▸ hown)
  -- the state after the call is the one the event gives
  obtain ⟨s₀, fs, hlive⟩ := (reachable_alice (aliceHost laptopRevokesAlice)).live
  cases Option.some.inj (hlive.state.symm.trans hs)
  obtain ⟨t, s₁, hacc, hlive', -⟩ := hlive.accept hcall
  cases Option.some.inj (hlive'.state.symm.trans hs')
  have hsame : applyAuthorityEvent s event = .ok s' := by
    rw [← hacc.applied, replayEvent, hacc.shows.canonical]; rfl
  cases Except.ok.inj (happly.symm.trans hsame)
  have hrel := honly.view
  rw [hbefore, hview', hid] at hrel
  cases hrel with
  | cons hfirst _ => exact absurd (hfirst (by decide)) (by decide)

/-! ## A recovery authority acts -/

/-- The latest recovery names the entry as its old device, by id or by authority reference. -/
def NamedOld (s : AuthorityState) (d : Device) : Prop :=
  ∃ r, s.lastRecovery = some r
    ∧ (r.oldDeviceId = .str d.id ∨ r.oldDeviceRef = .str d.authorityRef)

/-- The latest recovery names the entry as its new device. -/
def NamedNew (s : AuthorityState) (d : Device) : Prop :=
  ∃ r, s.lastRecovery = some r ∧ r.newDeviceId = .str d.id

/-- Root, recovery authorities, sessions and trusts stay; of the devices only the old one is revoked
and the new one is issued. -/
structure RecoveryConfined (s s' : AuthorityState) : Prop where
  root : s'.rootAuthority = s.rootAuthority
  recoveries : s'.recoveryAuthorities = s.recoveryAuthorities
  sessions : s'.sessions = s.sessions
  trusts : s'.federationTrusts = s.federationTrusts
  devices : DevicesWithin (fun d => NamedOld s d ∨ NamedNew s d)
    (fun d => (NamedOld s d ∧ d.status = .revoked) ∨ (NamedNew s d ∧ d.status = .active)) s s'

/-- When a change a recovery authority may ask for stays within the recovery. -/
def Change.WithinRecovery (s : AuthorityState) : Change → Prop
  | .executeRecovery .. => True
  | .issueDevice _ ref _ => ∀ d ∈ s.devices, d.authorityRef = ref → NamedOld s d ∨ NamedNew s d
  | .revokeDevices target => ∀ d ∈ s.devices, d.named target = true → NamedOld s d
  | .expireSessions target => ∀ x ∈ s.sessions, x.named target = false
  | _ => False

theorem strictEq_some_str {v : Json} {x : String} (h : strictEq (some v) (some (.str x)) = true) :
    v = .str x := Option.some.inj (strictEq_str_iff.mp h)

/-- Apart from the two powers only a root has, a change stays within the recovery exactly when
`WithinRecovery` says so. -/
theorem recoveryConfined_iff {k : Nat} {s : AuthorityState} {stamp : Stamp} {n : Number} {c : Change}
    (hd : Dated k s) (hf : ¬ Before k stamp.event)
    (hissue : ∀ id ref key, c = .issueDevice id ref key →
      ∃ r, s.lastRecovery = some r ∧ r.newDeviceId = .str id)
    (hrecovery : ∀ target, c ≠ .revokeRecovery target) (htrust : ∀ realm, c ≠ .revokeTrust realm) :
    RecoveryConfined s (c.apply stamp (s.setSequence n)) ↔ c.WithinRecovery s := by
  cases c with
  | establishRoot id ref => exact ⟨fun h => establishRoot_changes hd hf id ref h.root, False.elim⟩
  | issueDevice id ref key =>
    obtain ⟨r, hr, hid⟩ := hissue id ref key rfl
    have hnew : ∀ d : Device, d.id = id → NamedNew s d := fun d hdid => ⟨r, hr, hdid ▸ hid⟩
    constructor
    · intro h d hmd href
      exact ((devicesWithin_issue hd hf).mp h.devices).1 d hmd (.inr href)
    · intro h
      refine ⟨rfl, rfl, rfl, rfl, (devicesWithin_issue hd hf).mpr ⟨?_, .inr ⟨hnew _ rfl, rfl⟩⟩⟩
      rintro d hmd (hdid | href)
      · exact .inr (hnew d hdid)
      · exact h d hmd href
  | revokeDevices target =>
    constructor
    · intro h d hmd hnamed
      rcases ((devicesWithin_revoke hd hf).mp h.devices d hmd hnamed).2 with ⟨hold, -⟩ | ⟨-, hact⟩
      · exact hold
      · cases hact
    · intro h
      refine ⟨rfl, rfl, rfl, rfl, (devicesWithin_revoke hd hf).mpr fun d hmd hnamed => ?_⟩
      exact ⟨.inl (h d hmd hnamed), .inl ⟨h d hmd hnamed, rfl⟩⟩
  | issueSession id ref device expires =>
    exact ⟨fun h => issueSession_changes hd hf _ _ _ _ h.sessions, False.elim⟩
  | expireSessions target =>
    constructor
    · intro h; exact (expireSessions_keeps hd hf).mp h.sessions
    · intro h
      exact ⟨rfl, rfl, (expireSessions_keeps hd hf).mpr h, rfl, devicesWithin_of_eq rfl⟩
  | issueRecovery id ref key issuer =>
    exact ⟨fun h => issueRecovery_changes hd hf _ _ _ _ h.recoveries, False.elim⟩
  | revokeRecovery target => exact absurd rfl (hrecovery target)
  | executeRecovery a b d e f g =>
    exact ⟨fun _ => trivial, fun _ => ⟨rfl, rfl, rfl, rfl, devicesWithin_of_eq rfl⟩⟩
  | establishTrust realm a b d e f =>
    exact ⟨fun h => establishTrust_changes hd hf _ _ _ _ _ _ h.trusts, False.elim⟩
  | revokeTrust realm => exact absurd rfl (htrust realm)

/-- A device issue accepted from a signer that is not the root is the new device of the recovery. -/
theorem Checked.issued_newDevice {host : Host} {clock : Clock} {s : AuthorityState}
    {fs : List HashedFields} {n : NormalizedProposal} {event : Json}
    (h : Checked host clock s fs .deviceKeyIssued n event)
    (hroot : isActiveRoot s n.envelope.signer = false) {id ref : String} {key : Json} {m : Nat}
    (hc : changeOf n.envelope.toJson
      ((realmEventRegistry .deviceKeyIssued).migrationAdapter (.obj n.payload)) .deviceKeyIssued m =
        .ok (.issueDevice id ref key)) :
    ∃ r, s.lastRecovery = some r ∧ r.newDeviceId = .str id := by
  obtain ⟨x, hx, hne⟩ :=
    (validatePayload_eq_nil.mp h.payload).string "device_id" (by decide) (by decide)
  have hid : x = id := by
    simp only [changeOf, readIssueDevice, realmEventRegistry,
      get_deviceKeyIssued_migrated hx (ne_empty_of_trim hne) (by decide), or_str (ne_empty_of_trim hne), toStr_str,
      bind_eq_ok, pure_eq_ok, Except.ok.injEq, Change.issueDevice.injEq] at hc
    obtain ⟨_, -, _, rfl, hid, -⟩ := hc
    exact hid
  have hrule := h.rule
  simp only [realmEventRegistry, validateDeviceKeyIssued, hroot, Bool.false_eq_true, if_false,
    pure_eq_ok, Except.ok.injEq] at hrule
  split at hrule
  · cases hrule
  next r hr =>
  split at hrule
  · cases hrule
  split at hrule
  · cases hrule
  split at hrule
  · cases hrule
  next hmatch =>
  rw [Bool.not_eq_true, Bool.not_eq_false', hx] at hmatch
  exact ⟨r, hr, hid ▸ strictEq_some_str hmatch⟩

/-- What any signer but the root, a recovery authority for one, had accepted stays within the recovery
exactly when `WithinRecovery` says so of the change it asked for. -/
theorem recovery_confinement_iff {host : Host} {clock : Clock} {ledger ledger' : Ledger}
    {proposal event : Json} {n : NormalizedProposal} {s : AuthorityState}
    (h : Reachable host ledger)
    (hcall : acceptAndApplyRealmEvent host clock ledger proposal =
      (.ok (.accepted event n), ledger'))
    (hs : ledger.current_authority_state = some s)
    (hroot : isActiveRoot s n.envelope.signer = false) :
    ∃ t c s', n.envelope.type = t.name
      ∧ changeOf n.envelope.toJson ((realmEventRegistry t).migrationAdapter (.obj n.payload)) t
        s.sessions.length = .ok c
      ∧ ledger'.current_authority_state = some s'
      ∧ (RecoveryConfined s s' ↔ c.WithinRecovery s) := by
  obtain ⟨s₀, fs, hlive, hdated⟩ := h.dated
  cases Option.some.inj (hlive.state.symm.trans hs)
  obtain ⟨t, s', hacc, hlive', -⟩ := hlive.accept hcall
  obtain ⟨c, hc, rfl⟩ := hacc.change
  refine ⟨t, c, _, hacc.type, hc, hlive'.state, ?_⟩
  have htypes := mem_types_of_changeOf hc
  apply recoveryConfined_iff hdated hacc.fresh
  · rintro id ref key rfl
    cases List.mem_singleton.mp htypes
    exact hacc.issued_newDevice hroot hc
  · -- only a root revokes recovery authorities and trusts
    rintro target rfl
    cases List.mem_singleton.mp htypes
    have hpolicy : isActiveRoot s n.envelope.signer = true := hacc.policy
    rw [hroot] at hpolicy
    cases hpolicy
  · rintro realm rfl
    cases List.mem_singleton.mp htypes
    have hpolicy : isActiveRoot s n.envelope.signer = true := hacc.policy
    rw [hroot] at hpolicy
    cases hpolicy

/-- The guardian issues the new device. -/
def guardianIssuesPhone : ScriptEntry :=
  ⟨"DEVICE_KEY_ISSUED", "guardian", "guardian",
    [("device_id", .str "phone-2"), ("public_key", .str "key-phone-2"),
      ("recovery_ref", .str "rec-1")],
    "18f4f1e8f148ca0a3e691fb15cd2dec061551b738ad7756ba6f212277b70890e"⟩

theorem recovery_confinement_phone :
    ∃ event n ledger' s t c s', aliceCall (aliceHost guardianIssuesPhone) guardianIssuesPhone =
        (.ok (.accepted event n), ledger')
      ∧ isActiveRecoveryAuthority s n.envelope.signer = true
      ∧ changeOf n.envelope.toJson ((realmEventRegistry t).migrationAdapter (.obj n.payload)) t
        s.sessions.length = .ok c
      ∧ ledger'.current_authority_state = some s'
      ∧ (RecoveryConfined s s' ↔ c.WithinRecovery s) := by
  obtain ⟨event, n, ledger', s, _, hcall, -, hsigner, hs, hview, -, -⟩ :=
    aliceCall_facts (aliceHost guardianIssuesPhone) guardianIssuesPhone
      (fun s => (isActiveRecoveryAuthority s "guardian", isActiveRoot s "guardian"))
      (fun _ => ()) "DEVICE_KEY_ISSUED" "guardian" (true, false) () (by decide +kernel)
  obtain ⟨hrecovery, hroot⟩ := Prod.mk.inj hview
  obtain ⟨t, c, s', -, hc, hs', hiff⟩ :=
    recovery_confinement_iff (reachable_alice _) hcall hs (hsigner ▸ hroot)
  exact ⟨event, n, ledger', s, t, c, s', hcall, hsigner ▸ hrecovery, hc, hs', hiff⟩

/-- The guardian issues the new device under the laptop's authority reference. -/
def guardianReplacesLaptop : ScriptEntry :=
  ⟨"DEVICE_KEY_ISSUED", "guardian", "guardian",
    [("device_id", .str "phone-2"), ("public_key", .str "key-phone-2"),
      ("recovery_ref", .str "rec-1"), ("authority_ref", .str "device:laptop")],
    "014f9e0f60d13c473cea9f51456ed5391b412193447a7cf19e9ac55cc4d5aeb2"⟩

/-- The names the latest recovery gives: old id, old reference, new id. -/
def recoveryView (s : AuthorityState) : Option (String × String × String) :=
  s.lastRecovery.map fun r =>
    (textOf (some r.oldDeviceId), textOf (some r.oldDeviceRef), textOf (some r.newDeviceId))

theorem recovery_confinement_fails :
    ¬ ∀ (host : Host) (clock : Clock) (ledger ledger' : Ledger) (proposal event : Json)
      (n : NormalizedProposal) (s s' : AuthorityState), Reachable host ledger →
      acceptAndApplyRealmEvent host clock ledger proposal = (.ok (.accepted event n), ledger') →
      ledger.current_authority_state = some s → ledger'.current_authority_state = some s' →
      isActiveRecoveryAuthority s n.envelope.signer = true →
      isActiveRoot s n.envelope.signer = false → RecoveryConfined s s' := by
  intro h
  obtain ⟨event, n, ledger', s, s', hcall, -, hsigner, hs, hview, hs', hafter⟩ :=
    aliceCall_facts (aliceHost guardianReplacesLaptop) guardianReplacesLaptop
      (fun s => (isActiveRecoveryAuthority s "guardian" && !isActiveRoot s "guardian",
        recoveryView s, s.devices.map fun d => [d.id, d.authorityRef]))
      deviceView "DEVICE_KEY_ISSUED" "guardian"
      (true, some ("alice", "alice", "phone-2"),
        [["alice", "device:alice"], ["laptop", "device:laptop"]])
      [("alice", .active), ("phone-2", .active)] (by decide +kernel)
  simp only [Prod.mk.injEq, Bool.and_eq_true, Bool.not_eq_true'] at hview
  obtain ⟨⟨hrecovery, hroot⟩, hnames, hdevices⟩ := hview
  have hconf := h _ _ _ _ _ event n s s' (reachable_alice _) hcall hs hs' (hsigner ▸ hrecovery)
    (hsigner ▸ hroot)
  -- the laptop is gone, and the recovery does not name it
  obtain ⟨d, hd, hnamed⟩ : ∃ d ∈ s.devices, [d.id, d.authorityRef] = ["laptop", "device:laptop"] := by
    have hmem : ["laptop", "device:laptop"] ∈ s.devices.map fun d => [d.id, d.authorityRef] := by
      rw [hdevices]; simp
    exact List.mem_map.mp hmem
  simp only [List.cons.injEq, and_true] at hnamed
  obtain ⟨hid, href⟩ := hnamed
  have hgone : d ∉ s'.devices := by
    intro hmem
    have hview : (d.id, d.status) ∈ deviceView s' := List.mem_map_of_mem hmem
    rw [hafter, hid] at hview
    simp at hview
  obtain ⟨r, hr, htexts⟩ := Option.map_eq_some_iff.mp hnames
  simp only [Prod.mk.injEq] at htexts
  obtain ⟨hold, holdRef, hnew⟩ := htexts
  rcases hconf.devices.gone d hd hgone with ⟨r', hr', hcase⟩ | ⟨r', hr', hcase⟩
  · cases Option.some.inj (hr.symm.trans hr')
    rcases hcase with hcase | hcase
    · rw [hcase, hid] at hold; exact absurd hold (by decide)
    · rw [hcase, href] at holdRef; exact absurd holdRef (by decide)
  · cases Option.some.inj (hr.symm.trans hr')
    rw [hcase, hid] at hnew
    exact absurd hnew (by decide)

end SimpleL1.Realm
