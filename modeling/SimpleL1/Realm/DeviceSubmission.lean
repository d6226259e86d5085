import SimpleL1.Realm.Confinement

/-!
# Events signed by a device

`submitDeviceEvent` looks up the device its signer names, checks the signature
under that device's key and hands the normalised proposal to acceptance. What the
event may then do is decided by the signer's name alone, so a device whose name a
root or a recovery authority shares acts with their power.
-/

namespace SimpleL1.Realm

open SimpleL1.Js

/-! ## The submission runtime -/

/-- A normalised proposal as the object it is. -/
def NormalizedProposal.toJson (n : NormalizedProposal) : Json :=
  .obj [("envelope", n.envelope.toJson), ("payload", .obj n.payload)]

/-- `deviceProposalSigningMaterial` of a normalised proposal, whose fields have their types. -/
def deviceProposalSigningMaterial (n : NormalizedProposal) : Json :=
  .obj [("authority_reference", .str (trim n.envelope.authority_reference)),
    ("payload", .obj n.payload), ("sequence", .num n.envelope.sequence),
    ("signer", .str (trim n.envelope.signer)), ("type", .str (trim n.envelope.type))]

def signDeviceProposal (host : Host) (n : NormalizedProposal) (publicKey : Json) : JsM String :=
  (strOrEmpty (some publicKey)).map fun key =>
    host.hmac key (canonicalEncode (deviceProposalSigningMaterial n))

def activeDeviceForSigner (state : AuthorityState) (signerRef : String) : Option Device :=
  match findDevice state signerRef with
  | some device => if device.status = .active then some device else none
  | none => none

inductive Verification where
  | refused (reason_codes : List String) (proposal : NormalizedProposal)
  | verified (proposal : NormalizedProposal) (device : Device)

def verifyDeviceSignature (host : Host) (now : String) (ledger : Ledger) (signedProposal : Json) :
    JsM Verification := do
  if let .null := signedProposal then
    throw (.typeError "Cannot read properties of null (reading 'proposal')")
  let proposal := (or (signedProposal.prop "proposal") (some signedProposal)).getD .null
  let signature ← strOrEmpty (signedProposal.prop "signature")
  let normalized ← normalizeRealmEventProposal now proposal
  let state ← currentAuthorityStateForLedger host ledger
  match activeDeviceForSigner state normalized.envelope.signer with
  | none => return .refused ["DEVICE_SIGNER_NOT_ACTIVE"] normalized
  | some device =>
    if !device.publicKey.truthy then return .refused ["DEVICE_PUBLIC_KEY_MISSING"] normalized
    else if signature = "" then return .refused ["DEVICE_SIGNATURE_REQUIRED"] normalized
    else
      let expectedSignature ← signDeviceProposal host normalized device.publicKey
      if signature ≠ expectedSignature then return .refused ["DEVICE_SIGNATURE_INVALID"] normalized
      else return .verified normalized device

/-- `submitDeviceEvent` with `acceptAndApplyRealmEvent` as its callback. -/
def submitDeviceEvent (host : Host) (now : String) (clock : Clock) (ledger : Ledger)
    (signedProposal : Json) : JsM Validation × Ledger :=
  match verifyDeviceSignature host now ledger signedProposal with
  | .error e => (.error e, ledger)
  | .ok (.refused codes n) => (.ok (.rejected codes n), ledger)
  | .ok (.verified n _) => acceptAndApplyRealmEvent host clock ledger n.toJson

/-! ## What a verified submission is -/

theorem verifyDeviceSignature_verified {host : Host} {now : String} {ledger : Ledger}
    {signedProposal : Json} {n : NormalizedProposal} {device : Device}
    (h : verifyDeviceSignature host now ledger signedProposal = .ok (.verified n device)) :
    ∃ state, n.envelope.Trimmed ∧ currentAuthorityStateForLedger host ledger = .ok state
      ∧ findDevice state n.envelope.signer = some device ∧ device.status = .active
      ∧ ∃ signature, strOrEmpty (signedProposal.prop "signature") = .ok signature
        ∧ signDeviceProposal host n device.publicKey = .ok signature := by
  unfold verifyDeviceSignature at h
  split at h
  · cases h
  obtain ⟨signature, hsig, h⟩ := bind_eq_ok.mp h
  obtain ⟨n', hn, h⟩ := bind_eq_ok.mp h
  obtain ⟨state, hstate, h⟩ := bind_eq_ok.mp h
  split at h
  · cases h
  next device' hdevice =>
  split at h
  · cases h
  split at h
  · cases h
  obtain ⟨expected, hexp, h⟩ := bind_eq_ok.mp h
  split at h
  · cases h
  next heq =>
  rw [not_not] at heq
  cases h
  unfold activeDeviceForSigner at hdevice
  split at hdevice
  · next found hfound =>
    split at hdevice
    · next hactive =>
      cases hdevice
      exact ⟨state, normalize_trimmed hn, hstate, hfound, hactive, signature, hsig, heq ▸ hexp⟩
    · cases hdevice
  · cases hdevice

/-- Acceptance normalises the normalised proposal again and keeps its signer. -/
theorem normalize_toJson_signer {now : String} {n n' : NormalizedProposal}
    (ht : n.envelope.Trimmed) (h : normalizeRealmEventProposal now n.toJson = .ok n') :
    n'.envelope.signer = n.envelope.signer := by
  have henv : proposalEnvelope n.toJson = n.envelope.toJson := rfl
  have htype : n.envelope.toJson.prop "type" = some (.str n.envelope.type) := rfl
  have hsigner : n.envelope.toJson.prop "signer" = some (.str n.envelope.signer) := rfl
  unfold normalizeRealmEventProposal at h
  split at h
  · next hnull => cases hnull
  simp only [henv, hsigner, strOrEmpty_str, bind_eq_ok, pure_eq_ok, Except.ok.injEq] at h
  obtain ⟨_, -, _, rfl, _, -, _, -, rfl⟩ := h
  exact ht.signer

/-! ## What a device's event may change -/

/-- Root, recovery power and trusts stay, and of the devices only `own` changes. -/
structure DeviceConfined (own : Device) (s s' : AuthorityState) : Prop where
  root : s'.rootAuthority = s.rootAuthority
  recoveries : s'.recoveryAuthorities = s.recoveryAuthorities
  recovery : s'.lastRecovery = s.lastRecovery
  trusts : s'.federationTrusts = s.federationTrusts
  devices : DevicesWithin (· = own) (·.id = own.id) s s'

/-- When a change reaches nothing but sessions and the entry `own`. -/
def Change.WithinDevice (s : AuthorityState) (own : Device) : Change → Prop
  | .issueSession .. | .expireSessions _ => True
  | .issueDevice id ref _ =>
    id = own.id ∧ ∀ d ∈ s.devices, d.id = id ∨ d.authorityRef = ref → d = own
  | .revokeDevices target => ∀ d ∈ s.devices, d.named target = true → d = own
  | .revokeRecovery target => ∀ a ∈ s.recoveryAuthorities, a.named target = false
  | .revokeTrust realm => ∀ t ∈ s.federationTrusts, t.realmId ≠ realm
  | .establishRoot .. | .issueRecovery .. | .executeRecovery .. | .establishTrust .. => False

theorem deviceConfined_iff {k : Nat} {s : AuthorityState} {stamp : Stamp} {n : Number} {c : Change}
    {own : Device} (hd : Dated k s) (hf : ¬ Before k stamp.event) :
    DeviceConfined own s (c.apply stamp (s.setSequence n)) ↔ c.WithinDevice s own := by
  cases c with
  | establishRoot id ref => exact ⟨fun h => establishRoot_changes hd hf id ref h.root, False.elim⟩
  | issueDevice id ref key =>
    constructor
    · intro h
      obtain ⟨hgone, hnew⟩ := (devicesWithin_issue hd hf).mp h.devices
      exact ⟨hnew, hgone⟩
    · rintro ⟨hnew, hgone⟩
      exact ⟨rfl, rfl, rfl, rfl, (devicesWithin_issue hd hf).mpr ⟨hgone, hnew⟩⟩
  | revokeDevices target =>
    constructor
    · intro h d hmd hnamed
      exact ((devicesWithin_revoke hd hf).mp h.devices d hmd hnamed).1
    · intro h
      refine ⟨rfl, rfl, rfl, rfl, (devicesWithin_revoke hd hf).mpr fun d hmd hnamed => ?_⟩
      have heq := h d hmd hnamed
      exact ⟨heq, by rw [← heq]; rfl⟩
  | issueSession id ref device expires =>
    exact ⟨fun _ => trivial, fun _ => ⟨rfl, rfl, rfl, rfl, devicesWithin_of_eq rfl⟩⟩
  | expireSessions target =>
    exact ⟨fun _ => trivial, fun _ => ⟨rfl, rfl, rfl, rfl, devicesWithin_of_eq rfl⟩⟩
  | issueRecovery id ref key issuer =>
    exact ⟨fun h => issueRecovery_changes hd hf _ _ _ _ h.recoveries, False.elim⟩
  | revokeRecovery target =>
    constructor
    · intro h; exact (revokeRecovery_keeps hd hf).mp h.recoveries
    · intro h
      exact ⟨rfl, (revokeRecovery_keeps hd hf).mpr h, rfl, rfl, devicesWithin_of_eq rfl⟩
  | executeRecovery a b d e f g =>
    exact ⟨fun h => executeRecovery_changes hd hf _ _ _ _ _ _ h.recovery, False.elim⟩
  | establishTrust realm a b d e f =>
    exact ⟨fun h => establishTrust_changes hd hf _ _ _ _ _ _ h.trusts, False.elim⟩
  | revokeTrust realm =>
    constructor
    · intro h; exact (revokeTrust_keeps hd hf).mp h.trusts
    · intro h
      exact ⟨rfl, rfl, rfl, (revokeTrust_keeps hd hf).mpr h, devicesWithin_of_eq rfl⟩

/-- An accepted submission of a device stays away from root and recovery power and from other devices
exactly when `WithinDevice` says so of the change it asks for. -/
theorem device_confinement_iff {host : Host} {now : String} {clock : Clock}
    {ledger ledger' : Ledger} {signedProposal event : Json} {n : NormalizedProposal}
    {s : AuthorityState} (h : Reachable host ledger)
    (hcall : submitDeviceEvent host now clock ledger signedProposal =
      (.ok (.accepted event n), ledger'))
    (hs : ledger.current_authority_state = some s) :
    ∃ own t c s', findDevice s n.envelope.signer = some own ∧ own.status = .active
      ∧ n.envelope.type = t.name
      ∧ changeOf n.envelope.toJson ((realmEventRegistry t).migrationAdapter (.obj n.payload)) t
        s.sessions.length = .ok c
      ∧ ledger'.current_authority_state = some s'
      ∧ (DeviceConfined own s s' ↔ c.WithinDevice s own) := by
  obtain ⟨s₀, fs, hlive, hdated⟩ := h.dated
  cases Option.some.inj (hlive.state.symm.trans hs)
  unfold submitDeviceEvent at hcall
  split at hcall
  · cases hcall
  · cases hcall
  next n₀ own hver =>
  obtain ⟨state, htrim, hstate, hown, hactive, -⟩ := verifyDeviceSignature_verified hver
  cases Except.ok.inj (hlive.current.symm.trans hstate)
  obtain ⟨t, s', hacc, hlive', -⟩ := hlive.accept hcall
  obtain ⟨c, hc, rfl⟩ := hacc.change
  have hnorm := (validateRealmEventProposal_accepted.mp (accept_eq_accepted hcall).1).1
  have hsigner := normalize_toJson_signer htrim hnorm
  exact ⟨own, t, c, _, hsigner ▸ hown, hactive, hacc.type, hc, hlive'.state,
    deviceConfined_iff hdated hacc.fresh⟩

/-! ### Two submissions -/

/-- The submission of entry 6 with a signature. -/
def aliceSubmission (host : Host) (e : ScriptEntry) (signature : String) : JsM Validation × Ledger :=
  submitDeviceEvent host scriptTime scriptClock (aliceLedger host)
    (.obj [("proposal", e.proposal 6), ("signature", .str signature)])

/-- The laptop opens a session. -/
def laptopOpensSession : ScriptEntry :=
  ⟨"SESSION_AUTHORITY_ISSUED", "laptop", "device:laptop", [("session_id", .str "s-1")],
    "9051e555ca27c6312f1cacfc965f3360ce42331c22a4a3e8bf27e22227ca83ff"⟩

/-- The text a device signs for entry 6. -/
def signedText (e : ScriptEntry) : String :=
  canonicalEncode (.obj [("authority_reference", .str e.authority_reference),
    ("payload", .obj e.payload), ("sequence", .num (.int 6)), ("signer", .str e.signer),
    ("type", .str e.type)])

def laptopSignature : String := "c25c16a42cac1956cf0b880dc9c9b7e06d57f171f821d67c8cd5f53f82a403b0"

def laptopHost : Host :=
  aliceHost laptopOpensSession [(("key-laptop", signedText laptopOpensSession), laptopSignature)]

theorem device_confinement_session :
    ∃ event n ledger' s own t c s',
      aliceSubmission laptopHost laptopOpensSession laptopSignature =
        (.ok (.accepted event n), ledger')
      ∧ findDevice s n.envelope.signer = some own
      ∧ changeOf n.envelope.toJson ((realmEventRegistry t).migrationAdapter (.obj n.payload)) t
        s.sessions.length = .ok c
      ∧ ledger'.current_authority_state = some s'
      ∧ (DeviceConfined own s s' ↔ c.WithinDevice s own) := by
  have hacc : acceptedView (aliceSubmission laptopHost laptopOpensSession laptopSignature).1 =
      some ("SESSION_AUTHORITY_ISSUED", "laptop") := by decide +kernel
  obtain ⟨event, n, ledger', hcall, -, -⟩ := exists_of_acceptedView hacc
  obtain ⟨s, fs, hlive⟩ := (reachable_alice laptopHost).live
  obtain ⟨own, t, c, s', hown, -, -, hc, hs', hiff⟩ :=
    device_confinement_iff (reachable_alice laptopHost) hcall hlive.state
  exact ⟨event, n, ledger', s, own, t, c, s', hcall, hown, hc, hs', hiff⟩

/-- The device named like the root rotates the root. -/
def aliceRotatesRoot : ScriptEntry :=
  ⟨"AUTHORITY_ROTATED", "alice", "alice", [("new_authority_ref", .str "root:mallory")],
    "38f377b672b0b528046f64509cef112029cfb1853d54fb2f8145d33b255ba47d"⟩

def aliceSignature : String := "0ce814690f5070edce23a3aae79ac951b82b3b964d81e07bdb74119df7f2144a"

def aliceDeviceHost : Host :=
  aliceHost aliceRotatesRoot [(("key-alice", signedText aliceRotatesRoot), aliceSignature)]

theorem device_confinement_fails :
    ¬ ∀ (host : Host) (now : String) (clock : Clock) (ledger ledger' : Ledger)
      (signedProposal event : Json) (n : NormalizedProposal) (s s' : AuthorityState) (own : Device),
      Reachable host ledger →
      submitDeviceEvent host now clock ledger signedProposal = (.ok (.accepted event n), ledger') →
      ledger.current_authority_state = some s → ledger'.current_authority_state = some s' →
      findDevice s n.envelope.signer = some own → DeviceConfined own s s' := by
  intro h
  have hfacts : acceptedView (aliceSubmission aliceDeviceHost aliceRotatesRoot aliceSignature).1 =
        some ("AUTHORITY_ROTATED", "alice")
      ∧ stateView (fun s => ((findDevice s "alice").map (·.id), s.rootAuthority.map (·.authorityRef)))
        (aliceLedger aliceDeviceHost) = some (some "alice", some "root:alice")
      ∧ stateView (fun s => s.rootAuthority.map (·.authorityRef))
        (aliceSubmission aliceDeviceHost aliceRotatesRoot aliceSignature).2 =
          some (some "root:mallory") := by decide +kernel
  obtain ⟨hacc, hbefore, hafter⟩ := hfacts
  obtain ⟨event, n, ledger', hcall, -, hsigner⟩ := exists_of_acceptedView hacc
  obtain ⟨s, hs, hview⟩ := exists_of_stateView hbefore
  rw [hcall] at hafter
  obtain ⟨s', hs', hroot'⟩ := exists_of_stateView hafter
  simp only [Prod.mk.injEq, Option.map_eq_some_iff] at hview
  obtain ⟨⟨own, hown, -⟩, root, hroot, href⟩ := hview
  have hconf := h _ _ _ _ _ _ event n s s' own (reachable_alice _) hcall hs hs' (hsigner ▸ hown)
  rw [hconf.root, hroot, Option.map_some, href] at hroot'
  exact absurd hroot' (by decide)

end SimpleL1.Realm
