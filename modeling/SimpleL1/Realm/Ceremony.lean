import SimpleL1.Lib.Effect
import SimpleL1.Node.Platform
import SimpleL1.Realm.DeviceSubmission
import SimpleL1.Realm.Snapshot

/-!
# The recovery ceremony

Three events restore a realm after a lost device: the recovery is recorded, the new device
issued and the old one revoked. `executeRecoveryCeremony` hands them to its callback one by
one and returns at the first refusal. It takes nothing back: the events accepted so far are
listed in the result and stay in the log.
-/

namespace SimpleL1.Realm.Recovery

open SimpleL1.Js SimpleL1.Node SimpleL1.Lib.Effect

/-! ## The proposals -/

/-- `v.key` of a value that has been read before. -/
def read (v : Option Json) (key : String) : Option Json := v.bind (·.prop key)

def recoveryAuthorityRef (recoveryAuthority : Option Json) : JsM String := do
  let authorityRef ← member recoveryAuthority "authorityRef"
  toStr (or authorityRef (or (read recoveryAuthority "authority_ref")
    (or (read recoveryAuthority "id") recoveryAuthority)))

def deviceId (device : Option Json) : JsM String := do
  let id ← member device "id"
  toStr (or id (or (read device "device_id") device))

def deviceAuthorityRef (device : Option Json) : JsM String := do
  let authorityRef ← member device "authorityRef"
  let named := or authorityRef (or (read device "authority_ref") (read device "authority"))
  if truthy named then toStr named else (deviceId device).map ("device:" ++ ·)

/-- What the three proposals are made of. -/
structure Names where
  signer : String
  oldDeviceIdentifier : String
  oldDeviceRef : String
  newDeviceIdentifier : String
  newDeviceRef : String
  sequence : Number

/-- The argument is destructured, so that it has to be an object of some kind. -/
def destructure : Option Json → JsM Json
  | none => throw (.typeError ("Cannot destructure property 'recoveryAuthority' of 'undefined' "
      ++ "as it is undefined."))
  | some .null => throw (.typeError ("Cannot destructure property 'recoveryAuthority' of 'object null' "
      ++ "as it is null."))
  | some input => return input

def ceremonyNames (input : Json) : JsM Names := do
  let signer ← recoveryAuthorityRef (input.prop "recoveryAuthority")
  let oldDeviceIdentifier ← deviceId (input.prop "oldDevice")
  let oldDeviceRef ← deviceAuthorityRef (input.prop "oldDevice")
  let newDeviceIdentifier ← deviceId (input.prop "newDevice")
  let newDeviceRef ← deviceAuthorityRef (input.prop "newDevice")
  let sequence ← toNumber (input.prop "startSequence")
  if !sequence.isInteger || sequence.ltOne then throw (.error "RECOVERY_START_SEQUENCE_INVALID")
  return ⟨signer, oldDeviceIdentifier, oldDeviceRef, newDeviceIdentifier, newDeviceRef, sequence⟩

/-- The envelope all three proposals share. -/
def ceremonyProposal (type : EventType) (signer : String) (sequence : Number) (timestamp : Json)
    (payload : Fields) : Json :=
  .obj [("envelope", .obj [("type", .str type.name), ("signer", .str signer),
      ("authority_reference", .str signer), ("sequence", .num sequence),
      ("timestamp", timestamp)]),
    ("payload", .obj payload)]

section
variable (input : Json) (names : Names)

/-- `reason`, which has a default. -/
def ceremonyReason : Json := (input.prop "reason").getD (.str "recovery_ceremony")

def recoveryPayload : Fields :=
  .ofOptions [("recovery_ref", input.prop "recoveryRef"),
    ("old_device_id", some (.str names.oldDeviceIdentifier)),
    ("old_device_ref", some (.str names.oldDeviceRef)),
    ("new_device_id", some (.str names.newDeviceIdentifier)),
    ("new_device_authority_ref", some (.str names.newDeviceRef)),
    ("reason", some (ceremonyReason input))]

def issuePayload : Fields :=
  let newDevice := input.prop "newDevice"
  .ofOptions [("recovery_ref", input.prop "recoveryRef"),
    ("device_id", some (.str names.newDeviceIdentifier)),
    ("public_key", or (read newDevice "public_key") (read newDevice "publicKey")),
    ("authority_ref", some (.str names.newDeviceRef)),
    ("capabilities", some (Realm.arrayOrEmpty (read newDevice "capabilities")))]

def revokePayload : Fields :=
  .ofOptions [("recovery_ref", input.prop "recoveryRef"),
    ("device_id", some (.str names.oldDeviceIdentifier)),
    ("authority_ref", some (.str names.oldDeviceRef)),
    ("reason", some (ceremonyReason input))]

/-- The proposals of a ceremony at the time `timestamp`. -/
def ceremonyProposals (timestamp : Json) : List Json :=
  [ceremonyProposal .recoveryExecuted names.signer names.sequence timestamp
      (recoveryPayload input names),
    ceremonyProposal .deviceKeyIssued names.signer names.sequence.succ timestamp
      (issuePayload input names),
    ceremonyProposal .deviceKeyRevoked names.signer names.sequence.succ.succ timestamp
      (revokePayload input names)]

end

/-- `now` is the reading that replaces a missing timestamp. -/
def createRecoveryCeremonyProposals (now : String) (input : Option Json) : JsM (List Json) := do
  let input ← destructure input
  let names ← ceremonyNames input
  return ceremonyProposals input names ((input.prop "timestamp").getD (.str now))

/-! ## Execution -/

inductive CeremonyResult where
  | stopped (failedProposal reason_codes : Json) (acceptedEvents : List (Option Json))
      (proposals : List Json)
  | executed (acceptedEvents : List (Option Json)) (proposals : List Json)

namespace CeremonyResult

def ok : CeremonyResult → Bool
  | stopped .. => false
  | executed .. => true

def acceptedEvents : CeremonyResult → List (Option Json)
  | stopped _ _ events _ => events
  | executed events _ => events

end CeremonyResult

section
variable {σ : Type} (acceptRealmEvent : Json → EStateM Error σ (Option Json))

/-- The loop over the proposals that are left. -/
def acceptProposals (proposals : List Json) :
    List Json → List (Option Json) → EStateM Error σ CeremonyResult
  | [], acceptedEvents => pure (.executed acceptedEvents proposals)
  | proposal :: rest, acceptedEvents => do
    let result ← acceptRealmEvent proposal
    let ok ← member result "ok"
    if truthy ok then acceptProposals proposals rest (acceptedEvents ++ [read result "event"])
    else pure (.stopped proposal (orElse (read result "reason_codes") (.arr [])) acceptedEvents
      proposals)

def executeRecoveryCeremony (now : String) (input : Option Json) :
    EStateM Error σ CeremonyResult := do
  let proposals ← createRecoveryCeremonyProposals now input
  acceptProposals acceptRealmEvent proposals proposals []

end

/-! ## The ledger's callback -/

/-- The validator's result as the object it is. -/
def validationJson : Validation → Json
  | .rejected codes n => .obj [("ok", .bool false), ("reason_codes", .arr (codes.map .str)),
      ("proposal", n.toJson)]
  | .accepted event n => .obj [("ok", .bool true), ("event", event), ("proposal", n.toJson)]

/-- A ledger and the clock readings its calls will take. -/
abbrev Timed := Ledger × (Nat → Clock)

/-- `acceptAndApplyRealmEvent` on the ledger, one clock for each call. -/
def ledgerAccept (host : Host) (proposal : Json) : EStateM Error Timed (Option Json) :=
  fun (ledger, clocks) =>
    let rest := fun i => clocks (i + 1)
    match acceptAndApplyRealmEvent host (clocks 0) ledger proposal with
    | (.error e, ledger) => .error e (ledger, rest)
    | (.ok validation, ledger) => .ok (some (validationJson validation)) (ledger, rest)

/-! ## One proposal -/

theorem trimmed_name (t : EventType) : trim t.name = t.name := by cases t <;> decide

/-- The proposal as the validator normalises it. -/
def ceremonyNormalized (now : String) (type : EventType) (signer : String) (sequence : Number)
    (timestamp : Json) (payload : Fields) : NormalizedProposal where
  envelope := {
    type := type.name
    signer := trim signer
    authority_reference := trim signer
    sequence := sequence
    timestamp := (or (some timestamp) (some (.str now))).getD .null
    previous_event_hash := .null }
  payload := payload

theorem normalize_ceremony (now : String) (t : EventType) (signer : String) (sequence : Number)
    (timestamp : Json) (payload : Fields) :
    normalizeRealmEventProposal now (ceremonyProposal t signer sequence timestamp payload) =
      .ok (ceremonyNormalized now t signer sequence timestamp payload) := by
  show (do
    let type ← strOrEmpty (some (.str t.name))
    let signer' ← strOrEmpty (some (.str signer))
    let authority_reference ← strOrEmpty (some (.str signer))
    return ⟨⟨trim type, trim signer', trim authority_reference, sequence,
      (or (some timestamp) (some (.str now))).getD .null, .null⟩, payload⟩ : JsM NormalizedProposal) = _
  rw [strOrEmpty_str, strOrEmpty_str, ok_bind, ok_bind, ok_bind, trimmed_name]
  rfl

section
variable {host : Host} {ledger : Ledger} {s : AuthorityState} {fs : List HashedFields}

theorem exists_codes (h : Live host ledger s fs) {n : NormalizedProposal} {t : EventType}
    (ht : n.envelope.type = t.name) (hprevious : n.envelope.previous_event_hash = .null)
    (hrule : ∃ codes, (realmEventRegistry t).validateTransition s n.envelope n.payload = .ok codes) :
    ∃ codes, proposalReasonCodes host ledger n false = .ok codes := by
  obtain ⟨codes, hcodes⟩ := hrule
  unfold proposalReasonCodes
  simp only [Bool.false_eq_true, if_false]
  split
  · exact ⟨_, rfl⟩
  split
  · exact ⟨_, rfl⟩
  have hnull : validatePreviousEventHash ledger n.envelope.previous_event_hash = .ok [] := by
    rw [hprevious]
    rfl
  rw [hnull, ok_bind, if_neg (not_not_intro rfl), h.current, ok_bind]
  unfold validateAuthorityTransition
  simp only [ht, registryLookup_name, hcodes, ok_bind]
  exact ⟨_, rfl⟩

/-- A live ledger answers a proposal whose texts can be read: it refuses it and stays as it
is, or it accepts it and stays live. -/
theorem accept_cases (h : Live host ledger s fs) (clock : Clock) {proposal : Json}
    {n : NormalizedProposal} {t : EventType} (ht : n.envelope.type = t.name)
    (hn : normalizeRealmEventProposal clock.now proposal = .ok n)
    (hprevious : n.envelope.previous_event_hash = .null)
    (hrule : ∃ codes, (realmEventRegistry t).validateTransition s n.envelope n.payload = .ok codes)
    (hchange : ∃ c, changeOf n.envelope.toJson
      ((realmEventRegistry t).migrationAdapter (.obj n.payload)) t s.sessions.length = .ok c) :
    (∃ codes, acceptAndApplyRealmEvent host clock ledger proposal = (.ok (.rejected codes n), ledger))
    ∨ ∃ event ledger' s', acceptAndApplyRealmEvent host clock ledger proposal =
          (.ok (.accepted event n), ledger')
        ∧ Accepts host clock s fs t n event s' ∧ Live host ledger' s' (fs ++ [n.hashed]) := by
  obtain ⟨codes, hcodes⟩ := exists_codes h ht hprevious hrule
  by_cases hnil : codes = []
  · subst hnil
    obtain ⟨_, state, had⟩ := proposalReasonCodes_eq_nil.mp hcodes
    have hval : validateRealmEventProposal host clock ledger proposal =
        .ok (.accepted (acceptedEvent host clock n (digest (headOf host fs))) n) :=
      validateRealmEventProposal_accepted.mpr ⟨hn, ⟨_, state, had⟩, _, h.latest, rfl⟩
    obtain ⟨u, hcheck⟩ := h.check hval
    obtain rfl : u = t := EventType.name_injective (hcheck.type.symm.trans ht)
    obtain ⟨c, hc⟩ := hchange
    have happlied := hcheck.replay_eq_ok.mpr ⟨c, hc, rfl⟩
    obtain ⟨ledger', hcall⟩ := h.accepts hn { hcheck with applied := happlied } (.inl hprevious)
    obtain ⟨v, s', hacc, hlive, -⟩ := h.accept hcall
    obtain rfl : v = u := EventType.name_injective (hacc.type.symm.trans ht)
    exact .inr ⟨_, ledger', s', hcall, hacc, hlive⟩
  · have hval : validateRealmEventProposal host clock ledger proposal = .ok (.rejected codes n) := by
      unfold validateRealmEventProposal
      rw [hn, ok_bind, hcodes, ok_bind, if_pos hnil]
      rfl
    left
    refine ⟨codes, ?_⟩
    unfold acceptAndApplyRealmEvent
    rw [hval]

end

/-! ## The three stages -/

theorem strOrEmpty_optional {v : Option Json} (h : OptionalString v) : ∃ x, strOrEmpty v = .ok x := by
  cases h with
  | none => exact ⟨"", rfl⟩
  | null => exact ⟨"", rfl⟩
  | str x => exact ⟨x, strOrEmpty_str x⟩

theorem found_device {s : AuthorityState} {key : String} {d : Device} (h : findDevice s key = some d) :
    d ∈ s.devices ∧ d.named key = true :=
  ⟨List.mem_of_find?_eq_some h, List.find?_some (p := (Device.named · key)) h⟩

section
variable (input : Json) (names : Names)

@[simp] theorem old_device_id_recovery :
    (recoveryPayload input names).get "old_device_id" = some (.str names.oldDeviceIdentifier) := by
  simp [recoveryPayload]

@[simp] theorem new_device_id_recovery :
    (recoveryPayload input names).get "new_device_id" = some (.str names.newDeviceIdentifier) := by
  simp [recoveryPayload]

@[simp] theorem device_id_issue :
    (issuePayload input names).get "device_id" = some (.str names.newDeviceIdentifier) := by
  simp [issuePayload]

@[simp] theorem authority_ref_issue :
    (issuePayload input names).get "authority_ref" = some (.str names.newDeviceRef) := by
  simp [issuePayload]

@[simp] theorem device_id_revoke :
    (revokePayload input names).get "device_id" = some (.str names.oldDeviceIdentifier) := by
  simp [revokePayload]

@[simp] theorem authority_ref_revoke :
    (revokePayload input names).get "authority_ref" = some (.str names.oldDeviceRef) := by
  simp [revokePayload]

theorem get_issue_absent {k : String}
    (h : k ∉ ["recovery_ref", "device_id", "public_key", "authority_ref", "capabilities"]) :
    (issuePayload input names).get k = none := by
  simp only [List.mem_cons, List.not_mem_nil, or_false, not_or] at h
  obtain ⟨h1, h2, h3, h4, h5⟩ := h
  simp [issuePayload, h1, h2, h3, h4, h5]

theorem get_revoke_absent {k : String}
    (h : k ∉ ["recovery_ref", "device_id", "authority_ref", "reason"]) :
    (revokePayload input names).get k = none := by
  simp only [List.mem_cons, List.not_mem_nil, or_false, not_or] at h
  obtain ⟨h1, h2, h3, h4⟩ := h
  simp [revokePayload, h1, h2, h3, h4]

/-- The adapters find nothing to rename. -/
theorem issue_migrated :
    deviceKeyIssuedMigrationAdapter (.obj (issuePayload input names)) = issuePayload input names := by
  have hcapabilities : ((issuePayload input names).get "capabilities").any Json.isArray = true := by
    have harray (v : Option Json) : (Realm.arrayOrEmpty v).isArray = true := by
      unfold Realm.arrayOrEmpty
      split <;> rfl
    simp [issuePayload, harray]
  unfold deviceKeyIssuedMigrationAdapter
  dsimp only [Json.spread_obj]
  rw [fillFrom_of_absent (get_issue_absent input names (by decide)),
    fillFrom_of_absent (get_issue_absent input names (by decide)),
    fillFrom_of_absent (get_issue_absent input names (by decide)), hcapabilities]
  rfl

theorem revoke_migrated :
    deviceKeyRevokedMigrationAdapter (.obj (revokePayload input names)) = revokePayload input names := by
  unfold deviceKeyRevokedMigrationAdapter
  dsimp only [Json.spread_obj]
  rw [fillFrom_of_absent (get_revoke_absent input names (by decide)),
    fillFrom_of_absent (get_revoke_absent input names (by decide))]

/-- The authority reference the issue gives the new device. -/
def issuedRef : String :=
  if names.newDeviceRef = "" then "device:" ++ names.newDeviceIdentifier else names.newDeviceRef

theorem changeOf_issue (envelope : Json) (m : Nat) :
    changeOf envelope ((realmEventRegistry .deviceKeyIssued).migrationAdapter
        (.obj (issuePayload input names))) .deviceKeyIssued m =
      .ok (.issueDevice (if names.newDeviceIdentifier = "" then issuedRef names
        else names.newDeviceIdentifier) (issuedRef names)
        (orNull ((issuePayload input names).get "public_key"))) := by
  show readIssueDevice (deviceKeyIssuedMigrationAdapter (.obj (issuePayload input names))) = _
  rw [issue_migrated]
  have hdevice : (issuePayload input names).get "device_authority" = none :=
    get_issue_absent input names (by decide)
  have href : refOr (or ((issuePayload input names).get "authority_ref")
      ((issuePayload input names).get "device_authority")) "device:"
      ((issuePayload input names).get "device_id") = .ok (issuedRef names) := by
    rw [hdevice, authority_ref_issue, device_id_issue]
    unfold issuedRef refOr
    by_cases h : names.newDeviceRef = ""
    · rw [h, if_pos rfl]
      rfl
    · rw [or_str h, if_neg h]
      simp [h]
  unfold readIssueDevice
  rw [href, ok_bind, device_id_issue]
  by_cases h : names.newDeviceIdentifier = ""
  · rw [h, if_pos rfl]
    rfl
  · rw [or_str h, if_neg h]
    rfl

theorem target_revoke (authority_reference : String) :
    OptionalString (targetDeviceRef (some (.str authority_reference)) (revokePayload input names)) := by
  unfold targetDeviceRef
  rw [device_id_revoke, authority_ref_revoke, get_revoke_absent input names (by decide)]
  exact (OptionalString.str _).or ((OptionalString.str _).or (OptionalString.none.or (.str _)))

variable {input names}

theorem target_revoke_eq (h : names.oldDeviceIdentifier ≠ "") (authority_reference : String) :
    strOrEmpty (targetDeviceRef (some (.str authority_reference)) (revokePayload input names)) =
      .ok names.oldDeviceIdentifier := by
  unfold targetDeviceRef
  rw [device_id_revoke, or_str h, strOrEmpty_str]

theorem changeOf_revoke_exists (n : NormalizedProposal) (m : Nat) :
    ∃ c, changeOf n.envelope.toJson ((realmEventRegistry .deviceKeyRevoked).migrationAdapter
      (.obj (revokePayload input names))) .deviceKeyRevoked m = .ok c := by
  obtain ⟨x, hx⟩ := strOrEmpty_optional (target_revoke input names n.envelope.authority_reference)
  refine ⟨.revokeDevices x, ?_⟩
  show readRevokeDevices n.envelope.toJson
    (deviceKeyRevokedMigrationAdapter (.obj (revokePayload input names))) = _
  rw [revoke_migrated]
  unfold readRevokeDevices
  show (do
    let target ← strOrEmpty (targetDeviceRef (some (.str n.envelope.authority_reference))
      (revokePayload input names))
    return Change.revokeDevices target : JsM Change) = _
  rw [hx]
  rfl

theorem changeOf_revoke (h : names.oldDeviceIdentifier ≠ "") {n : NormalizedProposal} {m : Nat}
    {c : Change} (hc : changeOf n.envelope.toJson
      ((realmEventRegistry .deviceKeyRevoked).migrationAdapter (.obj (revokePayload input names)))
      .deviceKeyRevoked m = .ok c) : c = .revokeDevices names.oldDeviceIdentifier := by
  replace hc : readRevokeDevices n.envelope.toJson
    (deviceKeyRevokedMigrationAdapter (.obj (revokePayload input names))) = .ok c := hc
  rw [revoke_migrated] at hc
  replace hc : (do
    let target ← strOrEmpty (targetDeviceRef (some (.str n.envelope.authority_reference))
      (revokePayload input names))
    return Change.revokeDevices target : JsM Change) = .ok c := hc
  rw [target_revoke_eq h, ok_bind] at hc
  exact (Except.ok.inj hc).symm

/-! ### The transition rules -/

theorem rule_recovery_exists (s : AuthorityState) :
    ∃ codes, validateRecoveryExecuted s (recoveryPayload input names) = .ok codes := by
  have hopt (k k' : String) (x y : String) (hk : (recoveryPayload input names).get k = some (.str x))
      (hk' : (recoveryPayload input names).get k' = some (.str y)) :
      ∃ z, strOrEmpty (or ((recoveryPayload input names).get k) ((recoveryPayload input names).get k')) =
        .ok z := by
    rw [hk, hk']
    exact strOrEmpty_optional ((OptionalString.str x).or (.str y))
  obtain ⟨old, hold⟩ := hopt "old_device_id" "old_device_ref" _ names.oldDeviceRef
    (old_device_id_recovery input names) (by simp [recoveryPayload])
  obtain ⟨new, hnew⟩ := hopt "new_device_id" "new_device_authority_ref" _ names.newDeviceRef
    (new_device_id_recovery input names) (by simp [recoveryPayload])
  unfold validateRecoveryExecuted
  rw [hold, hnew, ok_bind]
  split
  · exact ⟨_, rfl⟩
  split
  · exact ⟨_, rfl⟩
  rw [ok_bind]
  split
  · exact ⟨_, rfl⟩
  · exact ⟨_, rfl⟩

/-- The recovery is recorded for a device that is active. -/
theorem rule_recovery {s : AuthorityState} (h : names.oldDeviceIdentifier ≠ "")
    (hrule : validateRecoveryExecuted s (recoveryPayload input names) = .ok []) :
    ∃ d ∈ s.devices, d.named names.oldDeviceIdentifier = true ∧ d.status = .active := by
  unfold validateRecoveryExecuted at hrule
  rw [old_device_id_recovery, or_str h, strOrEmpty_str, ok_bind] at hrule
  split at hrule
  · cases hrule
  next d hfound =>
  split at hrule
  · cases hrule
  next hactive =>
  obtain ⟨hmem, hnamed⟩ := found_device hfound
  exact ⟨d, hmem, hnamed, not_not.mp hactive⟩

theorem rule_issue_exists (s : AuthorityState) (n : NormalizedProposal) :
    ∃ codes, validateDeviceKeyIssued s n.envelope n.payload = .ok codes := ⟨_, rfl⟩

theorem rule_revoke_exists (s : AuthorityState) (envelope : Envelope) :
    ∃ codes, validateDeviceKeyRevoked s envelope (revokePayload input names) = .ok codes := by
  obtain ⟨x, hx⟩ := strOrEmpty_optional (target_revoke input names envelope.authority_reference)
  unfold validateDeviceKeyRevoked
  dsimp only
  rw [hx, ok_bind]
  repeat' split
  all_goals exact ⟨_, rfl⟩

/-- The revocation finds an entry that is not revoked. -/
theorem rule_revoke {s : AuthorityState} {envelope : Envelope} (h : names.oldDeviceIdentifier ≠ "")
    (hrule : validateDeviceKeyRevoked s envelope (revokePayload input names) = .ok []) :
    ∃ d ∈ s.devices, d.named names.oldDeviceIdentifier = true := by
  unfold validateDeviceKeyRevoked at hrule
  dsimp only at hrule
  rw [target_revoke_eq h, ok_bind] at hrule
  split at hrule
  · cases hrule
  next d hfound =>
  exact ⟨d, found_device hfound⟩

end

/-! ## Stage by stage -/

/-- What no stage touches. -/
structure Kept (s s' : AuthorityState) : Prop where
  root : s'.rootAuthority = s.rootAuthority
  recoveries : s'.recoveryAuthorities = s.recoveryAuthorities
  sessions : s'.sessions = s.sessions
  trusts : s'.federationTrusts = s.federationTrusts

theorem Kept.trans {s s' t : AuthorityState} (h : Kept s s') (h' : Kept s' t) : Kept s t :=
  ⟨h'.root.trans h.root, h'.recoveries.trans h.recoveries, h'.sessions.trans h.sessions,
    h'.trusts.trans h.trusts⟩

/-- The devices after the new one is issued. -/
def issuedDevices (names : Names) (key : Json) (stamp : Stamp) (devices : List Device) : List Device :=
  devices.filter (fun d => d.id != names.newDeviceIdentifier && d.authorityRef != issuedRef names)
    ++ [Change.newDevice stamp names.newDeviceIdentifier (issuedRef names) key]

/-- The devices after the old one is revoked. -/
def revokedDevices (names : Names) (stamp : Stamp) (devices : List Device) : List Device :=
  devices.map fun d => if d.named names.oldDeviceIdentifier then d.revoke stamp else d

/-- The projection after so many events of the ceremony. -/
inductive Reached (names : Names) (s : AuthorityState) : Nat → AuthorityState → Prop where
  | nothing : Reached names s 0 s
  | recorded {s' : AuthorityState} : Kept s s' → s'.devices = s.devices → Reached names s 1 s'
  | issued {s' : AuthorityState} {key : Json} {stamp : Stamp} : Kept s s' →
      s'.devices = issuedDevices names key stamp s.devices → Reached names s 2 s'
  | revoked {s' : AuthorityState} {key : Json} {stamp stamp' : Stamp} : Kept s s' →
      s'.devices = revokedDevices names stamp' (issuedDevices names key stamp s.devices) →
      Reached names s 3 s'

section
variable {host : Host} {clock : Clock} {s s' : AuthorityState} {fs : List HashedFields}
  {event : Json} {input : Json} {names : Names} {sequence : Number} {timestamp : Json}

/-- Recording the recovery changes no list, and its contract and its rule hold. -/
theorem recorded_of_accepts (h : Accepts host clock s fs .recoveryExecuted
      (ceremonyNormalized clock.now .recoveryExecuted names.signer sequence timestamp
        (recoveryPayload input names)) event s') :
    Kept s s' ∧ s'.devices = s.devices ∧ names.oldDeviceIdentifier ≠ ""
      ∧ names.newDeviceIdentifier ≠ ""
      ∧ ∃ d ∈ s.devices, d.named names.oldDeviceIdentifier = true ∧ d.status = .active := by
  have hpayload := validatePayload_eq_nil.mp h.payload
  obtain ⟨old, hold, hne⟩ := hpayload.string "old_device_id" (by decide) (by decide)
  obtain ⟨new, hnew, hne'⟩ := hpayload.string "new_device_id" (by decide) (by decide)
  have heq : names.oldDeviceIdentifier = old :=
    Json.str.inj (Option.some.inj ((old_device_id_recovery input names).symm.trans hold))
  have heq' : names.newDeviceIdentifier = new :=
    Json.str.inj (Option.some.inj ((new_device_id_recovery input names).symm.trans hnew))
  subst heq heq'
  obtain ⟨c, hc, rfl⟩ := h.change
  cases Except.ok.inj hc
  exact ⟨⟨rfl, rfl, rfl, rfl⟩, rfl, ne_empty_of_trim hne, ne_empty_of_trim hne',
    rule_recovery (ne_empty_of_trim hne) h.rule⟩

theorem issued_of_accepts (hne : names.newDeviceIdentifier ≠ "")
    (h : Accepts host clock s fs .deviceKeyIssued
      (ceremonyNormalized clock.now .deviceKeyIssued names.signer sequence timestamp
        (issuePayload input names)) event s') :
    Kept s s' ∧ ∃ key stamp, s'.devices = issuedDevices names key stamp s.devices := by
  obtain ⟨c, hc, rfl⟩ := h.change
  obtain rfl := Except.ok.inj ((changeOf_issue input names _ _).symm.trans hc)
  rw [if_neg hne]
  exact ⟨⟨rfl, rfl, rfl, rfl⟩, orNull ((issuePayload input names).get "public_key"),
    stampOf _ event, rfl⟩

theorem revoked_of_accepts (hne : names.oldDeviceIdentifier ≠ "")
    (h : Accepts host clock s fs .deviceKeyRevoked
      (ceremonyNormalized clock.now .deviceKeyRevoked names.signer sequence timestamp
        (revokePayload input names)) event s') :
    Kept s s' ∧ (∃ stamp, s'.devices = revokedDevices names stamp s.devices)
      ∧ ∃ d ∈ s.devices, d.named names.oldDeviceIdentifier = true := by
  obtain ⟨c, hc, rfl⟩ := h.change
  obtain rfl := changeOf_revoke hne hc
  exact ⟨⟨rfl, rfl, rfl, rfl⟩, ⟨_, rfl⟩, rule_revoke hne h.rule⟩

end

/-! ## The whole ceremony -/

section
variable {σ : Type} {acceptRealmEvent : Json → EStateM Error σ (Option Json)} {st st' : σ}
  {proposals rest : List Json} {proposal : Json} {acceptedEvents : List (Option Json)}
  {n : NormalizedProposal}

theorem acceptProposals_refused {codes : List String}
    (h : acceptRealmEvent proposal st = .ok (some (validationJson (.rejected codes n))) st') :
    acceptProposals acceptRealmEvent proposals (proposal :: rest) acceptedEvents st =
      .ok (.stopped proposal (.arr (codes.map .str)) acceptedEvents proposals) st' := by
  unfold acceptProposals
  rw [bind_of_ok h]
  rfl

theorem acceptProposals_accepted {event : Json}
    (h : acceptRealmEvent proposal st = .ok (some (validationJson (.accepted event n))) st') :
    acceptProposals acceptRealmEvent proposals (proposal :: rest) acceptedEvents st =
      acceptProposals acceptRealmEvent proposals rest (acceptedEvents ++ [some event]) st' := by
  rw [acceptProposals, bind_of_ok h]
  rfl

end

/-- `accept_cases` for the callback. -/
theorem ledgerAccept_cases {host : Host} {ledger : Ledger} {s : AuthorityState}
    {fs : List HashedFields} (h : Live host ledger s fs) (hreach : Reachable host ledger)
    (clocks : Nat → Clock) (t : EventType) (signer : String) (sequence : Number) (timestamp : Json)
    (payload : Fields)
    (hrule : ∀ n : NormalizedProposal, n.payload = payload →
      ∃ codes, (realmEventRegistry t).validateTransition s n.envelope n.payload = .ok codes)
    (hchange : ∀ n : NormalizedProposal, ∃ c, changeOf n.envelope.toJson
      ((realmEventRegistry t).migrationAdapter (.obj payload)) t s.sessions.length = .ok c) :
    (∃ codes n, ledgerAccept host (ceremonyProposal t signer sequence timestamp payload)
        (ledger, clocks) =
      .ok (some (validationJson (.rejected codes n))) (ledger, fun i => clocks (i + 1)))
    ∨ ∃ event ledger' s', ledgerAccept host (ceremonyProposal t signer sequence timestamp payload)
          (ledger, clocks) = .ok (some (validationJson (.accepted event
            (ceremonyNormalized (clocks 0).now t signer sequence timestamp payload))))
            (ledger', fun i => clocks (i + 1))
        ∧ Accepts host (clocks 0) s fs t
          (ceremonyNormalized (clocks 0).now t signer sequence timestamp payload) event s'
        ∧ Reachable host ledger' ∧ ledger'.event_log = ledger.event_log ++ [event]
        ∧ ∃ fs', Live host ledger' s' fs' := by
  unfold ledgerAccept
  dsimp only
  rcases accept_cases h (clocks 0) rfl
      (normalize_ceremony (clocks 0).now t signer sequence timestamp payload) rfl
      (hrule _ rfl) (hchange _) with ⟨codes, hcall⟩ | ⟨event, ledger', s', hcall, hacc, hlive⟩
  · rw [hcall]
    exact .inl ⟨codes, _, rfl⟩
  · have hstep : Step host ledger event ledger' := .accept hcall
    rw [hcall]
    exact .inr ⟨event, ledger', s', rfl, hacc, hreach.step hstep, hstep.event_log hreach, _, hlive⟩

/-- Where a ceremony ends: the events it lists are the ones the log has grown by, and the
projection has reached the stage of their number. -/
structure Ends (host : Host) (names : Names) (ledger : Ledger) (s : AuthorityState)
    (result : CeremonyResult) (ledger' : Ledger) (s' : AuthorityState) : Prop where
  reachable : Reachable host ledger'
  state : ledger'.current_authority_state = some s'
  events : ∃ events : List Json, result.acceptedEvents = events.map some
    ∧ ledger'.event_log = ledger.event_log ++ events
  reached : Reached names s result.acceptedEvents.length s'
  ok : result.ok = true ↔ result.acceptedEvents.length = 3
  old : result.ok = true → names.newDeviceIdentifier ≠ ""
    ∧ (∃ d ∈ s.devices, d.named names.oldDeviceIdentifier = true ∧ d.status = .active)
    ∧ ∃ d ∈ s'.devices, d.named names.oldDeviceIdentifier = true

theorem named_revoke (stamp : Stamp) (d : Device) (key : String) :
    (d.revoke stamp).named key = d.named key := rfl

theorem ceremony_ends {host : Host} {ledger : Ledger} {s : AuthorityState} {fs : List HashedFields}
    (h : Live host ledger s fs) (hreach : Reachable host ledger) (clocks : Nat → Clock)
    (input : Json) (names : Names) (timestamp : Json) (proposals : List Json) :
    ∃ result ledger' clocks' s',
      acceptProposals (ledgerAccept host) proposals (ceremonyProposals input names timestamp) []
          (ledger, clocks) = .ok result (ledger', clocks')
      ∧ Ends host names ledger s result ledger' s' := by
  unfold ceremonyProposals
  -- the recovery
  rcases ledgerAccept_cases h hreach clocks .recoveryExecuted names.signer names.sequence timestamp
      (recoveryPayload input names) (fun n hn => hn ▸ rule_recovery_exists s) (fun _ => ⟨_, rfl⟩) with
    ⟨codes, n, hcall⟩ | ⟨event, ledger₁, s₁, hcall, hacc, hreach₁, hlog₁, fs₁, h₁⟩
  · refine ⟨_, _, _, s, acceptProposals_refused hcall, hreach, h.state, ⟨[], rfl, ?_⟩, .nothing, ?_, nofun⟩
    · rw [List.append_nil]
    · exact ⟨nofun, nofun⟩
  obtain ⟨hkept₁, hdevices₁, hold, hnew, hactive⟩ := recorded_of_accepts hacc
  rw [acceptProposals_accepted hcall]
  -- the new device
  rcases ledgerAccept_cases h₁ hreach₁ (fun i => clocks (i + 1)) .deviceKeyIssued names.signer
      names.sequence.succ timestamp (issuePayload input names) (fun n _ => rule_issue_exists s₁ n)
      (fun _ => ⟨_, changeOf_issue input names _ _⟩) with
    ⟨codes, n, hcall⟩ | ⟨event', ledger₂, s₂, hcall, hacc, hreach₂, hlog₂, fs₂, h₂⟩
  · exact ⟨_, _, _, s₁, acceptProposals_refused hcall, hreach₁, h₁.state, ⟨[event], rfl, hlog₁⟩,
      .recorded hkept₁ hdevices₁, ⟨nofun, nofun⟩, nofun⟩
  obtain ⟨hkept₂, key, stamp, hdevices₂⟩ := issued_of_accepts hnew hacc
  rw [hdevices₁] at hdevices₂
  rw [acceptProposals_accepted hcall]
  -- the old device
  rcases ledgerAccept_cases h₂ hreach₂ (fun i => clocks (i + 1 + 1)) .deviceKeyRevoked names.signer
      names.sequence.succ.succ timestamp (revokePayload input names)
      (fun n hn => hn ▸ rule_revoke_exists s₂ n.envelope) (fun n => changeOf_revoke_exists n _) with
    ⟨codes, n, hcall⟩ | ⟨event'', ledger₃, s₃, hcall, hacc, hreach₃, hlog₃, fs₃, h₃⟩
  · refine ⟨_, _, _, s₂, acceptProposals_refused hcall, hreach₂, h₂.state, ⟨[event, event'], rfl, ?_⟩,
      .issued (hkept₁.trans hkept₂) hdevices₂, ⟨nofun, nofun⟩, nofun⟩
    rw [hlog₂, hlog₁, List.append_assoc]
    rfl
  obtain ⟨hkept₃, ⟨stamp', hdevices₃⟩, d, hd, hnamed⟩ := revoked_of_accepts hold hacc
  have hdevices := hdevices₂ ▸ hdevices₃
  rw [acceptProposals_accepted hcall]
  refine ⟨_, _, _, s₃, rfl, hreach₃, h₃.state, ⟨[event, event', event''], rfl, ?_⟩,
    .revoked ((hkept₁.trans hkept₂).trans hkept₃) hdevices, ⟨fun _ => rfl, fun _ => rfl⟩,
    fun _ => ⟨hnew, hactive, d.revoke stamp', ?_, hnamed⟩⟩
  · rw [hlog₃, hlog₂, hlog₁, List.append_assoc, List.append_assoc]
    rfl
  · rw [hdevices₃]
    exact List.mem_map.mpr ⟨d, hd, if_pos hnamed⟩

/-- A ceremony that went through: the old device is revoked under every name, the new one is
active, and when no device bore one of its names before, every other device is as it was. -/
structure Recovered (names : Names) (s s' : AuthorityState) : Prop where
  kept : Kept s s'
  old : ∃ d ∈ s.devices, d.named names.oldDeviceIdentifier = true ∧ d.status = .active
  listed : ∃ d ∈ s'.devices, d.named names.oldDeviceIdentifier = true
  revoked : ∀ d ∈ s'.devices, d.named names.oldDeviceIdentifier = true → d.status = .revoked
  others : (∀ d ∈ s.devices, d.named names.newDeviceIdentifier = false
      ∧ d.named (issuedRef names) = false) →
    ∃ stamp device, s'.devices = revokedDevices names stamp s.devices ++ [device]
      ∧ device.id = names.newDeviceIdentifier ∧ device.authorityRef = issuedRef names
      ∧ device.status = .active

theorem status_of_mem_revoked {names : Names} {stamp : Stamp} {devices : List Device} {d : Device}
    (h : d ∈ revokedDevices names stamp devices)
    (hnamed : d.named names.oldDeviceIdentifier = true) : d.status = .revoked := by
  obtain ⟨d', -, rfl⟩ := List.mem_map.mp h
  split at hnamed
  · rw [if_pos ‹_›]
    rfl
  · exact absurd hnamed ‹_›

theorem filter_fresh {names : Names} {devices : List Device}
    (h : ∀ d ∈ devices, d.named names.newDeviceIdentifier = false
      ∧ d.named (issuedRef names) = false) :
    devices.filter (fun d => d.id != names.newDeviceIdentifier && d.authorityRef != issuedRef names) =
      devices := by
  refine List.filter_eq_self.mpr fun d hd => ?_
  obtain ⟨hid, href⟩ := h d hd
  simp only [Device.named, Bool.or_eq_false_iff] at hid href
  simp [bne, hid.1.1, href.2]

theorem Ends.recovered {host : Host} {names : Names} {ledger ledger' : Ledger} {s s' : AuthorityState}
    {result : CeremonyResult} (h : Ends host names ledger s result ledger' s')
    (hok : result.ok = true) : Recovered names s s' := by
  obtain ⟨hne, ⟨old, hmem, hnamed, hactive⟩, hlisted⟩ := h.old hok
  have hreached := h.reached
  rw [h.ok.mp hok] at hreached
  cases hreached with
  | @revoked _ key stamp stamp' hkept hdevices =>
    refine ⟨hkept, ⟨old, hmem, hnamed, hactive⟩, hlisted, ?_, ?_⟩
    · rw [hdevices]
      exact fun d hd => status_of_mem_revoked hd
    · intro hfresh
      obtain ⟨hid, href⟩ := hfresh old hmem
      -- the old device has its name, so the new one does not
      have hnew : (Change.newDevice stamp names.newDeviceIdentifier (issuedRef names) key).named
          names.oldDeviceIdentifier = false := by
        have hne (k : String) (hk : old.named k = false) : (k == names.oldDeviceIdentifier) = false := by
          refine beq_false_of_ne ?_
          rintro rfl
          rw [hk] at hnamed
          cases hnamed
        unfold Device.named
        simp only [Change.newDevice, hne _ hid, hne _ href, Bool.or_false]
      refine ⟨stamp', Change.newDevice stamp names.newDeviceIdentifier (issuedRef names) key, ?_,
        rfl, rfl, rfl⟩
      rw [hdevices, issuedDevices, filter_fresh hfresh, revokedDevices, List.map_append]
      simp [revokedDevices, hnew]

/-- How a ceremony on a ledger may go: its input is refused before any event is proposed, or it
ends after some of the three events, and has recovered if these are all of them. -/
def StopsOrRecovers (host : Host) (ledger : Ledger) (now : String) (input : Option Json)
    (clocks : Nat → Clock) : Prop :=
  ∃ s, ledger.current_authority_state = some s ∧
    ((∃ e, createRecoveryCeremonyProposals now input = .error e
        ∧ executeRecoveryCeremony (ledgerAccept host) now input (ledger, clocks) =
          .error e (ledger, clocks))
      ∨ ∃ object names result ledger' clocks' s',
        destructure input = .ok object ∧ ceremonyNames object = .ok names
        ∧ executeRecoveryCeremony (ledgerAccept host) now input (ledger, clocks) =
          .ok result (ledger', clocks')
        ∧ Ends host names ledger s result ledger' s'
        ∧ (result.ok = true → Recovered names s s'))

/-- The recovery ceremony keeps what was accepted before a refusal, and recovers when nothing is
refused. -/
theorem ceremony_stops_or_recovers {host : Host} {ledger : Ledger} (h : Reachable host ledger)
    (now : String) (input : Option Json) (clocks : Nat → Clock) :
    StopsOrRecovers host ledger now input clocks := by
  obtain ⟨s, fs, hlive⟩ := h.live
  refine ⟨s, hlive.state, ?_⟩
  cases hproposals : createRecoveryCeremonyProposals now input with
  | error e =>
    refine .inl ⟨e, rfl, ?_⟩
    unfold executeRecoveryCeremony
    rw [hproposals]
    rfl
  | ok proposals =>
    obtain ⟨object, hobject, hrest⟩ := bind_eq_ok.mp hproposals
    obtain ⟨names, hnames, hproposed⟩ := bind_eq_ok.mp hrest
    obtain rfl := Except.ok.inj hproposed
    obtain ⟨result, ledger', clocks', s', hrun, hends⟩ := ceremony_ends hlive h clocks object names
      ((object.prop "timestamp").getD (.str now))
      (ceremonyProposals object names ((object.prop "timestamp").getD (.str now)))
    refine .inr ⟨object, names, result, ledger', clocks', s', hobject, hnames, ?_, hends,
      hends.recovered⟩
    unfold executeRecoveryCeremony
    rw [hproposals]
    exact hrun

/-- Alice's realm with two devices and a guardian. -/
def officeLedger : Ledger := scriptLedger plainHost (aliceScript.take 4)

/-- The guardian replaces the laptop by a phone. -/
def phoneCeremony (phone : Fields) : Json :=
  .obj [("recoveryAuthority", .str "guardian"), ("oldDevice", .obj [("id", .str "laptop")]),
    ("newDevice", .obj (("id", .str "phone") :: phone)), ("recoveryRef", .str "rec-1"),
    ("startSequence", .num (.int 5)), ("timestamp", .str scriptTime)]

theorem phone_ceremony_total :
    StopsOrRecovers plainHost officeLedger scriptTime
      (some (phoneCeremony [("public_key", .str "key-phone")])) (fun _ => scriptClock) :=
  ceremony_stops_or_recovers (reachable_script plainHost _) _ _ _

/-! ## A ceremony that stops -/

/-- All or nothing: the realm is recovered, or its projection is the one before. -/
def AllOrNothing (names : Names) (s : AuthorityState) (result : CeremonyResult)
    (s' : AuthorityState) : Prop :=
  (result.ok = true ∧ s'.rootAuthority = s.rootAuthority
    ∧ s'.recoveryAuthorities = s.recoveryAuthorities
    ∧ (∃ d ∈ s'.devices, d.named names.oldDeviceIdentifier = true ∧ d.status = .revoked)
    ∧ (∃ d ∈ s'.devices, d.id = names.newDeviceIdentifier ∧ d.status = .active)
    ∧ ∀ d ∈ s.devices, d.named names.oldDeviceIdentifier = false → d ∈ s'.devices)
  ∨ (result.ok = false ∧ s' = s)

/-- What a run returned and the counter it left. -/
def runView (run : EStateM.Result Error Timed CeremonyResult) : Option (Bool × Option Number) :=
  match run with
  | .ok result (ledger, _) => some (result.ok, stateView (·.lastSequence) ledger)
  | .error .. => none

/-- The phone has no key: the recovery is recorded and the phone refused. -/
theorem keyless_phone_view :
    runView (executeRecoveryCeremony (ledgerAccept plainHost) scriptTime (some (phoneCeremony []))
        (officeLedger, fun _ => scriptClock)) = some (false, some (.int 5))
      ∧ stateView (·.lastSequence) officeLedger = some (.int 4) := by
  decide +kernel

theorem keyless_phone_half_recovered :
    ¬ ∀ (host : Host) (ledger : Ledger) (now : String) (input : Option Json) (clocks : Nat → Clock)
      (s : AuthorityState), Reachable host ledger → ledger.current_authority_state = some s →
      ∃ object names result ledger' clocks' s',
        destructure input = .ok object ∧ ceremonyNames object = .ok names
        ∧ executeRecoveryCeremony (ledgerAccept host) now input (ledger, clocks) =
          .ok result (ledger', clocks')
        ∧ ledger'.current_authority_state = some s' ∧ AllOrNothing names s result s' := by
  intro hclaim
  have hreach : Reachable plainHost officeLedger := reachable_script plainHost _
  obtain ⟨hview, hbefore⟩ := keyless_phone_view
  obtain ⟨s, hs, hfour⟩ := exists_of_stateView hbefore
  obtain ⟨_, names, result, ledger', clocks', s', -, -, hrun, hs', hall⟩ :=
    hclaim plainHost officeLedger scriptTime (some (phoneCeremony [])) (fun _ => scriptClock) s hreach hs
  rw [hrun] at hview
  obtain ⟨hok, hcounter⟩ := Prod.mk.inj (Option.some.inj hview)
  obtain ⟨t, ht, hfive⟩ := exists_of_stateView hcounter
  obtain rfl : s' = t := Option.some.inj (hs'.symm.trans ht)
  rcases hall with ⟨htrue, -⟩ | ⟨-, rfl⟩
  · exact absurd (htrue.symm.trans hok) (by decide)
  · exact absurd (hfour.symm.trans hfive) (by decide)

end SimpleL1.Realm.Recovery
