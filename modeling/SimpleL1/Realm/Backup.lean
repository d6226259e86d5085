import SimpleL1.Realm.Commitment
import SimpleL1.Realm.Integrity

/-!
# Backup and restore

A backup is a copy of the log with its head and the supported versions.
`restoreRealmFromBackup` verifies the history and the head, rebuilds the
projection from a second copy and runs the integrity checks. The round trip is
the identity on logs of finite numbers whose trusts pass the checks. The head
binds the hashed fields and the order of the realm events; what the hash does
not cover, a change may leave undetected.
-/

namespace SimpleL1.Realm

open SimpleL1.Js SimpleL1.Lib

def supportedRegistryVersion : Number := .int 1

def supportedProjectionVersion : Number := .int 1

def supportedRuntimeVersion : String := "1"

def rebuildAuthorityStateOnLedger (host : Host) (ledger : Ledger) : JsM Ledger := do
  let state ← buildCurrentAuthorityState host ledger.event_log
  return { ensureAuthorityStateStores ledger with
    current_authority_state := some state
    realm_canonical_sequence := some (numOr state.lastSequence (.int 0)) }

def historyFromBackup (backup : Json) : Option (List Json) :=
  match backup.prop "history", backup.prop "event_log" with
  | some (.arr history), _ => some history
  | _, some (.arr history) => some history
  | _, _ => none

def optionalSnapshotFromBackup (backup : Json) : Option Json :=
  let snapshot := or (backup.prop "optional_snapshot") (or (backup.prop "snapshot")
    ((backup.prop "optional").bind (·.prop "snapshot")))
  if truthy snapshot then snapshot else none

/-- `realm_id` is the ledger's; `now` is `new Date().toISOString()`. -/
def createBackupArtifact (host : Host) (now : String) (eventLog : List Json)
    (realm_id : Option Json := none) (options : Json := .obj []) : JsM Json := do
  let history := eventLog.map clone
  let _ ← verifyRealmEventHistory host history
  let history_head ← latestRealmEventHash history
  let runtime_version ← toStr (or (options.prop "runtimeVersion")
    (or (options.prop "runtime_version") (some (.str supportedRuntimeVersion))))
  let registry_version ← toNumber (or (options.prop "registryVersion")
    (or (options.prop "registry_version") (some (.num supportedRegistryVersion))))
  let projection_version ← toNumber (or (options.prop "projectionVersion")
    (or (options.prop "projection_version") (some (.num supportedProjectionVersion))))
  let optional_snapshot ← if truthy (options.prop "includeSnapshot") then
      (createRealmSnapshot host history
        ((options.prop "snapshotOptions").bind (·.prop "lastSequence"))).map some
    else pure none
  return .obj (Fields.ofOptions [
    ("realm_id", some (orNull (or (options.prop "realmId") (or (options.prop "realm_id") realm_id)))),
    ("history", some (.arr history)), ("history_head", some history_head),
    ("runtime_version", some (.str runtime_version)),
    ("registry_version", some (.num registry_version)),
    ("projection_version", some (.num projection_version)),
    ("created_at", or (options.prop "createdAt") (some (.str now))),
    ("optional_snapshot", optional_snapshot)])

/-- The code of the first unsupported version. -/
def verifyRegistryCompatibility (backup : Json) : JsM (Option String) := do
  let registryVersion ← toNumber (backup.prop "registry_version")
  let projectionVersion ← toNumber (backup.prop "projection_version")
  let runtimeVersion ← toStr (or (backup.prop "runtime_version")
    (some (.str supportedRuntimeVersion)))
  if registryVersion ≠ supportedRegistryVersion then
    return some "BACKUP_REGISTRY_VERSION_UNSUPPORTED"
  else if projectionVersion ≠ supportedProjectionVersion then
    return some "BACKUP_PROJECTION_VERSION_UNSUPPORTED"
  else if runtimeVersion ≠ supportedRuntimeVersion then
    return some "BACKUP_RUNTIME_VERSION_UNSUPPORTED"
  else return none

inductive BackupVerification where
  | failure (code : String)
  | cacheOnly
  | verified (history_head : Json) (projection_hash : String) (event_count : Nat)

/-- `error.message || code`. -/
def messageOr (e : Error) (code : String) : String := if e.message ≠ "" then e.message else code

/-- The code of a snapshot that does not verify. -/
def snapshotFailure (host : Host) (history : List Json) (snapshot : Option Json) : Option String :=
  match snapshot with
  | none => none
  | some snapshot =>
    match verifyRealmSnapshot host history snapshot with
    | .ok _ => none
    | .error e => some (messageOr e "SNAPSHOT_HISTORY_MISMATCH")

def verifyBackupHistory (host : Host) (backup : Json) (history : List Json) :
    JsM BackupVerification := do
  match verifyRealmEventHistory host history with
  | .error e => return .failure (messageOr e "EVENT_CHAIN_BROKEN")
  | .ok _ =>
    let expectedHead ← latestRealmEventHash history
    if truthy (backup.prop "history_head")
        && !strictEq (backup.prop "history_head") (some expectedHead) then
      return .failure "BACKUP_HISTORY_HEAD_MISMATCH"
    else
      match snapshotFailure host history (optionalSnapshotFromBackup backup) with
      | some code => return .failure code
      | none =>
        let projection ← buildCurrentAuthorityState host history
        return .verified expectedHead (calculateProjectionHash host projection) history.length

def verifyBackupArtifact (host : Host) (backup : Json) : JsM BackupVerification := do
  if backup.isObject then
    match historyFromBackup backup with
    | none =>
      if truthy (backup.prop "current_authority_state") || truthy (backup.prop "projection")
          || truthy (backup.prop "CurrentAuthorityState") then
        return .failure "CANONICAL_HISTORY_REQUIRED"
      else if (optionalSnapshotFromBackup backup).isSome then return .cacheOnly
      else return .failure "CANONICAL_HISTORY_REQUIRED"
    | some history =>
      match ← verifyRegistryCompatibility backup with
      | some code => return .failure code
      | none => verifyBackupHistory host backup history
  else return .failure "BACKUP_ARTIFACT_INVALID"

inductive Restoration where
  /-- The backup does not verify, or is only a snapshot. -/
  | unverified (reason_codes : List String)
  | invalid (ledger : Ledger) (integrity : RealmIntegrity)
  | restored (ledger : Ledger) (integrity : RealmIntegrity)

def Restoration.ok : Restoration → Bool
  | restored .. => true
  | _ => false

/-- `options` without a snapshot, which the backup brings itself. -/
def restoreRealmFromBackup (host : Host) (backup : Json) (options : IntegrityOptions := {}) :
    JsM Restoration := do
  match ← verifyBackupArtifact host backup with
  | .failure code => return .unverified [code]
  | .cacheOnly => return .unverified ["SNAPSHOT_NOT_RESTORE_SOURCE"]
  | .verified .. =>
    let history := ((historyFromBackup backup).getD []).map clone
    let ledger ← rebuildAuthorityStateOnLedger host { Ledger.empty with event_log := history }
    let integrity ← verifyRealmIntegrity host ledger
      { options with snapshot := optionalSnapshotFromBackup backup }
    if integrity.realm_valid then return .restored ledger integrity
    else return .invalid ledger integrity

structure RestoredComparison where
  history_head_match : Bool
  projection_hash_match : Bool

def RestoredComparison.ok (c : RestoredComparison) : Bool :=
  c.history_head_match && c.projection_hash_match

def compareRestoredIntegrity (host : Host) (original restored : Ledger) : JsM RestoredComparison := do
  let originalHead ← latestRealmEventHash original.event_log
  let restoredHead ← latestRealmEventHash restored.event_log
  let originalProjection ← currentAuthorityStateForLedger host original
  let restoredProjection ← currentAuthorityStateForLedger host restored
  return {
    history_head_match := strictEq (some originalHead) (some restoredHead)
    projection_hash_match := calculateProjectionHash host originalProjection =
      calculateProjectionHash host restoredProjection }

/-! ## Histories in a backup -/

/-- The backup with another history. -/
def withHistory (backup : Json) (history : List Json) : Json :=
  .obj (backup.spread.set "history" (.arr history))

/-- A backup without options. -/
def backupOf (now : String) (history : List Json) (history_head : Json) : Json :=
  .obj [("realm_id", .null), ("history", .arr history), ("history_head", history_head),
    ("runtime_version", .str supportedRuntimeVersion),
    ("registry_version", .num supportedRegistryVersion),
    ("projection_version", .num supportedProjectionVersion), ("created_at", .str now)]

section
variable {host : Host} {now : String} {log history : List Json} {d : Option String}

theorem Chain.of_verify {b : Bool} (h : verifyRealmEventHistory host history = .ok b) :
    ∃ fs, Chain host none history fs := by
  obtain ⟨next, hnext, -⟩ := map_eq_ok.mp h
  obtain ⟨fs, hfs, -⟩ := verifyFrom_eq_ok (d := none).mp hnext
  exact ⟨fs, hfs⟩

theorem createBackupArtifact_eq_ok {backup : Json} :
    createBackupArtifact host now log = .ok backup ↔
      ∃ fs, Chain host none (log.map clone) fs
        ∧ backup = backupOf now (log.map clone) (digest (headOf host fs)) := by
  have hcreate : createBackupArtifact host now log = (do
      let _ ← verifyRealmEventHistory host (log.map clone)
      let head ← latestRealmEventHash (log.map clone)
      return backupOf now (log.map clone) head) := rfl
  rw [hcreate]
  constructor
  · intro h
    obtain ⟨b, hverify, h⟩ := bind_eq_ok.mp h
    obtain ⟨fs, hchain⟩ := Chain.of_verify hverify
    rw [hchain.latest, ok_bind, pure_eq_ok, Except.ok.injEq] at h
    exact ⟨fs, hchain, h.symm⟩
  · rintro ⟨fs, hchain, rfl⟩
    rw [verifyRealmEventHistory_eq_ok.mpr ⟨fs, hchain⟩, ok_bind, hchain.latest, ok_bind, pure_eq_ok]

theorem withHistory_backupOf (now : String) (history history' : List Json) (head : Json) :
    withHistory (backupOf now history head) history' = backupOf now history' head := rfl

theorem verifyBackupArtifact_backupOf (host : Host) (now : String) (history : List Json)
    (head : Json) :
    verifyBackupArtifact host (backupOf now history head) =
      verifyBackupHistory host (backupOf now history head) history := rfl

/-- A history that does not link up to the head of the backup is refused. -/
theorem restore_unlinked {x : String}
    (h : ∀ fs, Chain host none history fs → headOf host fs ≠ some x) (hne : x ≠ "") :
    ∃ r, restoreRealmFromBackup host (backupOf now history (.str x)) = .ok r ∧ r.ok = false := by
  have hrefuse : ∀ code, verifyBackupArtifact host (backupOf now history (.str x)) =
      .ok (.failure code) → ∃ r, restoreRealmFromBackup host (backupOf now history (.str x)) = .ok r
        ∧ r.ok = false := by
    intro code hcode
    refine ⟨.unverified [code], ?_, rfl⟩
    rw [restoreRealmFromBackup, hcode]
    rfl
  rw [verifyBackupArtifact_backupOf] at hrefuse
  unfold verifyBackupHistory at hrefuse
  cases hverify : verifyRealmEventHistory host history with
  | error e =>
    rw [hverify] at hrefuse
    exact hrefuse _ rfl
  | ok b =>
    obtain ⟨fs, hchain⟩ := Chain.of_verify hverify
    have hhead : (backupOf now history (.str x)).prop "history_head" = some (.str x) := rfl
    have hdiffer : strictEq (some (.str x)) (some (digest (headOf host fs))) = false := by
      rw [Bool.eq_false_iff]
      intro heq
      have hd := strictEq_digest_iff.mp heq
      exact h fs hchain (digest_injective (Option.some.inj hd).symm)
    refine hrefuse "BACKUP_HISTORY_HEAD_MISMATCH" ?_
    simp only [hverify, hchain.latest, ok_bind, hhead, truthy_str, hne, ne_eq, not_false_eq_true,
      decide_true, hdiffer, Bool.not_false, Bool.and_self, if_true, pure_eq_ok]

/-- A history that links up to the head is as good as its replay. -/
theorem verifyBackup_linked {fs : List HashedFields} (h : Chain host none history fs) :
    verifyBackupArtifact host (backupOf now history (digest (headOf host fs))) = (do
      let projection ← buildCurrentAuthorityState host history
      return .verified (digest (headOf host fs)) (calculateProjectionHash host projection)
        history.length) := by
  rw [verifyBackupArtifact_backupOf, verifyBackupHistory, verifyRealmEventHistory_eq_ok.mpr ⟨fs, h⟩]
  have hhead : (backupOf now history (digest (headOf host fs))).prop "history_head" =
      some (digest (headOf host fs)) := rfl
  have hsame : strictEq (some (digest (headOf host fs))) (some (digest (headOf host fs))) = true :=
    strictEq_digest_iff.mpr rfl
  have hsnapshot : optionalSnapshotFromBackup (backupOf now history (digest (headOf host fs))) = none :=
    rfl
  simp only [h.latest, ok_bind, hhead, hsame, Bool.not_true, Bool.and_false, Bool.false_eq_true,
    if_false, hsnapshot, snapshotFailure]

end

/-! ## What a restore returns -/

/-- The ledger a restore builds from a history. -/
def restoredLedger (host : Host) (history : List Json) : JsM Ledger :=
  rebuildAuthorityStateOnLedger host { Ledger.empty with event_log := history.map clone }

/-- The history replays, and the trusts of the restored ledger fail their check. -/
def FederationRefused (host : Host) (history : List Json) : Prop :=
  ∃ state, buildCurrentAuthorityState host history = .ok state
    ∧ ∃ ledger, restoredLedger host history = .ok ledger
    ∧ ∃ result, verifyFederationReferences ledger = .ok result ∧ result.failure.isSome = true

/-- Of a rebuilt ledger only the trusts can fail. -/
theorem verifyRealmIntegrity_rebuilt {host : Host} {ledger ledger' : Ledger}
    (h : rebuildAuthorityStateOnLedger host ledger = .ok ledger') :
    ∃ history_head projection_hash, verifyRealmIntegrity host ledger' = (do
      let federation ← verifyFederationReferences ledger'
      let lineage ← verifyCommandExecutionBoundary none ledger'
      let results := [.pass "EVENT_CHAIN_OK", .pass "PROJECTION_REPLAY_OK",
        ⟨checkSkip "SNAPSHOT_OK", none, none⟩, federation, lineage]
      return {
        history_head := history_head
        projection_hash := projection_hash
        checks := results.map CheckResult.check
        failures := results.filterMap CheckResult.failure
        warnings := results.filterMap CheckResult.warning }) := by
  obtain ⟨state, hbuild, hledger⟩ := bind_eq_ok.mp h
  rw [pure_eq_ok, Except.ok.injEq] at hledger
  subst hledger
  obtain ⟨b, hverify, -⟩ := bind_eq_ok.mp hbuild
  obtain ⟨fs, hchain⟩ := Chain.of_verify hverify
  refine ⟨digest (headOf host fs), some (calculateProjectionHash host state), ?_⟩
  have hhistory : verifyEventHistoryIntegrity host ledger.event_log = .pass "EVENT_CHAIN_OK" := by
    rw [verifyEventHistoryIntegrity, hverify]
  simp only [verifyRealmIntegrity, verifyProjectionReplayIntegrity, ensureAuthorityStateStores,
    hhistory, hbuild, CheckResult.pass, ok_bind, hchain.latest, pure_eq_ok, Option.getD_some,
    ne_eq, not_true_eq_false, if_false, Option.isSome_none, Option.isNone_none, if_true,
    Bool.false_eq_true, verifySnapshotIntegrity]

theorem restore_eq {host : Host} {now : String} {history : List Json} {fs : List HashedFields}
    (h : Chain host none history fs) {state : AuthorityState}
    (hbuild : buildCurrentAuthorityState host history = .ok state) :
    restoreRealmFromBackup host (backupOf now history (digest (headOf host fs))) = (do
      let ledger ← restoredLedger host history
      let integrity ← verifyRealmIntegrity host ledger
      if integrity.realm_valid then return .restored ledger integrity
      else return .invalid ledger integrity) := by
  rw [restoreRealmFromBackup, verifyBackup_linked h, hbuild]
  rfl

/-- A restore of a linked history returns a refusal exactly when the trusts are refused. -/
theorem restore_linked {host : Host} {now : String} {history : List Json} {fs : List HashedFields}
    (h : Chain host none history fs) :
    (∃ r, restoreRealmFromBackup host (backupOf now history (digest (headOf host fs))) = .ok r
      ∧ r.ok = false) ↔ FederationRefused host history := by
  constructor
  · rintro ⟨r, hr, hok⟩
    cases hbuild : buildCurrentAuthorityState host history with
    | error e =>
      rw [restoreRealmFromBackup, verifyBackup_linked h, hbuild] at hr
      cases hr
    | ok state =>
      rw [restore_eq h hbuild] at hr
      obtain ⟨ledger, hledger, hr⟩ := bind_eq_ok.mp hr
      obtain ⟨_, _, hintegrity⟩ := verifyRealmIntegrity_rebuilt hledger
      rw [hintegrity] at hr
      cases hfederation : verifyFederationReferences ledger with
      | error e =>
        rw [hfederation] at hr
        cases hr
      | ok result =>
        refine ⟨state, hbuild, ledger, hledger, result, hfederation, ?_⟩
        rw [hfederation] at hr
        cases hfailure : result.failure with
        | some code => rfl
        | none =>
          -- without a failure the restore succeeds
          simp [verifyCommandExecutionBoundary, CheckResult.pass, RealmIntegrity.realm_valid,
            hfailure] at hr
          rw [← hr] at hok
          cases hok
  · rintro ⟨state, hbuild, ledger, hledger, result, hfederation, hfailure⟩
    obtain ⟨code, hcode⟩ := Option.isSome_iff_exists.mp hfailure
    obtain ⟨_, _, hintegrity⟩ := verifyRealmIntegrity_rebuilt hledger
    rw [restore_eq h hbuild, hledger, ok_bind, hintegrity, hfederation]
    simp [verifyCommandExecutionBoundary, CheckResult.pass, RealmIntegrity.realm_valid, hcode,
      Restoration.ok]

/-! ## The round trip -/

/-- The ledger comes back from its backup, and the comparison says so. -/
def RoundTrips (host : Host) (now : String) (ledger : Ledger) : Prop :=
  ∃ backup restored integrity comparison,
    createBackupArtifact host now ledger.event_log = .ok backup
    ∧ restoreRealmFromBackup host backup = .ok (.restored restored integrity)
    ∧ restored.event_log = ledger.event_log
    ∧ restored.current_authority_state = ledger.current_authority_state
    ∧ compareRestoredIntegrity host ledger restored = .ok comparison ∧ comparison.ok = true

/-- The trust has a head, and its realm is called like a property every object inherits. -/
def FederationTrust.Shadowed (t : FederationTrust) : Prop :=
  t.realmId ∈ objectPrototypeKeys ∧ t.remoteEventHead.truthy = true

theorem FederationTrust.contradicted_nil {t : FederationTrust} :
    t.Contradicted [] = true ↔ t.Shadowed := by
  have hne : t.realmId ∈ objectPrototypeKeys → t.realmId ≠ "" := by
    rintro hmem hempty
    rw [hempty] at hmem
    exact absurd hmem (by decide)
  simp only [Contradicted, evidenceHeadDiffers, Fields.get_nil, Bool.and_eq_true, decide_eq_true_eq,
    List.contains_iff_mem, Shadowed]
  constructor
  · rintro ⟨⟨-, hhead⟩, hrealm⟩
    exact ⟨hrealm, hhead⟩
  · rintro ⟨hrealm, hhead⟩
    exact ⟨⟨hne hrealm, hhead⟩, hrealm⟩

theorem map_clone_eq_self {log : List Json} :
    log.map clone = log ↔ ∀ event ∈ log, event.finite = true := by
  nth_rewrite 2 [← List.map_id log]
  rw [List.map_inj_left]
  exact forall₂_congr fun event _ => finite_iff_clone.symm

section
variable {host : Host} {ledger : Ledger} {s : AuthorityState} {fs : List HashedFields}

/-- A live ledger whose log is its own copy is what a restore builds. -/
theorem Live.restoredLedger (h : Live host ledger s fs)
    (hclone : ledger.event_log.map clone = ledger.event_log) :
    Realm.restoredLedger host ledger.event_log = .ok ledger := by
  have hcounter : numOr s.lastSequence (.int 0) = s.lastSequence := by
    rw [h.count]
    unfold numOr
    split
    · rfl
    · next hz =>
      have : (fs.length : Int) = 0 := by simpa [Number.truthy] using hz
      rw [this]
  rw [Realm.restoredLedger, rebuildAuthorityStateOnLedger, hclone, h.build, ok_bind, hcounter,
    pure_eq_ok, ← h.state, ← h.counter]
  rfl

theorem Live.compare (h : Live host ledger s fs) :
    ∃ comparison, compareRestoredIntegrity host ledger ledger = .ok comparison
      ∧ comparison.ok = true := by
  refine ⟨⟨true, true⟩, ?_, rfl⟩
  have hsame : strictEq (some (digest (headOf host fs))) (some (digest (headOf host fs))) = true :=
    strictEq_digest_iff.mpr rfl
  simp only [compareRestoredIntegrity, h.latest, h.current, ok_bind, hsame, decide_true, pure_eq_ok]

/-- A ledger comes back from its backup exactly when JSON can write its numbers and no trust is
shadowed. -/
theorem Live.roundTrips_iff (h : Live host ledger s fs) (hc : Counted ledger.event_log)
    (href : Referenced ledger.event_log s) {now : String} :
    RoundTrips host now ledger ↔
      (∀ event ∈ ledger.event_log, event.finite = true)
        ∧ ∀ t ∈ s.federationTrusts, ¬ t.Shadowed := by
  obtain ⟨integrity, hintegrity, hvalid⟩ := verifyRealmIntegrity_eq h hc href []
  have hrestore : ledger.event_log.map clone = ledger.event_log →
      restoreRealmFromBackup host (backupOf now ledger.event_log (digest (headOf host fs))) =
        .ok (if integrity.realm_valid then .restored ledger integrity
          else .invalid ledger integrity) := by
    intro hclone
    rw [restore_eq h.chain h.build, h.restoredLedger hclone, ok_bind]
    show (do
      let integrity ← verifyRealmIntegrity host ledger { remoteEvidenceHeads := [] }
      _) = _
    rw [hintegrity, ok_bind]
    split <;> rfl
  have htrusts : integrity.realm_valid = true ↔ ∀ t ∈ s.federationTrusts, ¬ t.Shadowed := by
    rw [hvalid]
    refine forall₂_congr fun t _ => ?_
    rw [← FederationTrust.contradicted_nil, Bool.not_eq_true]
  constructor
  · rintro ⟨backup, restored, _, _, hcreate, hr, hlog, -⟩
    obtain ⟨gs, hchain, rfl⟩ := createBackupArtifact_eq_ok.mp hcreate
    -- the restored log is a copy
    have hcopy : ∃ state, buildCurrentAuthorityState host (ledger.event_log.map clone) = .ok state := by
      cases hb : buildCurrentAuthorityState host (ledger.event_log.map clone) with
      | error e =>
        rw [restoreRealmFromBackup, verifyBackup_linked hchain, hb] at hr
        cases hr
      | ok state => exact ⟨state, rfl⟩
    obtain ⟨state, hstate⟩ := hcopy
    have hbuilt := hr
    rw [restore_eq hchain hstate] at hbuilt
    obtain ⟨ledger', hledger', hbuilt⟩ := bind_eq_ok.mp hbuilt
    obtain ⟨integrity', -, hbuilt⟩ := bind_eq_ok.mp hbuilt
    have hsame : restored = ledger' := by
      split at hbuilt
      · exact (Restoration.restored.inj (Except.ok.inj hbuilt)).1.symm
      · cases Except.ok.inj hbuilt
    have hclone : ledger.event_log.map clone = ledger.event_log := by
      obtain ⟨_, -, hbuilt⟩ := bind_eq_ok.mp hledger'
      rw [← hlog, hsame, ← Except.ok.inj hbuilt]
      simp [ensureAuthorityStateStores]
    rw [hclone] at hchain hr
    obtain rfl := hchain.unique h.chain
    rw [hrestore hclone] at hr
    refine ⟨map_clone_eq_self.mp hclone, htrusts.mp ?_⟩
    by_contra hinvalid
    rw [if_neg hinvalid] at hr
    cases hr
  · rintro ⟨hfinite, hshadow⟩
    have hclone := map_clone_eq_self.mpr hfinite
    obtain ⟨comparison, hcompare, hok⟩ := h.compare
    refine ⟨_, ledger, integrity, comparison,
      createBackupArtifact_eq_ok.mpr ⟨fs, hclone.symm ▸ h.chain, rfl⟩, ?_, rfl, rfl, hcompare, hok⟩
    rw [hclone, hrestore hclone, if_pos (htrusts.mpr hshadow)]

end

/-! ## Stored events -/

/-- `isHashChainedRealmEvent`, as far as it returns. -/
def isChained (event : Json) : Bool :=
  match isHashChainedRealmEvent event with
  | .ok chained => chained
  | .error _ => false

/-- An event as acceptance stores it, or a copy of one. -/
structure Stored (event : Json) (n : NormalizedProposal) (t : EventType) : Prop where
  shows : Shows event n
  type : n.envelope.type = t.name
  sequence : ∃ k : Nat, n.envelope.sequence = .int k
  timestamp : ∃ x, n.envelope.timestamp = .str x

theorem Checked.stored {host : Host} {clock : Clock} {s : AuthorityState} {fs : List HashedFields}
    {t : EventType} {n : NormalizedProposal} {event : Json}
    (h : Checked host clock s fs t n event) : Stored event n t where
  shows := h.shows
  type := h.type
  sequence := ⟨fs.length + 1, h.sequence⟩
  timestamp := by
    have ht := h.timestamp
    cases hv : n.envelope.timestamp with
    | str x => exact ⟨x, rfl⟩
    | _ =>
      rw [hv] at ht
      cases ht

theorem Reachable.stored {host : Host} {ledger : Ledger} (h : Reachable host ledger) :
    ∀ event ∈ ledger.event_log, isHashChainedRealmEvent event = .ok true → ∃ n t, Stored event n t := by
  obtain ⟨_, _, -, hstored⟩ := h.invariant
    (P := fun log _ _ => ∀ event ∈ log, isHashChainedRealmEvent event = .ok true →
      ∃ n t, Stored event n t)
    (by simp)
    (fun {log _ _ _ _ _ event _} hinv hacc e he hchained => by
      rcases List.mem_append.mp he with he | he
      · exact hinv e he hchained
      · rw [List.mem_singleton.mp he]
        exact ⟨_, _, hacc.stored⟩)
    (fun {log _ _ event} hinv hf e he hchained => by
      rcases List.mem_append.mp he with he | he
      · exact hinv e he hchained
      · rw [List.mem_singleton.mp he, hf.2] at hchained
        cases hchained)
  exact hstored

namespace Stored

variable {event : Json} {n : NormalizedProposal} {t : EventType}

theorem prop_clone (v : Json) (k : String) : (clone v).prop k = (v.prop k).map clone :=
  Json.prop_written v k

/-- A copy of a stored event shows the copied payload. -/
theorem clone (h : Stored event n t) : ∃ m, Stored (Js.clone event) m t := by
  obtain ⟨k, hk⟩ := h.sequence
  obtain ⟨x, hx⟩ := h.timestamp
  refine ⟨⟨{ n.envelope with previous_event_hash := Js.clone n.envelope.previous_event_hash },
    Json.writtenFields n.payload⟩, ?_, h.type, ⟨k, hk⟩, ⟨x, hx⟩⟩
  have hshows := h.shows
  constructor <;> rw [prop_clone]
  · rw [hshows.type]; rfl
  · rw [hshows.realm_event]; rfl
  · rw [hshows.version]; rfl
  · rw [hshows.envelope]
    simp only [Envelope.toJson, hk, hx]
    rfl
  · rw [hshows.payload]; rfl
  · rw [hshows.signer]; rfl
  · rw [hshows.authority_reference]; rfl
  · rw [hshows.sequence, hk]; rfl
  · rw [hshows.timestamp, hx]; rfl

theorem chained (h : Stored event n t) : isHashChainedRealmEvent event = .ok true :=
  h.shows.chained h.type

end Stored

/-! ## Changed events -/

/-- The ids and hashes of the two events are the same. -/
def SameLinks (event event' : Json) : Prop :=
  ∀ k ∈ ["id", "event_id", "previous_event_hash", "current_event_hash"],
    event'.prop k = event.prop k

/-- The second event is chained too, and the hash covers the same of both. -/
def HashedAlike (event event' : Json) : Prop :=
  isHashChainedRealmEvent event' = .ok true
    ∧ ∃ f f', hashedFields event = .ok f ∧ hashedFields event' = .ok f' ∧ f.Alike f'

/-- An event that is hashed like a stored event is attached where the stored one is. -/
theorem Stored.attached {host : Host} {d : Option String} {event event' : Json}
    {n : NormalizedProposal} {t : EventType} {f f' : HashedFields} (h : Stored event n t)
    (hatt : Attached host d event f) (hlinks : SameLinks event event')
    (hhashed : hashedFields event' = .ok f') (halike : f.Alike f') : Attached host d event' f' := by
  have hlink := link_congr host d halike
  have hn : f = n.hashed := Except.ok.inj (hatt.hashed.symm.trans h.shows.hashed)
  have htype : f.type = .str t.name := by
    rw [hn, ← h.type]
    rfl
  have hfinite : f.sequence.isFinite = true := by
    obtain ⟨k, hk⟩ := h.sequence
    have hseq : f.sequence = n.envelope.sequence := by rw [hn]; rfl
    rw [hseq, hk]
    rfl
  have hhash : host.sha256 (canonicalEncode (f.material (digest d))) =
      host.sha256 (canonicalEncode (f'.material (digest d))) := Option.some.inj hlink
  obtain ⟨id, hid, heventId, hownId⟩ := hatt.named
  rw [buildRealmEventId_of_hashed hatt.hashed htype t.name_ne_empty] at hid
  refine ⟨hhashed, ?_, ?_, id, ?_, ?_, ?_⟩
  · rw [hlinks _ (by simp), hatt.previous]
  · rw [hlinks _ (by simp), hatt.current, hlink]
  · rw [buildRealmEventId_of_hashed hhashed (halike.type_of_left htype) t.name_ne_empty,
      ← halike.sequence_eq_of_left hfinite, ← hhash]
    exact hid
  · rw [hlinks _ (by simp), heventId]
  · rw [hlinks _ (by simp), hownId]

/-- The hashes of the chained events are the digests of the chain. -/
theorem Chain.hashes {host : Host} {d : Option String} {log : List Json} {fs : List HashedFields}
    (h : Chain host d log fs) :
    (log.filter isChained).map (·.prop "current_event_hash") =
      (HashChain.heads (Realm.link host) d fs).map fun e => some (digest e) := by
  induction h with
  | nil => rfl
  | skip hno _ ih => rw [List.filter_cons_of_neg (by simp [isChained, hno]), ih]
  | link hyes hatt _ ih =>
    rw [List.filter_cons_of_pos (by simp [isChained, hyes]), List.map_cons, ih, hatt.current]
    rfl

theorem Chain.length_eq {host : Host} {d : Option String} {log : List Json}
    {fs : List HashedFields} (h : Chain host d log fs) :
    fs.length = (log.filter isChained).length := by
  have hlen := congrArg List.length h.hashes
  rwa [List.length_map, List.length_map, HashChain.length_heads, eq_comm] at hlen

section
variable {host : Host} {now : String} {fs : List HashedFields} {pre post : List Json}
  {event event' : Json}

/-- Histories with one head that differ in one chained event have alike events there. -/
theorem hashedAlike_of_head (hcf : host.CollisionFree) (h : Chain host none (pre ++ event :: post) fs)
    {n : NormalizedProposal} {t : EventType} (hstored : Stored event n t) {gs : List HashedFields}
    (h' : Chain host none (pre ++ event' :: post) gs) (hhead : headOf host gs = headOf host fs) :
    HashedAlike event event' := by
  have hlen := (link_binding hcf).length_eq hhead
  have halike := (link_binding hcf).commits hhead.symm
  obtain ⟨ps, rs, rfl, hpre, hrest⟩ := h.of_append
  obtain ⟨qs, ts, rfl, hpre', hrest'⟩ := h'.of_append
  obtain rfl := hpre.unique hpre'
  cases hrest with
  | skip hno _ =>
    rw [hstored.chained] at hno
    cases hno
  | link hyes hatt htail =>
    cases hrest' with
    | skip hno htail' =>
      -- one event fewer is chained
      rw [List.length_append, List.length_append, List.length_cons, htail.length_eq,
        htail'.length_eq] at hlen
      omega
    | link hyes' hatt' htail' =>
      refine ⟨hyes', _, _, hatt.hashed, hatt'.hashed, ?_⟩
      have hdrop := List.forall₂_drop ps.length halike
      rw [List.drop_left, List.drop_left] at hdrop
      exact (List.forall₂_cons.mp hdrop).1

/-- A change the hash does not see keeps the chain and its head. -/
theorem Chain.replace (h : Chain host none (pre ++ event :: post) fs) {n : NormalizedProposal}
    {t : EventType} (hstored : Stored event n t) (hlinks : SameLinks event event')
    (halike : HashedAlike event event') :
    ∃ gs, Chain host none (pre ++ event' :: post) gs ∧ headOf host gs = headOf host fs := by
  obtain ⟨hyes, f, f', hf, hf', halike⟩ := halike
  obtain ⟨ps, rs, rfl, hpre, hrest⟩ := h.of_append
  cases hrest with
  | skip hno _ =>
    rw [hstored.chained] at hno
    cases hno
  | link _ hatt htail =>
    obtain rfl := Except.ok.inj (hf.symm.trans hatt.hashed)
    have hlink := link_congr host (HashChain.head (Realm.link host) none ps) halike
    rw [hlink] at htail
    refine ⟨_, hpre.append (.link hyes (hstored.attached hatt hlinks hf' halike) htail), ?_⟩
    simp only [headOf, HashChain.head_append, HashChain.head_cons, hlink]

/-- The digest of a history with a chained event. -/
theorem exists_head (h : Chain host none (pre ++ event :: post) fs)
    (hyes : isHashChainedRealmEvent event = .ok true) :
    ∃ x, x ≠ "" ∧ headOf host fs = some x := by
  have hne : fs ≠ [] := by
    rintro rfl
    have hlen := h.length_eq
    rw [List.filter_append, List.filter_cons_of_pos (by simp [isChained, hyes])] at hlen
    simp at hlen
  obtain ⟨gs, f, rfl⟩ := (List.eq_nil_or_concat' fs).resolve_left hne
  rw [headOf, HashChain.head_snoc]
  exact ⟨_, host.sha256_ne_empty _, rfl⟩

/-- A changed realm event in the backup: the restore refuses exactly when the hash sees the change or
the trusts of the changed history are refused. -/
theorem restore_changed_iff (hcf : host.CollisionFree)
    (h : Chain host none (pre ++ event :: post) fs) {n : NormalizedProposal} {t : EventType}
    (hstored : Stored event n t) (hlinks : SameLinks event event') :
    (∃ r, restoreRealmFromBackup host
        (backupOf now (pre ++ event' :: post) (digest (headOf host fs))) = .ok r ∧ r.ok = false) ↔
      ¬ HashedAlike event event' ∨ FederationRefused host (pre ++ event' :: post) := by
  by_cases halike : HashedAlike event event'
  · obtain ⟨gs, hchain, hhead⟩ := h.replace hstored hlinks halike
    rw [← hhead, restore_linked hchain]
    simp [halike]
  · refine ⟨fun _ => .inl halike, fun _ => ?_⟩
    obtain ⟨x, hne, hx⟩ := exists_head h hstored.chained
    rw [hx]
    exact restore_unlinked (fun gs hgs heq =>
      halike (hashedAlike_of_head hcf h hstored hgs (heq.trans hx.symm))) hne

/-! ## Reordered events -/

theorem eq_of_map_eq {α β : Type} {f : α → β} {xs ys : List α}
    (hinj : ∀ x ∈ xs, ∀ y ∈ xs, f x = f y → x = y) (hmem : ∀ y ∈ ys, y ∈ xs)
    (h : ys.map f = xs.map f) : ys = xs := by
  have hlen : ys.length = xs.length := by simpa using congrArg List.length h
  refine List.ext_getElem hlen fun i hi hj => ?_
  refine hinj _ (hmem _ (List.getElem_mem hi)) _ (List.getElem_mem hj) ?_
  have hi' := List.getElem_of_eq h (by simpa using hi)
  simpa using hi'

/-- A permuted history with the same head has its chained events in the same order. -/
theorem chained_order_of_head (hcf : host.CollisionFree) {history history' : List Json}
    (h : Chain host none history fs) (hperm : history'.Perm history) {gs : List HashedFields}
    (h' : Chain host none history' gs) (hhead : headOf host gs = headOf host fs) :
    history'.filter isChained = history.filter isChained := by
  have halike := (link_binding hcf).commits hhead
  have hlink : ∀ d (f g : HashedFields), f.Alike g → Realm.link host d f = Realm.link host d g :=
    fun d _ _ hfg => link_congr host d hfg
  have hheads := HashChain.heads_congr hlink halike none
  have hnodup : ((history.filter isChained).map (·.prop "current_event_hash")).Nodup := by
    rw [h.hashes]
    refine ((link_binding hcf).nodup_heads fs).map ?_
    exact fun d e heq => digest_injective (Option.some.inj heq)
  refine eq_of_map_eq (fun x hx y hy hxy => List.inj_on_of_nodup_map hnodup hx hy hxy)
    (fun y hy => (hperm.filter isChained).subset hy) ?_
  rw [h.hashes, h'.hashes, hheads]

/-- A backup whose realm events come in another order is refused. -/
theorem restore_reordered (hcf : host.CollisionFree) {history history' : List Json}
    (h : Chain host none history fs) (hperm : history'.Perm history)
    (horder : history'.filter isChained ≠ history.filter isChained) :
    ∃ r, restoreRealmFromBackup host (backupOf now history' (digest (headOf host fs))) = .ok r
      ∧ r.ok = false := by
  -- two orders need two chained events
  have hsome : ∃ event ∈ history, isChained event = true := by
    by_contra hno
    have hnil : history.filter isChained = [] :=
      List.filter_eq_nil_iff.mpr fun e he hc => hno ⟨e, he, hc⟩
    have hnil' : history'.filter isChained = [] :=
      List.filter_eq_nil_iff.mpr fun e he hc => hno ⟨e, hperm.subset he, hc⟩
    exact horder (hnil'.trans hnil.symm)
  obtain ⟨event, hmem, hchained⟩ := hsome
  obtain ⟨pre, post, rfl⟩ := List.append_of_mem hmem
  have hyes : isHashChainedRealmEvent event = .ok true := by
    unfold isChained at hchained
    split at hchained
    · next b hb => rw [hb, hchained]
    · cases hchained
  obtain ⟨x, hne, hx⟩ := exists_head h hyes
  rw [hx]
  exact restore_unlinked (fun gs hgs heq =>
    horder (chained_order_of_head hcf h hperm hgs (heq.trans hx.symm))) hne

end

/-! ## Backups of reachable ledgers -/

/-- A reachable ledger comes back from its backup exactly when its numbers are finite and no trust is
shadowed. A changed realm event makes the restore refuse exactly when the hash sees the change or the
trusts fail; reordered realm events always do. -/
theorem backup_restore_iff {host : Host} (hcf : host.CollisionFree) {ledger : Ledger}
    (h : Reachable host ledger) (now : String) :
    ∃ s, ledger.current_authority_state = some s
      ∧ (RoundTrips host now ledger ↔
        (∀ event ∈ ledger.event_log, event.finite = true)
          ∧ ∀ t ∈ s.federationTrusts, ¬ t.Shadowed)
      ∧ (∀ backup pre event post event',
        createBackupArtifact host now ledger.event_log = .ok backup →
        ledger.event_log = pre ++ event :: post → isHashChainedRealmEvent event = .ok true →
        SameLinks (clone event) event' →
        ((∃ r, restoreRealmFromBackup host
            (withHistory backup (pre.map clone ++ event' :: post.map clone)) = .ok r ∧ r.ok = false) ↔
          ¬ HashedAlike (clone event) event'
            ∨ FederationRefused host (pre.map clone ++ event' :: post.map clone)))
      ∧ ∀ backup history', createBackupArtifact host now ledger.event_log = .ok backup →
        history'.Perm (ledger.event_log.map clone) →
        history'.filter isChained ≠ (ledger.event_log.map clone).filter isChained →
        ∃ r, restoreRealmFromBackup host (withHistory backup history') = .ok r ∧ r.ok = false := by
  obtain ⟨s, fs, hlive, hcut, href⟩ := h.referenced
  refine ⟨s, hlive.state, hlive.roundTrips_iff hcut.counted href, ?_, ?_⟩
  · intro backup pre event post event' hcreate hlog hchained hlinks
    obtain ⟨gs, hchain, rfl⟩ := createBackupArtifact_eq_ok.mp hcreate
    obtain ⟨n, t, hstored⟩ := h.stored event (by simp [hlog]) hchained
    obtain ⟨m, hcopy⟩ := hstored.clone
    rw [withHistory_backupOf]
    rw [hlog, List.map_append, List.map_cons] at hchain
    exact restore_changed_iff hcf hchain hcopy hlinks
  · intro backup history' hcreate hperm horder
    obtain ⟨gs, hchain, rfl⟩ := createBackupArtifact_eq_ok.mp hcreate
    rw [withHistory_backupOf]
    exact restore_reordered hcf hchain hperm horder

theorem backup_restore_alice :
    ∃ s, (aliceLedger plainHost).current_authority_state = some s
      ∧ (RoundTrips plainHost "10:00" (aliceLedger plainHost) ↔
        (∀ event ∈ (aliceLedger plainHost).event_log, event.finite = true)
          ∧ ∀ t ∈ s.federationTrusts, ¬ t.Shadowed) := by
  obtain ⟨s, hs, hround, -⟩ :=
    backup_restore_iff plainHost_collisionFree (reachable_alice plainHost) "10:00"
  exact ⟨s, hs, hround⟩

/-- The realm is called `constructor`. -/
def shadowedTrust : Fields :=
  [("remote_realm_id", .str "constructor"), ("remote_event_head", .str "head")]

theorem backup_restore_fails :
    ¬ ∀ (host : Host) (ledger : Ledger) (now : String), host.CollisionFree →
      Reachable host ledger → RoundTrips host now ledger := by
  intro hclaim
  obtain ⟨ledger, s, hreach, hlive, t, ht, hrealm, -, hhead⟩ :=
    exists_alice_trusts plainHost (show validatePayload _ shadowedTrust = [] by decide) rfl
  have hround := hclaim plainHost ledger "10:00" plainHost_collisionFree hreach
  obtain ⟨s', fs, hlive', hcut, href⟩ := hreach.referenced
  obtain rfl : s' = s := Option.some.inj (hlive'.state.symm.trans hlive.state)
  refine ((hlive'.roundTrips_iff hcut.counted href).mp hround).2 t ht ⟨?_, ?_⟩
  · rw [hrealm]
    decide
  · rw [hhead]
    rfl

end SimpleL1.Realm
