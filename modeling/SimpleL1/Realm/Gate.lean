import SimpleL1.Realm.Activation

/-!
# The gate of the lifecycle

What a realm may do is derived from its integrity report: commands, mutations of
authority and events from other nodes are let in when nothing failed, or when recovery
evidence was validated. So without such evidence the gate opens just when the chain verifies, the live
projection is the replayed one, and the snapshot, the trusts and the command
records agree with the log; and no runtime is activated on a ledger that does not.
-/

namespace SimpleL1.Realm.Deployment

open SimpleL1.Js SimpleL1.Lib.Effect

/-! ## Operations -/

inductive Operation where
  | ACCEPT_AUTHORITY_MUTATION
  | ACCEPT_COMMAND
  | ACCEPT_TRANSPORT_EVENT
  | COLLECT_RECOVERY_EVIDENCE
  | RUN_DIAGNOSTICS
  deriving DecidableEq, Repr

/-- Every state of the lifecycle lets diagnostics run. -/
def canRunDiagnostics (_ : LifecycleState) : Bool := true

def canOperate (state : LifecycleState) : Operation → Bool
  | .ACCEPT_COMMAND => canAcceptCommands state
  | .ACCEPT_AUTHORITY_MUTATION | .ACCEPT_TRANSPORT_EVENT => canAcceptAuthorityMutations state
  | .COLLECT_RECOVERY_EVIDENCE | .RUN_DIAGNOSTICS => canRunDiagnostics state

/-- The operation is not one that looks into a failure. -/
def Operation.changes : Operation → Bool
  | ACCEPT_AUTHORITY_MUTATION | ACCEPT_COMMAND | ACCEPT_TRANSPORT_EVENT => true
  | COLLECT_RECOVERY_EVIDENCE | RUN_DIAGNOSTICS => false

structure LifecycleOptions where
  recoveryAuthorityValidated : Option Json := none
  recovery_authority_validated : Option Json := none

def LifecycleOptions.recoveryValidated (options : LifecycleOptions) : Bool :=
  strictEq options.recoveryAuthorityValidated (some (.bool true))
    || strictEq options.recovery_authority_validated (some (.bool true))

/-- `deriveRealmLifecycleState`, also without a report and with evidence of a recovery. -/
def lifecycleOf (integrityReport : Option IntegrityReport) (options : LifecycleOptions) : Lifecycle :=
  match integrityReport with
  | none =>
    { state := .BOOTSTRAPPING
      can_accept_commands := false
      can_accept_authority_mutations := false
      can_run_diagnostics := true
      explanation :=
        "Realm has no integrity report yet; only loading, replay, and diagnostics are allowed." }
  | some report =>
    let state : LifecycleState :=
      if hasCanonicalFailure report then
        if options.recoveryValidated then .RECOVERING else .SUSPENDED
      else if hasDerivedOrOperationalWarning report then .DEGRADED
      else .VERIFIED
    { state
      can_accept_commands := canAcceptCommands state
      can_accept_authority_mutations := canAcceptAuthorityMutations state
      can_run_diagnostics := canRunDiagnostics state
      explanation := lifecycleExplanation report state }

/-- Without evidence of a recovery this is the state that activation reads. -/
theorem lifecycleOf_without_recovery (report : IntegrityReport) :
    lifecycleOf (some report) {} = deriveRealmLifecycleState report := rfl

/-! ## The checks behind a report -/

/-- The ledger agrees with its log, and so does what is kept beside it. -/
structure AgreesWithLog (host : Host) (ledger : InterpretedLedger) (options : IntegrityOptions) : Prop where
  history : verifyRealmEventHistory host ledger.event_log = .ok true
  projection : ∃ s, buildCurrentAuthorityState host ledger.event_log = .ok s ∧
    hashOf host (ledger.live.getD (AuthorityState.codec.encode s)) = hashOf host (AuthorityState.codec.encode s)
  snapshot : ∀ snapshot, options.snapshot = some snapshot → snapshot ≠ .null →
    ∃ verification, verifyRealmSnapshot host ledger.event_log snapshot = .ok verification
  trusts : ∃ trusts,
    federationTrusts (orNull (or ledger.current_authority_state (some (.obj [])))) = .ok trusts ∧
    ∀ trust ∈ trusts, verifyFederationTrust ledger.event_log options.remoteEvidenceHeads trust = .ok true
  records : ∀ ids ∈ options.executionRecords.getD [], ∀ id ∈ ids, ∃ acceptedIds acceptedId,
    eventIdsInLog ledger.event_log = .ok acceptedIds ∧ acceptedId ∈ acceptedIds
      ∧ strictEq (some acceptedId) (some id) = true

/-- A check that fails comes with a failure. -/
def Owns (r : CheckResult) : Prop := r.check.status = .fail → r.failure ≠ none

theorem owns_pass (name : String) : Owns (.pass name) := fun h => by cases h

theorem owns_fail (name code failure : String) : Owns (.fail name code failure) := fun _ h => by cases h

section
variable {host : Host} {log : List Json} {r : CheckResult}

theorem verifyEventHistoryIntegrity_spec (host : Host) (log : List Json) :
    Owns (verifyEventHistoryIntegrity host log)
      ∧ ((verifyEventHistoryIntegrity host log).failure = none ↔
        verifyRealmEventHistory host log = .ok true) := by
  have htrue : ∀ b, verifyRealmEventHistory host log = .ok b → b = true := fun b h => by
    obtain ⟨-, -, rfl⟩ := map_eq_ok.mp h
    rfl
  unfold verifyEventHistoryIntegrity
  cases h : verifyRealmEventHistory host log with
  | ok b =>
    obtain rfl := htrue b h
    exact ⟨owns_pass _, fun _ => rfl, fun _ => rfl⟩
  | error e => exact ⟨owns_fail _ _ _, fun h => (by cases h), fun h => (by cases h)⟩

theorem verifyProjectionReplayIntegrity_spec {ledger : InterpretedLedger} {hash : Option String}
    (h : verifyProjectionReplayIntegrity host ledger = .ok (r, hash)) :
    Owns r ∧ (verifyRealmEventHistory host ledger.event_log = .ok true →
      (r.failure = none ↔ ∃ s, buildCurrentAuthorityState host ledger.event_log = .ok s ∧
        hashOf host (ledger.live.getD (AuthorityState.codec.encode s)) =
          hashOf host (AuthorityState.codec.encode s))) := by
  have hspec := (verifyEventHistoryIntegrity_spec host ledger.event_log).2
  unfold verifyProjectionReplayIntegrity at h
  split at h
  · next hfails =>
    cases h
    refine ⟨owns_fail _ _ _, fun hhistory => ?_⟩
    rw [hspec.mpr hhistory] at hfails
    cases hfails
  · obtain ⟨replayed, hreplayed, h⟩ := bind_eq_ok.mp h
    obtain ⟨s, hs, rfl⟩ := map_eq_ok.mp hreplayed
    dsimp only at h
    split at h
    · next hdiffer =>
      cases h
      refine ⟨owns_fail _ _ _, fun _ => ⟨fun h => (by cases h), ?_⟩⟩
      rintro ⟨s', hs', hsame⟩
      cases hs.symm.trans hs'
      exact absurd hsame.symm hdiffer
    · next hsame =>
      cases h
      exact ⟨owns_pass _, fun _ => ⟨fun _ => ⟨s, hs, (not_not.mp hsame).symm⟩, fun _ => rfl⟩⟩

theorem verifySnapshotIntegrity_spec (snapshot : Option Json) (ledger : Ledger)
    (hhistory : verifyRealmEventHistory host ledger.event_log = .ok true) :
    (verifySnapshotIntegrity host snapshot ledger).failure = none ↔ ∀ v, snapshot = some v → v ≠ .null →
      ∃ verification, verifyRealmSnapshot host ledger.event_log v = .ok verification := by
  have hspec := (verifyEventHistoryIntegrity_spec host ledger.event_log).2
  unfold verifySnapshotIntegrity
  split
  · exact ⟨fun _ v h => (by cases h), fun _ => rfl⟩
  · exact ⟨fun _ v h hne => absurd (Option.some.inj h).symm hne, fun _ => rfl⟩
  · next v hne =>
    have hnull : v ≠ .null := hne
    rw [hspec.mpr hhistory, Option.isSome_none, if_neg Bool.false_ne_true]
    split
    · next verification hverified =>
      refine ⟨fun _ w h _ => ?_, fun _ => rfl⟩
      cases h
      exact ⟨verification, hverified⟩
    · next e herror =>
      refine ⟨fun h => (by cases h), fun h => ?_⟩
      obtain ⟨verification, hverified⟩ := h v rfl hnull
      cases hverified.symm.trans herror

theorem verifyFederationTrusts_spec {heads : Fields} {trusts : List Json}
    (h : verifyFederationTrusts log heads trusts = .ok r) :
    r.failure = none ↔ ∀ trust ∈ trusts, verifyFederationTrust log heads trust = .ok true := by
  induction trusts with
  | nil =>
    cases h
    exact ⟨fun _ _ h => absurd h List.not_mem_nil, fun _ => rfl⟩
  | cons trust trusts ih =>
    obtain ⟨passes, hpasses, h⟩ := bind_eq_ok.mp h
    rw [List.forall_mem_cons, hpasses]
    cases passes with
    | true => exact (ih h).trans ⟨fun h => ⟨rfl, h⟩, fun h => h.2⟩
    | false =>
      cases h
      exact ⟨fun h => (by cases h), fun h => (by cases h.1)⟩

theorem verifyCommandExecutionBoundary_spec {ledger : Ledger} {records : Option (List (List Json))}
    (h : verifyCommandExecutionBoundary records ledger = .ok r) :
    r.failure = none ↔ ∀ ids ∈ records.getD [], ∀ id ∈ ids, ∃ acceptedIds acceptedId,
      eventIdsInLog ledger.event_log = .ok acceptedIds ∧ acceptedId ∈ acceptedIds
        ∧ strictEq (some acceptedId) (some id) = true := by
  unfold verifyCommandExecutionBoundary at h
  split at h
  · cases h
    exact ⟨fun _ ids h => absurd h List.not_mem_nil, fun _ => rfl⟩
  · cases h
    exact ⟨fun _ ids h => absurd h List.not_mem_nil, fun _ => rfl⟩
  · next records hne =>
    obtain ⟨acceptedIds, hids, h⟩ := bind_eq_ok.mp h
    have hall : (records.all fun ids => ids.all fun id =>
        acceptedIds.any fun acceptedId => strictEq (some acceptedId) (some id)) = true ↔
        ∀ ids ∈ records, ∀ id ∈ ids, ∃ acceptedIds acceptedId, eventIdsInLog ledger.event_log = .ok acceptedIds
          ∧ acceptedId ∈ acceptedIds ∧ strictEq (some acceptedId) (some id) = true := by
      simp only [List.all_eq_true, List.any_eq_true]
      refine forall₂_congr fun ids _ => forall₂_congr fun id _ => ?_
      constructor
      · rintro ⟨acceptedId, hmem, hsame⟩
        exact ⟨acceptedIds, acceptedId, hids, hmem, hsame⟩
      · rintro ⟨acceptedIds', acceptedId, hids', hmem, hsame⟩
        cases hids.symm.trans hids'
        exact ⟨acceptedId, hmem, hsame⟩
    rw [Option.getD_some, ← hall]
    split at h
    · next hpass =>
      cases h
      exact ⟨fun _ => hpass, fun _ => rfl⟩
    · next hfails =>
      cases h
      exact ⟨fun h => (by cases h), fun h => absurd h hfails⟩

end

/-! ## The gate -/

section
variable {host : Host} {ledger : InterpretedLedger} {options : IntegrityOptions} {report : IntegrityReport}

/-- A report is made of the five results. -/
theorem verifyRealmIntegrity_results (h : verifyRealmIntegrity host ledger options = .ok report) :
    ∃ projection hash federation commandLineage results,
      verifyProjectionReplayIntegrity host ledger = .ok (projection, hash)
        ∧ verifyFederationReferences ledger options.remoteEvidenceHeads = .ok federation
        ∧ verifyCommandExecutionBoundary options.executionRecords ⟨ledger.event_log, none, none⟩ =
          .ok commandLineage
        ∧ results = [verifyEventHistoryIntegrity host ledger.event_log, projection,
          verifySnapshotIntegrity host options.snapshot ⟨ledger.event_log, none, none⟩, federation,
          commandLineage]
        ∧ report.failures = results.filterMap CheckResult.failure
        ∧ report.warnings = results.filterMap CheckResult.warning
        ∧ report.canonical = [("history",
            .str (summarizeSection [(verifyEventHistoryIntegrity host ledger.event_log).check])),
          ("projection_replay", .str (summarizeSection [projection.check]))] := by
  obtain ⟨⟨projection, hash⟩, hprojection, h⟩ := bind_eq_ok.mp h
  obtain ⟨federation, hfederation, h⟩ := bind_eq_ok.mp h
  obtain ⟨commandLineage, hcommands, h⟩ := bind_eq_ok.mp h
  refine ⟨projection, hash, federation, commandLineage, _, hprojection, hfederation, hcommands, rfl, ?_⟩
  dsimp only at h
  split at h
  · obtain ⟨head, -, h⟩ := bind_eq_ok.mp h
    cases h
    exact ⟨rfl, rfl, rfl⟩
  · cases h
    exact ⟨rfl, rfl, rfl⟩

theorem summarizeSection_ne_fail {check : Check} (h : check.status ≠ .fail) :
    strictEq (some (Json.str (summarizeSection [check]))) (some (.str "fail")) = false := by
  obtain ⟨name, status, code⟩ := check
  cases status with
  | fail => exact absurd rfl h
  | pass | warning | skip => rfl

/-- There is no failure just when the ledger agrees with its log, and a report has a canonical failure just
when it has a failure at all. -/
theorem verifyRealmIntegrity_checked (h : verifyRealmIntegrity host ledger options = .ok report) :
    hasCanonicalFailure report = !report.failures.isEmpty
      ∧ (report.failures = [] ↔ AgreesWithLog host ledger options) := by
  obtain ⟨projection, hash, federation, commandLineage, results, hprojection, hfederation, hcommands, hresults,
    hfailures, -, hcanonical⟩ := verifyRealmIntegrity_results h
  obtain ⟨hownsHistory, hhistory⟩ := verifyEventHistoryIntegrity_spec host ledger.event_log
  obtain ⟨hownsProjection, hprojected⟩ := verifyProjectionReplayIntegrity_spec hprojection
  have hsnapshot := @verifySnapshotIntegrity_spec host options.snapshot ⟨ledger.event_log, none, none⟩
  obtain ⟨trusts, hlist, hloop⟩ := bind_eq_ok.mp hfederation
  have htrusts := verifyFederationTrusts_spec hloop
  have hrecords := verifyCommandExecutionBoundary_spec hcommands
  have hnone : report.failures = [] ↔ ∀ r ∈ results, r.failure = none := by
    rw [hfailures]
    exact List.filterMap_eq_nil_iff
  refine ⟨?_, ?_⟩
  · unfold hasCanonicalFailure RealmIntegrity.realm_valid
    cases hempty : report.failures.isEmpty with
    | false => rfl
    | true =>
      have hpassed := hnone.mp (List.isEmpty_iff.mp hempty)
      rw [hresults] at hpassed
      simp only [List.forall_mem_cons] at hpassed
      have hhistory : (verifyEventHistoryIntegrity host ledger.event_log).check.status ≠ .fail := fun hfails =>
        hownsHistory hfails hpassed.1
      have hreplay : projection.check.status ≠ .fail := fun hfails => hownsProjection hfails hpassed.2.1
      rw [hcanonical]
      simp [summarizeSection_ne_fail hhistory, summarizeSection_ne_fail hreplay]
  · rw [hnone, hresults]
    simp only [List.forall_mem_cons]
    constructor
    · rintro ⟨h1, h2, h3, h4, h5, -⟩
      exact ⟨hhistory.mp h1, (hprojected (hhistory.mp h1)).mp h2, (hsnapshot (hhistory.mp h1)).mp h3,
        ⟨trusts, hlist, htrusts.mp h4⟩, hrecords.mp h5⟩
    · intro hagrees
      obtain ⟨trusts', hlist', hpass⟩ := hagrees.trusts
      cases hlist.symm.trans hlist'
      exact ⟨hhistory.mpr hagrees.history, (hprojected hagrees.history).mpr hagrees.projection,
        (hsnapshot hagrees.history).mpr hagrees.snapshot, htrusts.mpr hpass, hrecords.mpr hagrees.records,
        fun r h => absurd h List.not_mem_nil⟩

/-- Activation ends with the checks of the ledger, and goes through where they find no failure; then it tells
the version of the candidate. -/
theorem activation_verifies {live : Option Json} {candidateRuntime : Runtime} {options : DeploymentOptions}
    {log log' : List Json} {a : Activation}
    (h : activateRuntimeDeployment host live candidateRuntime options log = .ok (.ok a) log') :
    verifyRealmIntegrity host ⟨log', live⟩ options.integrityOptions = .ok a.integrity
      ∧ a.integrity.realm_valid = true
      ∧ candidateRuntime.versionText "candidate" = .ok a.active_runtime_version := by
  unfold activateRuntimeDeployment at h
  rw [get_bind_apply] at h
  obtain ⟨migration, log1, -, h⟩ := run_bind_eq_ok.mp h
  cases migration with
  | error refusal => cases h
  | ok migration =>
    dsimp only at h
    rw [get_bind_apply] at h
    split at h
    · cases h
    · obtain ⟨conformance, log2, -, h⟩ := run_bind_eq_ok.mp h
      cases conformance with
      | error failure => cases h
      | ok conformance =>
        dsimp only at h
        rw [get_bind_apply] at h
        split at h
        · cases h
        · obtain ⟨integrity, log3, hintegrity, hrest⟩ := run_bind_eq_ok.mp h
          obtain ⟨hverified, rfl⟩ := lift_eq_ok.mp hintegrity
          split at hrest
          · cases hrest
          · next hvalid =>
            split at hrest
            · cases hrest
            · obtain ⟨active_runtime_version, hversion, hrest⟩ := lift_bind_eq_ok.mp hrest
              obtain ⟨_, -, hrest⟩ := lift_bind_eq_ok.mp hrest
              cases hrest
              exact ⟨hverified, by simpa using hvalid, hversion⟩

end

/-- A realm that has accepted its own events goes on operating, degraded for want of command records, unless a
trust contradicts the remote evidence. -/
theorem reachable_operates (host : Host) (ledger : Ledger) (heads : Fields) (lifecycleOptions : LifecycleOptions)
    (h : Reachable host ledger) :
    ∃ report s, verifyRealmIntegrity host (ofLedger ledger) { remoteEvidenceHeads := heads } = .ok report
      ∧ ledger.current_authority_state = some s
      ∧ (lifecycleOf (some report) lifecycleOptions).state =
        if ∀ trust ∈ s.federationTrusts, trust.Contradicted heads = false then .DEGRADED
        else if lifecycleOptions.recoveryValidated then .RECOVERING else .SUSPENDED := by
  obtain ⟨s, fs, hlive, hcuttable, href⟩ := h.referenced
  obtain ⟨realmReport, hrealm, hvalid⟩ := verifyRealmIntegrity_eq hlive hcuttable.counted href heads
  rw [← verifyRealmIntegrity_ofLedger] at hrealm
  obtain ⟨report, hreport, rfl⟩ := map_eq_ok.mp hrealm
  refine ⟨report, s, hreport, hlive.state, ?_⟩
  have hwarned : hasDerivedOrOperationalWarning report = true := by
    obtain ⟨projection, hash, federation, commandLineage, results, -, -, hcommands, hresults, -, hwarnings, -⟩ :=
      verifyRealmIntegrity_results hreport
    cases hcommands
    have hmem : "COMMAND_EXECUTION_RECORD_MISSING" ∈ report.warnings := by
      rw [hwarnings, hresults]
      exact List.mem_filterMap.mpr ⟨_, by simp; right; right; right; right; rfl, rfl⟩
    unfold hasDerivedOrOperationalWarning
    rw [List.isEmpty_eq_false_iff.mpr (List.ne_nil_of_mem hmem)]
    rfl
  have hcanonical : hasCanonicalFailure report = !report.realm_valid := (verifyRealmIntegrity_checked hreport).1
  unfold lifecycleOf
  dsimp only
  rw [hcanonical, hwarned]
  by_cases htrusts : ∀ trust ∈ s.federationTrusts, trust.Contradicted heads = false
  · rw [if_pos htrusts, hvalid.mpr htrusts]
    rfl
  · have hinvalid : report.realm_valid = false := Bool.eq_false_iff.mpr fun hv => htrusts (hvalid.mp hv)
    rw [if_neg htrusts, hinvalid]
    rfl

/-- A realm without an event operates. -/
theorem empty_realm_operates : ∃ report s,
    verifyRealmIntegrity plainHost (ofLedger Ledger.empty) { remoteEvidenceHeads := [] } = .ok report
      ∧ Ledger.empty.current_authority_state = some s
      ∧ (lifecycleOf (some report) {}).state =
        if ∀ trust ∈ s.federationTrusts, trust.Contradicted [] = false then .DEGRADED
        else if ({} : LifecycleOptions).recoveryValidated then .RECOVERING else .SUSPENDED :=
  reachable_operates plainHost Ledger.empty [] {} .empty

end SimpleL1.Realm.Deployment
