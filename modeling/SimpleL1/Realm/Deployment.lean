import SimpleL1.Lib.Effect
import SimpleL1.Node.Platform
import SimpleL1.Realm.Integrity

/-!
# Deploying a runtime

A runtime is activated on a ledger when its migration check leaves the log alone, when the
conformance gate derives the same anchors from the log with it as with the current runtime, and
when the ledger itself passes the integrity checks. What a runtime reads out of the log is any
value at all, so the checks see the live projection as JSON here.
-/

namespace SimpleL1.Realm.Deployment

open SimpleL1.Js SimpleL1.Lib.Effect

/-- The part of a ledger that the checks read. -/
structure InterpretedLedger where
  event_log : List Json
  current_authority_state : Option Json

/-- The live projection, when it is an object. -/
def InterpretedLedger.live (ledger : InterpretedLedger) : Option Json :=
  ledger.current_authority_state.filter Json.isObject

def hashOf (host : Host) (projection : Json) : String := host.sha256 (canonicalEncode projection)

/-! ## Integrity -/

def verifyProjectionReplayIntegrity (host : Host) (ledger : InterpretedLedger) :
    JsM (CheckResult × Option String) := do
  if (verifyEventHistoryIntegrity host ledger.event_log).failure.isSome then
    return (.fail "PROJECTION_REPLAY_OK" "EVENT_CHAIN_BROKEN" "EVENT_CHAIN_BROKEN", none)
  else
    let replayed ← AuthorityState.codec.encode <$> buildCurrentAuthorityState host ledger.event_log
    let replayProjectionHash := hashOf host replayed
    let liveProjectionHash := hashOf host (ledger.live.getD replayed)
    if replayProjectionHash ≠ liveProjectionHash then
      return (.fail "PROJECTION_REPLAY_OK" "PROJECTION_REPLAY_MISMATCH" "PROJECTION_REPLAY_MISMATCH",
        some replayProjectionHash)
    else return (.pass "PROJECTION_REPLAY_OK", some replayProjectionHash)

/-- What the loop over `projection.federationTrusts || []` runs through. -/
def federationTrusts (projection : Json) : JsM (List Json) :=
  match or (projection.prop "federationTrusts") (some (.arr [])) with
  | some (.arr trusts) => return trusts
  | some (.str s) => return s.toList.map fun c => .str (String.ofList [c])
  | some (.obj fs) =>
    if strictEq (Fields.get fs "length") (some (.num (.int 0))) then return []
    else throw (.typeError "federationTrusts is not iterable")
  | _ => throw (.typeError "federationTrusts is not iterable")

/-- One round of the loop: whether the trust passes. -/
def verifyFederationTrust (eventLog : List Json) (remoteEvidenceHeads : Fields) (trust : Json) :
    JsM Bool := do
  let establishedEvent ← Node.member (some trust) "establishedEvent"
  let establishedEventId := orNull (or establishedEvent (trust.prop "established_event"))
  let remoteEventHead := orNull (or (trust.prop "remoteEventHead") (trust.prop "remote_event_head"))
  let realmId := orNull (or (trust.prop "realmId") (trust.prop "remote_realm_id"))
  if !establishedEventId.truthy then return false
  else
    match ← federationTrustEventFor eventLog establishedEventId with
    | none => return false
    | some establishingEvent =>
      let payloadHead := orNull ((establishingEvent.prop "payload").bind (·.prop "remote_event_head"))
      if remoteEventHead.truthy && payloadHead.truthy && headsDiffer remoteEventHead payloadHead then
        return false
      else if realmId.truthy then
        let key ← toStr (some realmId)
        return !(remoteEventHead.truthy && evidenceHeadDiffers remoteEvidenceHeads key remoteEventHead)
      else return true

def verifyFederationTrusts (eventLog : List Json) (remoteEvidenceHeads : Fields) :
    List Json → JsM CheckResult
  | [] => return .pass "FEDERATION_REFERENCES_OK"
  | trust :: trusts => do
    if ← verifyFederationTrust eventLog remoteEvidenceHeads trust then
      verifyFederationTrusts eventLog remoteEvidenceHeads trusts
    else return federationInvalid

def verifyFederationReferences (ledger : InterpretedLedger) (remoteEvidenceHeads : Fields) :
    JsM CheckResult := do
  let projection := orNull (or ledger.current_authority_state (some (.obj [])))
  verifyFederationTrusts ledger.event_log remoteEvidenceHeads (← federationTrusts projection)

def summarizeSection (checks : List Check) : String :=
  if checks.any (·.status = .fail) then "fail"
  else if checks.any (·.status = .warning) then "warning"
  else if checks.all (·.status = .skip) then "skip"
  else "ok"

structure IntegrityReport extends RealmIntegrity where
  canonical : Fields
  derived : Fields
  operational : Fields

def verifyRealmIntegrity (host : Host) (ledger : InterpretedLedger) (options : IntegrityOptions := {}) :
    JsM IntegrityReport := do
  let realm : Ledger := ⟨ledger.event_log, none, none⟩
  let history := verifyEventHistoryIntegrity host ledger.event_log
  let (projection, replayProjectionHash) ← verifyProjectionReplayIntegrity host ledger
  let snapshot := verifySnapshotIntegrity host options.snapshot realm
  let federation ← verifyFederationReferences ledger options.remoteEvidenceHeads
  let commandLineage ← verifyCommandExecutionBoundary options.executionRecords realm
  let results := [history, projection, snapshot, federation, commandLineage]
  let section_ (r : CheckResult) : Json := .str (summarizeSection [r.check])
  let historyHead ← if history.failure.isNone then latestRealmEventHash ledger.event_log
    else pure Json.null
  return {
    history_head := historyHead
    projection_hash := replayProjectionHash
    checks := results.map CheckResult.check
    failures := results.filterMap CheckResult.failure
    warnings := results.filterMap CheckResult.warning
    canonical := [("history", section_ history), ("projection_replay", section_ projection)]
    derived := [("snapshot", section_ snapshot)]
    operational := [("federation_references", section_ federation),
      ("command_lineage", section_ commandLineage)] }

/-! ## Lifecycle -/

inductive LifecycleState where
  | BOOTSTRAPPING
  | DEGRADED
  | RECOVERING
  | SUSPENDED
  | VERIFIED
  deriving DecidableEq, Repr

def LifecycleState.text : LifecycleState → String
  | BOOTSTRAPPING => "BOOTSTRAPPING"
  | DEGRADED => "DEGRADED"
  | RECOVERING => "RECOVERING"
  | SUSPENDED => "SUSPENDED"
  | VERIFIED => "VERIFIED"

def canAcceptCommands (state : LifecycleState) : Bool :=
  state = .VERIFIED || state = .DEGRADED || state = .RECOVERING

def canAcceptAuthorityMutations (state : LifecycleState) : Bool :=
  state = .VERIFIED || state = .DEGRADED || state = .RECOVERING

structure Lifecycle where
  state : LifecycleState
  can_accept_commands : Bool
  can_accept_authority_mutations : Bool
  can_run_diagnostics : Bool
  explanation : String

def hasText (fs : Fields) (text : String) : Bool :=
  fs.any fun f => strictEq (some f.2) (some (.str text))

def hasCanonicalFailure (report : IntegrityReport) : Bool :=
  !report.realm_valid || strictEq (Fields.get report.canonical "history") (some (.str "fail"))
    || strictEq (Fields.get report.canonical "projection_replay") (some (.str "fail"))

def hasDerivedOrOperationalWarning (report : IntegrityReport) : Bool :=
  !report.warnings.isEmpty || hasText report.derived "warning" || hasText report.operational "warning"

def lifecycleExplanation (report : IntegrityReport) : LifecycleState → String
  | .BOOTSTRAPPING =>
    "Realm has no integrity report yet; only loading, replay, and diagnostics are allowed."
  | .VERIFIED => "Realm integrity is valid and no operational warnings are present."
  | .DEGRADED => "Realm canonical integrity is valid, but derived or operational warnings are present."
  | .SUSPENDED =>
    let failures := ", ".intercalate report.failures
    "Realm cannot prove canonical integrity: " ++ (if failures = "" then "unknown failure" else failures)
      ++ "."
  | .RECOVERING =>
    "Realm is operating under validated recovery evidence; recovery transitions still require the normal validator path."

/-- The state after a report, without evidence of a recovery. -/
def deriveRealmLifecycleState (report : IntegrityReport) : Lifecycle :=
  let state : LifecycleState :=
    if hasCanonicalFailure report then .SUSPENDED
    else if hasDerivedOrOperationalWarning report then .DEGRADED
    else .VERIFIED
  { state
    can_accept_commands := canAcceptCommands state
    can_accept_authority_mutations := canAcceptAuthorityMutations state
    can_run_diagnostics := true
    explanation := lifecycleExplanation report state }

/-! ## Explanations -/

/-- `event.k || envelope.k`, where an event without an envelope has `null` for one. -/
def orEnvelope (event : Json) (envelope : Option Json) (k : String) : JsM (Option Json) :=
  if truthy (event.prop k) then return event.prop k
  else Node.member (some (envelope.getD .null)) k

def traceEntry (event : Json) : JsM Json := do
  let envelope ← Projection.eventEnvelope event
  let type ← orEnvelope event envelope "type"
  let sequence ← match event.prop "sequence" with
    | none | some .null => Node.member (some (envelope.getD .null)) "sequence"
    | some v => pure (some v)
  let sequence ← toNumber sequence
  let signer ← orEnvelope event envelope "signer"
  let authority_reference ← orEnvelope event envelope "authority_reference"
  return .obj [("event_id", orNull (acceptedEventId event)), ("type", orNull type), ("sequence", .num sequence),
    ("signer", orNull signer), ("authority_reference", orNull authority_reference),
    ("previous_event_hash", (event.prop "previous_event_hash").getD .null),
    ("current_event_hash", (event.prop "current_event_hash").getD .null)]

def buildEventTrace (host : Host) (eventLog : List Json) : JsM (List Json) := do
  let _ ← verifyRealmEventHistory host eventLog
  let events ← filter isCanonicalRealmEvent eventLog
  events.mapM traceEntry

/-- The projection that is explained: the live one, else that of replay. -/
def verifiedProjection (host : Host) (ledger : InterpretedLedger) : JsM Json := do
  let _ ← verifyRealmEventHistory host ledger.event_log
  match ledger.live with
  | some projection => return projection
  | none => AuthorityState.codec.encode <$> buildCurrentAuthorityState host ledger.event_log

structure Explanation where
  current_authority : Json
  status : Json
  derived_from : List Json
  projection_hash : String
  history_head : Json
  last_sequence : Json
  summary : String

def explainCurrentAuthorityState (host : Host) (ledger : InterpretedLedger) : JsM Explanation := do
  let projection ← verifiedProjection host ledger
  let historyHead ← latestRealmEventHash ledger.event_log
  let derivedFrom ← buildEventTrace host ledger.event_log
  let root := projection.prop "rootAuthority"
  let name := or (root.bind (·.prop "authorityRef")) (root.bind (·.prop "id"))
  let status := root.bind (·.prop "status")
  let summary ← if truthy root then do
      let nameText ← toStr name
      let statusText ← toStr status
      pure ("Root authority " ++ nameText ++ " is " ++ statusText ++ " across "
        ++ Number.toString (.int derivedFrom.length) ++ " accepted Realm events.")
    else pure "No root authority has been accepted into Realm history."
  return {
    current_authority := orNull name
    status := orNull status
    derived_from := derivedFrom
    projection_hash := hashOf host projection
    history_head := historyHead
    last_sequence := (or (projection.prop "lastSequence") (some (.num (.int 0)))).getD .null
    summary }

/-! ## Runtimes -/

/-- Code that runs on the event log, which it can write. -/
abbrev DeploymentM := EStateM Error (List Json)

/-- Gets a copy of the ledger, and leaves it in some state with a result. -/
abbrev MigrationCheck := InterpretedLedger → DeploymentM (InterpretedLedger × Option Json)

structure Runtime where
  interpret : Option (DeploymentM (Option Json)) := none
  migrationCheck : Option MigrationCheck := none
  migration_check : Option MigrationCheck := none
  migrations : Option Json := none
  migration_plan : Option Json := none
  version : Option Json := none
  runtime_version : Option Json := none

def defaultInterpret (host : Host) : DeploymentM (Option Json) := do
  let state ← reading (buildCurrentAuthorityState host)
  return some (AuthorityState.codec.encode state)

def Runtime.interpreter (host : Host) (r : Runtime) : DeploymentM (Option Json) :=
  r.interpret.getD (defaultInterpret host)

def bytes (eventLog : List Json) : String := canonicalEncode (.arr eventLog)

/-! ## Conformance -/

def CONFORMANCE_ANCHOR_KEYS : List String :=
  ["history_head", "projection_hash", "realm_valid", "lifecycle_state", "lifecycle_can_accept_commands",
    "lifecycle_can_accept_authority_mutations", "explanation_current_authority", "explanation_status",
    "explanation_history_head", "explanation_projection_hash", "attestation_anchor_fingerprint"]

def hashJson (hash : Option String) : Json := (hash.map Json.str).getD .null

def attestationAnchorFingerprint (report : IntegrityReport) (explanation : Explanation) : String :=
  canonicalEncode (.obj [("history_head", report.history_head),
    ("projection_hash", hashJson report.projection_hash), ("realm_valid", .bool report.realm_valid),
    ("canonical", .obj report.canonical), ("explanation_history_head", explanation.history_head),
    ("explanation_projection_hash", .str explanation.projection_hash)])

def deriveConformanceAnchors (host : Host) (runtime : Runtime) : DeploymentM Fields := do
  let _ ← reading (verifyRealmEventHistory host)
  let projection ← runtime.interpreter host
  let ledger : InterpretedLedger := ⟨← get, projection⟩
  let report ← liftM (verifyRealmIntegrity host ledger)
  let lifecycle := deriveRealmLifecycleState report
  let explanation ← liftM (explainCurrentAuthorityState host ledger)
  return [("history_head", report.history_head), ("projection_hash", hashJson report.projection_hash),
    ("realm_valid", .bool report.realm_valid), ("lifecycle_state", .str lifecycle.state.text),
    ("lifecycle_can_accept_commands", .bool lifecycle.can_accept_commands),
    ("lifecycle_can_accept_authority_mutations", .bool lifecycle.can_accept_authority_mutations),
    ("explanation_current_authority", explanation.current_authority),
    ("explanation_status", explanation.status), ("explanation_history_head", explanation.history_head),
    ("explanation_projection_hash", .str explanation.projection_hash),
    ("attestation_anchor_fingerprint", .str (attestationAnchorFingerprint report explanation))]

structure Mismatch where
  anchor : String
  pre : Option Json
  post : Option Json

def diffAnchors (pre post : Fields) : List Mismatch :=
  (CONFORMANCE_ANCHOR_KEYS.filter fun key =>
    (pre.get key).map canonicalEncode ≠ (post.get key).map canonicalEncode).map fun key =>
      ⟨key, pre.get key, post.get key⟩

inductive ConformanceFailure where
  | historyVerificationFailed (error : String)
  | historyMutated (pre_runtime post_runtime : Json)
  | conformanceFailed (pre_runtime post_runtime : Json) (mismatches : List Mismatch)
      (pre_anchors post_anchors : Fields)

structure Conformance where
  pre_runtime : Json
  post_runtime : Json
  anchors : Fields

/-- Catches what is thrown; what was written stays written. -/
def attempt {α : Type} (m : DeploymentM α) : DeploymentM (Except Error α) := fun log =>
  match m log with
  | .ok a log' => .ok (.ok a) log'
  | .error e log' => .ok (.error e) log'

/-- `runtime.version || name`. -/
def Runtime.named (r : Runtime) (name : String) : Json := orNull (or r.version (some (.str name)))

def runProtocolConformanceGate (host : Host) (preRuntime postRuntime : Runtime) :
    DeploymentM (Except ConformanceFailure Conformance) := do
  let bytesBefore := bytes (← get)
  let anchors ← attempt do
    let preAnchors ← deriveConformanceAnchors host preRuntime
    let postAnchors ← deriveConformanceAnchors host postRuntime
    return (preAnchors, postAnchors)
  match anchors with
  | .error e => return .error (.historyVerificationFailed (normalizeErrorCode e))
  | .ok (preAnchors, postAnchors) =>
    if bytesBefore ≠ bytes (← get) then
      return .error (.historyMutated (preRuntime.named "pre") (postRuntime.named "post"))
    else if diffAnchors preAnchors postAnchors ≠ [] then
      return .error (.conformanceFailed (preRuntime.named "pre") (postRuntime.named "post")
        (diffAnchors preAnchors postAnchors) preAnchors postAnchors)
    else return .ok ⟨preRuntime.named "pre", postRuntime.named "post", preAnchors⟩

/-! ## Activation -/

inductive Refusal where
  | migrationCheckRequired (migrations : List Json)
  | historyMutationForbidden (stage : String)
  | migrationCheckFailed (migration_result : Json)
  | protocolConformanceFailed (conformance : ConformanceFailure)
  | integrityVerificationFailed (integrity : IntegrityReport) (lifecycle : Lifecycle)
  | lifecycleActivationDenied (integrity : IntegrityReport) (lifecycle : Lifecycle)

def Refusal.code : Refusal → String
  | migrationCheckRequired _ => "DEPLOYMENT_MIGRATION_CHECK_REQUIRED"
  | historyMutationForbidden _ => "DEPLOYMENT_HISTORY_MUTATION_FORBIDDEN"
  | migrationCheckFailed _ => "DEPLOYMENT_MIGRATION_CHECK_FAILED"
  | protocolConformanceFailed _ => "DEPLOYMENT_PROTOCOL_CONFORMANCE_FAILED"
  | integrityVerificationFailed .. => "DEPLOYMENT_INTEGRITY_VERIFICATION_FAILED"
  | lifecycleActivationDenied .. => "DEPLOYMENT_LIFECYCLE_ACTIVATION_DENIED"

inductive Migration where
  | notRequired
  | checked (migration_result : Json)

def clone (ledger : InterpretedLedger) : InterpretedLedger :=
  ⟨ledger.event_log.map Json.written, ledger.current_authority_state.map Json.written⟩

def migrationCheckFor (candidateRuntime : Runtime) : Option MigrationCheck :=
  candidateRuntime.migrationCheck.or candidateRuntime.migration_check

def declaredMigrations (candidateRuntime : Runtime) : List Json :=
  match candidateRuntime.migrations, candidateRuntime.migration_plan with
  | some (.arr migrations), _ => migrations
  | _, some (.arr migrations) => migrations
  | _, _ => []

def runMigrationCheck (live : Option Json) (candidateRuntime : Runtime) :
    DeploymentM (Except Refusal Migration) := do
  match migrationCheckFor candidateRuntime with
  | none =>
    if (declaredMigrations candidateRuntime).isEmpty then return .ok .notRequired
    else return .error (.migrationCheckRequired (declaredMigrations candidateRuntime))
  | some migrationCheck =>
    let migrationLedger := clone ⟨← get, live⟩
    let (checked, result) ← migrationCheck migrationLedger
    if bytes checked.event_log ≠ bytes migrationLedger.event_log then
      return .error (.historyMutationForbidden "migration_check")
    else if strictEq (result.bind (·.prop "ok")) (some (.bool true)) then
      return .ok (.checked (orNull result))
    else return .error (.migrationCheckFailed (orNull result))

structure DeploymentOptions where
  currentRuntime : Option Runtime := none
  preRuntime : Option Runtime := none
  integrityOptions : IntegrityOptions := {}

def DeploymentOptions.current (options : DeploymentOptions) : Runtime :=
  (options.currentRuntime.or options.preRuntime).getD { version := some (.str "current") }

structure Activation where
  active_runtime_version : String
  previous_runtime_version : String
  migration : Migration
  conformance : Conformance
  integrity : IntegrityReport
  lifecycle : Lifecycle

/-- `String(runtime.version || runtime.runtime_version || name)` -/
def Runtime.versionText (r : Runtime) (name : String) : JsM String :=
  toStr (or (or r.version r.runtime_version) (some (.str name)))

/-- `live` is the ledger's `current_authority_state`; its `event_log` is the state. -/
def activateRuntimeDeployment (host : Host) (live : Option Json) (candidateRuntime : Runtime)
    (options : DeploymentOptions) : DeploymentM (Except Refusal Activation) := do
  let bytesBefore := bytes (← get)
  match ← runMigrationCheck live candidateRuntime with
  | .error refusal => return .error refusal
  | .ok migration =>
    if bytes (← get) ≠ bytesBefore then
      return .error (.historyMutationForbidden "migration_check")
    else match ← runProtocolConformanceGate host options.current candidateRuntime with
    | .error failure => return .error (.protocolConformanceFailed failure)
    | .ok conformance =>
      if bytes (← get) ≠ bytesBefore then
        return .error (.historyMutationForbidden "protocol_conformance")
      else
        let integrity ← reading fun log => verifyRealmIntegrity host ⟨log, live⟩ options.integrityOptions
        let lifecycle := deriveRealmLifecycleState integrity
        if !integrity.realm_valid then return .error (.integrityVerificationFailed integrity lifecycle)
        else if !canAcceptCommands lifecycle.state then
          return .error (.lifecycleActivationDenied integrity lifecycle)
        else
          let active_runtime_version ← liftM (candidateRuntime.versionText "candidate")
          let previous_runtime_version ← liftM (options.current.versionText "current")
          return .ok ⟨active_runtime_version, previous_runtime_version, migration, conformance,
            integrity, lifecycle⟩

end SimpleL1.Realm.Deployment
