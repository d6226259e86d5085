import SimpleL1.Node.ArtifactText
import SimpleL1.Realm.Commands
import SimpleL1.Realm.Gate

/-!
# Releases

A release is deployed when its manifest names what is needed to go back, supports every
version of every type of event in the log, and carries no evidence for another manifest;
then the runtime it brings goes through activation. The fingerprint of a release leaves the evidence
out, so evidence and provenance can name the release they are for.
-/

namespace SimpleL1.Realm.Release

open SimpleL1.Js SimpleL1.Node SimpleL1.Lib.Effect SimpleL1.Realm.Deployment

/-! ## Manifests -/

/-- `String(e || '').trim() || null`. -/
def trimmedOrNull (e : Option Json) : JsM Json := do
  let s := trim (← strOrEmpty e)
  return if s = "" then .null else .str s

/-- `String(e || name)`. -/
def strOr (e : Option Json) (name : String) : JsM String := toStr (or e (some (.str name)))

/-- The array that is there, or an empty one. -/
def arrayOr : Option Json → List Json
  | some (.arr xs) => xs
  | _ => []

/-- `v && typeof v === 'object' ? { ...v } : null`. -/
def copyOrNull : Option Json → Json
  | some v => if v.isObject then .obj v.spread else .null
  | none => .null

structure ReleaseManifest where
  release_id : Json
  runtime_artifact_hash : Json
  runtime_version : Json
  protocol_version : String
  registry_version : String
  projection_version : String
  supported_event_versions : Json
  supported_crypto_algorithms : List Json
  migration_declarations : List Json
  conformance_evidence : Json
  integrity_evidence : Json
  rollback_target : Json
  approval_evidence : Json
  runtime_activated : Bool

def ReleaseManifest.toJson (m : ReleaseManifest) : Json :=
  .obj [("release_id", m.release_id), ("runtime_artifact_hash", m.runtime_artifact_hash),
    ("runtime_version", m.runtime_version), ("protocol_version", .str m.protocol_version),
    ("registry_version", .str m.registry_version), ("projection_version", .str m.projection_version),
    ("supported_event_versions", m.supported_event_versions),
    ("supported_crypto_algorithms", .arr m.supported_crypto_algorithms),
    ("migration_declarations", .arr m.migration_declarations),
    ("conformance_evidence", m.conformance_evidence), ("integrity_evidence", m.integrity_evidence),
    ("rollback_target", m.rollback_target), ("approval_evidence", m.approval_evidence),
    ("runtime_activated", .bool m.runtime_activated)]

def normalizeReleaseManifest (manifest : Option Json) : JsM ReleaseManifest := do
  let manifest := manifest.getD (.obj [])
  let release_id ← member (some manifest) "release_id"
  let runtime_artifact_hash ← trimmedOrNull (manifest.prop "runtime_artifact_hash")
  let runtime_version ← trimmedOrNull (or (manifest.prop "runtime_version") (manifest.prop "version"))
  let protocol_version ← strOr (manifest.prop "protocol_version") "1"
  let registry_version ← strOr (manifest.prop "registry_version") "1"
  let projection_version ← strOr (manifest.prop "projection_version") "1"
  return {
    release_id := orNull release_id
    runtime_artifact_hash
    runtime_version
    protocol_version
    registry_version
    projection_version
    supported_event_versions := Commands.objectOrEmpty (manifest.prop "supported_event_versions")
    supported_crypto_algorithms := arrayOr (manifest.prop "supported_crypto_algorithms")
    migration_declarations := arrayOr (manifest.prop "migration_declarations")
    conformance_evidence := orNull (manifest.prop "conformance_evidence")
    integrity_evidence := orNull (manifest.prop "integrity_evidence")
    rollback_target := copyOrNull (manifest.prop "rollback_target")
    approval_evidence := orNull (manifest.prop "approval_evidence")
    runtime_activated := strictEq (manifest.prop "runtime_activated") (some (.bool true)) }

def ReleaseManifest.material (m : ReleaseManifest) : Json :=
  .obj [("runtime_artifact_hash", m.runtime_artifact_hash), ("runtime_version", m.runtime_version),
    ("protocol_version", .str m.protocol_version), ("registry_version", .str m.registry_version),
    ("projection_version", .str m.projection_version),
    ("supported_event_versions", m.supported_event_versions),
    ("supported_crypto_algorithms", .arr m.supported_crypto_algorithms),
    ("migration_declarations", .arr m.migration_declarations), ("rollback_target", m.rollback_target)]

def fingerprintMaterial (manifest : Option Json) : JsM Json := do
  return (← normalizeReleaseManifest manifest).material

def computeReleaseFingerprint (host : Host) (manifest : Option Json) : JsM String := do
  return host.sha256 (canonicalEncode (← fingerprintMaterial manifest))

/-! ## Event versions -/

/-- `String(event.type || event.envelope?.type || '').trim()`. -/
def releaseType (event : Json) : JsM String := do
  let type ← member (some event) "type"
  return trim (← strOrEmpty (or type ((event.prop "envelope").bind (·.prop "type"))))

/-- `Number(event.version ?? event.envelope?.version ?? 1)`. -/
def releaseVersion (event : Json) : JsM Number :=
  toNumber (nullish (event.prop "version")
    (nullish ((event.prop "envelope").bind (·.prop "version")) (some (.num (.int 1)))))

/-- `a` and `b` are the same to a set. -/
def sameValueZero (a b : Json) : Bool :=
  match a, b with
  | .num m, .num n => m = n
  | a, b => strictEq (some a) (some b)

def includes (xs : List Json) (v : Json) : Bool := xs.any (sameValueZero · v)

/-- `required[type].add(version)`: a set is its members in order. -/
def addVersion (required : Fields) (type : String) (version : Number) : Fields :=
  let versions := arrayOr (required.get type)
  if includes versions (.num version) then required else required.set type (.arr (versions ++ [.num version]))

def requiredFrom (required : Fields) : List Json → JsM Fields
  | [] => return required
  | event :: eventLog => do
    let type ← releaseType event
    if type = "" then requiredFrom required eventLog
    else
      let version ← releaseVersion event
      -- the name finds an inherited function, which is no set
      if type ∈ objectPrototypeKeys then throw (.typeError "required[type].add is not a function")
      else requiredFrom (addVersion required type version) eventLog

def requiredEventVersionsFromHistory (eventLog : List Json) : JsM Fields := requiredFrom [] eventLog

inductive ReleaseFailure where
  | artifactHashRequired
  | runtimeVersionRequired
  | rollbackTargetRequired
  | conformanceEvidenceRequired
  | activationForbidden
  | protocolUnsupported (event_type : String) (required_version : Json) (supported_versions : List Json)
  | conformanceEvidenceStale (release_fingerprint : String) (evidence_fingerprint : Json)
  | rollbackTruthMutationForbidden (history_head_before history_head_after : Json)
      (projection_hash_before projection_hash_after : String)

def ReleaseFailure.code : ReleaseFailure → String
  | artifactHashRequired => "RELEASE_ARTIFACT_HASH_REQUIRED"
  | runtimeVersionRequired => "RELEASE_RUNTIME_VERSION_REQUIRED"
  | rollbackTargetRequired => "RELEASE_ROLLBACK_TARGET_REQUIRED"
  | conformanceEvidenceRequired => "RELEASE_CONFORMANCE_EVIDENCE_REQUIRED"
  | activationForbidden => "RELEASE_ACTIVATION_FORBIDDEN"
  | protocolUnsupported .. => "RELEASE_PROTOCOL_UNSUPPORTED"
  | conformanceEvidenceStale .. => "RELEASE_CONFORMANCE_EVIDENCE_STALE"
  | rollbackTruthMutationForbidden .. => "RELEASE_ROLLBACK_TRUTH_MUTATION_FORBIDDEN"

/-- `supported[eventType]`, when it is an array. -/
def supportedVersions (supported : Json) (eventType : String) : List Json :=
  arrayOr (Fields.get supported.spread eventType)

/-- The first version that is not supported. -/
def firstUnsupported (supported : Json) (required : Fields) : Option ReleaseFailure :=
  (enumerated required).findSome? fun (eventType, versions) =>
    let supportedHere := supportedVersions supported eventType
    ((arrayOr (some versions)).find? fun version => !includes supportedHere version).map fun version =>
      .protocolUnsupported eventType version supportedHere

def validateReleaseProtocolSupport (manifest : Option Json) (eventLog : List Json) :
    JsM (Option ReleaseFailure) := do
  let normalized ← normalizeReleaseManifest manifest
  let required ← requiredEventVersionsFromHistory eventLog
  return firstUnsupported normalized.supported_event_versions required

/-! ## Deployment -/

structure ValidRelease where
  manifest : ReleaseManifest
  release_fingerprint : String

/-- `manifest.rollback_target?.runtime_version`. -/
def ReleaseManifest.rollbackVersion (m : ReleaseManifest) : Option Json :=
  m.rollback_target.prop "runtime_version"

def validateReleaseManifest (host : Host) (manifest : Option Json) (eventLog : List Json) :
    JsM (Except ReleaseFailure ValidRelease) := do
  let normalized ← normalizeReleaseManifest manifest
  if !normalized.runtime_artifact_hash.truthy then return .error .artifactHashRequired
  else if !normalized.runtime_version.truthy then return .error .runtimeVersionRequired
  else if !truthy normalized.rollbackVersion then return .error .rollbackTargetRequired
  else if !normalized.conformance_evidence.truthy then return .error .conformanceEvidenceRequired
  else if normalized.runtime_activated then return .error .activationForbidden
  else
    match ← validateReleaseProtocolSupport (some normalized.toJson) eventLog with
    | some failure => return .error failure
    | none =>
      let releaseFingerprint ← computeReleaseFingerprint host (some normalized.toJson)
      let evidenceFingerprint := normalized.conformance_evidence.prop "release_fingerprint"
      if truthy evidenceFingerprint && !strictEq evidenceFingerprint (some (.str releaseFingerprint)) then
        return .error (.conformanceEvidenceStale releaseFingerprint (evidenceFingerprint.getD .null))
      else return .ok ⟨normalized, releaseFingerprint⟩

/-- A package: its data, and the code it brings. -/
structure ReleasePackage where
  data : Json
  candidate_runtime : Runtime := {}
  rollback_runtime : Option Runtime := none

/-- `releasePackage.manifest || releasePackage`. -/
def ReleasePackage.manifest (releasePackage : ReleasePackage) : JsM (Option Json) := do
  return or (← member (some releasePackage.data) "manifest") (some releasePackage.data)

def candidateRuntimeFromRelease (releasePackage : ReleasePackage) : JsM Runtime := do
  let manifest ← normalizeReleaseManifest (← releasePackage.manifest)
  return {
    version := some manifest.runtime_version
    runtime_version := some manifest.runtime_version
    migrations := some (.arr manifest.migration_declarations)
    migrationCheck := migrationCheckFor releasePackage.candidate_runtime
    interpret := releasePackage.candidate_runtime.interpret }

/-- Why a release is not deployed. -/
inductive Denied where
  | release (failure : ReleaseFailure)
  | deployment (refusal : Refusal)

/-- `activateRuntimeDeployment`, with the current runtime as the only option beside those of the checks. -/
def activate (host : Host) (live : Option Json) (runtime : Runtime) (currentRuntime : Option Runtime)
    (options : DeploymentOptions) : DeploymentM (Except Denied Activation) := do
  match ← activateRuntimeDeployment host live runtime
      { currentRuntime, integrityOptions := options.integrityOptions } with
  | .ok activation => return .ok activation
  | .error refusal => return .error (.deployment refusal)

def submitReleaseForDeployment (host : Host) (live : Option Json) (releasePackage : ReleasePackage)
    (options : DeploymentOptions) : DeploymentM (Except Denied Activation) := do
  let manifest ← liftM releasePackage.manifest
  match ← reading fun eventLog => validateReleaseManifest host manifest eventLog with
  | .error failure => return .error (.release failure)
  | .ok _ =>
    let candidateRuntime ← liftM (candidateRuntimeFromRelease releasePackage)
    activate host live candidateRuntime (options.currentRuntime.or options.preRuntime) options

/-! ## Rollback -/

structure Rollback where
  interpreter_version : Option Json
  history_head : Json
  projection_hash : String
  deployment : Activation

/-- `{ ...a, ...b }` -/
def override (a b : Runtime) : Runtime where
  interpret := b.interpret.or a.interpret
  migrationCheck := b.migrationCheck.or a.migrationCheck
  migration_check := b.migration_check.or a.migration_check
  migrations := b.migrations.or a.migrations
  migration_plan := b.migration_plan.or a.migration_plan
  version := b.version.or a.version
  runtime_version := b.runtime_version.or a.runtime_version

/-- The head of the log, and the hash of what replay makes of it. -/
def anchorsOf (host : Host) (eventLog : List Json) : JsM (Json × String) := do
  let historyHead ← latestRealmEventHash eventLog
  return (historyHead, calculateProjectionHash host (← buildCurrentAuthorityState host eventLog))

structure RollbackOptions extends DeploymentOptions where
  rollbackRuntime : Option Runtime := none
  failedRuntime : Option Runtime := none

def executeReleaseRollback (host : Host) (live : Option Json) (releasePackage : ReleasePackage)
    (options : RollbackOptions) : DeploymentM (Except Denied Rollback) := do
  let (historyHeadBefore, projectionBefore) ← reading (anchorsOf host)
  let manifest ← liftM (normalizeReleaseManifest (← liftM releasePackage.manifest))
  if !truthy manifest.rollbackVersion then return .error (.release .rollbackTargetRequired)
  else
    let target : Runtime := { version := manifest.rollbackVersion, runtime_version := manifest.rollbackVersion }
    let rollbackRuntime := override target ((releasePackage.rollback_runtime.or options.rollbackRuntime).getD {})
    match ← activate host live rollbackRuntime (options.failedRuntime.or options.currentRuntime)
        options.toDeploymentOptions with
    | .error denied => return .error denied
    | .ok deployment =>
      let (historyHeadAfter, projectionAfter) ← reading (anchorsOf host)
      if !strictEq (some historyHeadBefore) (some historyHeadAfter) || projectionBefore ≠ projectionAfter then
        return .error (.release (.rollbackTruthMutationForbidden historyHeadBefore historyHeadAfter
          projectionBefore
          projectionAfter))
      else return .ok ⟨rollbackRuntime.version, historyHeadAfter, projectionAfter, deployment⟩

/-! ## Supported histories -/

/-- The release supports the version of the event; an event without a type needs no support. -/
def EventSupported (supported event : Json) : Prop :=
  ∃ type, releaseType event = .ok type ∧ (type = "" ∨ ∃ version, releaseVersion event = .ok version
    ∧ type ∉ objectPrototypeKeys ∧ .num version ∈ supportedVersions supported type)

/-- Every version that is listed is supported. -/
def Supports (supported : Json) (required : Fields) : Prop :=
  ∀ p ∈ required, ∀ version ∈ arrayOr (some p.2), includes (supportedVersions supported p.1) version = true

theorem includes_num {xs : List Json} {n : Number} : includes xs (.num n) = true ↔ .num n ∈ xs := by
  unfold includes
  rw [List.any_eq_true]
  constructor
  · rintro ⟨x, hx, hsame⟩
    cases x with
    | num m => exact of_decide_eq_true hsame ▸ hx
    | null | bool _ | str _ | arr _ | obj _ => cases hsame
  · intro h
    exact ⟨.num n, h, decide_eq_true rfl⟩

section
variable {fs required : Fields} {k : String} {v : Json} {p : String × Json} {supported : Json}

theorem mem_set_self : (k, v) ∈ fs.set k v := by
  induction fs with
  | nil => exact List.mem_cons_self
  | cons q fs ih =>
    unfold Fields.set
    split
    · exact List.mem_cons_self
    · exact List.mem_cons_of_mem _ ih

theorem of_mem_set (h : p ∈ fs.set k v) : p ∈ fs ∨ p = (k, v) := by
  induction fs with
  | nil => exact .inr (List.mem_singleton.mp h)
  | cons q fs ih =>
    unfold Fields.set at h
    split at h
    · rcases List.mem_cons.mp h with rfl | h
      · exact .inr rfl
      · exact .inl (List.mem_cons_of_mem _ h)
    · rcases List.mem_cons.mp h with rfl | h
      · exact .inl List.mem_cons_self
      · exact (ih h).imp_left (List.mem_cons_of_mem _)

/-- Setting a field loses no more than what was in it. -/
theorem mem_set_or_get (h : p ∈ fs) : p ∈ fs.set k v ∨ p.1 = k ∧ fs.get k = some p.2 := by
  induction fs with
  | nil => exact absurd h List.not_mem_nil
  | cons q fs ih =>
    obtain ⟨k', v'⟩ := q
    unfold Fields.set
    split
    · next heq =>
      rcases List.mem_cons.mp h with rfl | h
      · exact .inr ⟨heq, by simp [heq]⟩
      · exact .inl (List.mem_cons_of_mem _ h)
    · next hne =>
      rcases List.mem_cons.mp h with rfl | h
      · exact .inl List.mem_cons_self
      · rcases ih h with h | ⟨hk, hget⟩
        · exact .inl (List.mem_cons_of_mem _ h)
        · exact .inr ⟨hk, by simp [Ne.symm hne, hget]⟩

theorem mem_of_get (h : fs.get k = some v) : (k, v) ∈ fs := by
  induction fs with
  | nil => cases h
  | cons q fs ih =>
    obtain ⟨k', v'⟩ := q
    rw [Fields.get_cons] at h
    split at h
    · next heq =>
      cases h
      exact heq ▸ List.mem_cons_self
    · exact List.mem_cons_of_mem _ (ih h)

theorem supports_addVersion {type : String} {version : Number} :
    Supports supported (addVersion required type version) ↔
      Supports supported required ∧ .num version ∈ supportedVersions supported type := by
  rw [← includes_num]
  unfold addVersion
  dsimp only
  have hget : ∀ w ∈ arrayOr (required.get type), Supports supported required →
      includes (supportedVersions supported type) w = true := by
    intro w hw h
    cases hfound : required.get type with
    | none =>
      rw [hfound] at hw
      exact absurd hw List.not_mem_nil
    | some versions =>
      rw [hfound] at hw
      exact h (type, versions) (mem_of_get hfound) w hw
  split
  · next hincluded => exact ⟨fun h => ⟨h, hget _ (includes_num.mp hincluded) h⟩, fun h => h.1⟩
  · constructor
    · intro h
      have hset := h _ mem_set_self
      refine ⟨fun p hp w hw => ?_, hset _ (List.mem_append_right _ (List.mem_singleton.mpr rfl))⟩
      rcases mem_set_or_get (k := type) (v := .arr (arrayOr (required.get type) ++ [.num version])) hp with
        hp | ⟨rfl, hfound⟩
      · exact h p hp w hw
      · rw [hfound] at hset
        exact hset w (List.mem_append_left _ hw)
    · rintro ⟨h, hversion⟩ p hp w hw
      rcases of_mem_set hp with hp | rfl
      · exact h p hp w hw
      · rcases List.mem_append.mp hw with hw | hw
        · exact hget w hw h
        · cases List.mem_singleton.mp hw
          exact hversion

theorem requiredFrom_supports {eventLog : List Json} :
    (∃ all, requiredFrom required eventLog = .ok all ∧ Supports supported all) ↔
      Supports supported required ∧ ∀ event ∈ eventLog, EventSupported supported event := by
  induction eventLog generalizing required with
  | nil =>
    constructor
    · rintro ⟨all, hall, h⟩
      cases hall
      exact ⟨h, fun _ h => absurd h List.not_mem_nil⟩
    · rintro ⟨h, -⟩
      exact ⟨required, rfl, h⟩
  | cons event eventLog ih =>
    rw [List.forall_mem_cons]
    unfold requiredFrom EventSupported
    cases htype : releaseType event with
    | error e =>
      constructor
      · rintro ⟨all, hall, -⟩
        cases hall
      · rintro ⟨-, ⟨type, hok, -⟩, -⟩
        cases hok
    | ok type =>
      rw [ok_bind]
      by_cases hempty : type = ""
      · rw [if_pos hempty, ih]
        exact ⟨fun ⟨h, hlog⟩ => ⟨h, ⟨type, rfl, .inl hempty⟩, hlog⟩, fun ⟨h, _, hlog⟩ => ⟨h, hlog⟩⟩
      · rw [if_neg hempty]
        cases hversion : releaseVersion event with
        | error e =>
          constructor
          · rintro ⟨all, hall, -⟩
            cases hall
          · rintro ⟨-, ⟨type', hok, hsupported⟩, -⟩
            cases hok
            rcases hsupported with h | ⟨version, hok, -⟩
            · exact absurd h hempty
            · cases hok
        | ok version =>
          rw [ok_bind]
          by_cases hproto : type ∈ objectPrototypeKeys
          · rw [if_pos hproto]
            constructor
            · rintro ⟨all, hall, -⟩
              cases hall
            · rintro ⟨-, ⟨type', hok, hsupported⟩, -⟩
              cases hok
              rcases hsupported with h | ⟨-, -, h, -⟩
              · exact absurd h hempty
              · exact absurd hproto h
          · rw [if_neg hproto, ih, supports_addVersion]
            constructor
            · rintro ⟨⟨h, hmem⟩, hlog⟩
              exact ⟨h, ⟨type, rfl, .inr ⟨version, rfl, hproto, hmem⟩⟩, hlog⟩
            · rintro ⟨h, ⟨type', hok, hsupported⟩, hlog⟩
              cases hok
              rcases hsupported with h | ⟨version', hok, -, hmem⟩
              · exact absurd h hempty
              · cases hok
                exact ⟨⟨h, hmem⟩, hlog⟩

theorem firstUnsupported_eq_none :
    firstUnsupported supported required = none ↔ Supports supported required := by
  unfold firstUnsupported Supports
  simp only [List.findSome?_eq_none_iff, Option.map_eq_none_iff, List.find?_eq_none,
    (perm_enumerated required).mem_iff, Bool.not_eq_true', Bool.not_eq_false]

/-- A release supports a log just when it supports each of its events. -/
theorem validateReleaseProtocolSupport_eq_none {manifest : Option Json} {eventLog : List Json} :
    validateReleaseProtocolSupport manifest eventLog = .ok none ↔ ∃ m, normalizeReleaseManifest manifest = .ok m
      ∧ ∀ event ∈ eventLog, EventSupported m.supported_event_versions event := by
  unfold validateReleaseProtocolSupport
  rw [bind_eq_ok]
  refine exists_congr fun m => and_congr_right fun _ => ?_
  have hnone : Supports m.supported_event_versions [] := fun _ h => absurd h List.not_mem_nil
  rw [bind_eq_ok]
  simp only [pure_eq_ok, Except.ok.injEq, firstUnsupported_eq_none]
  exact requiredFrom_supports.trans (and_iff_right hnone)

end

/-! ## Valid releases -/

theorem normalize_eq_ok {m : ReleaseManifest} {manifest : Option Json}
    (h : normalizeReleaseManifest manifest = .ok m) :
    trimmedOrNull
        (or ((manifest.getD (.obj [])).prop "runtime_version") ((manifest.getD (.obj [])).prop "version")) =
        .ok m.runtime_version
      ∧ m.supported_event_versions =
        Commands.objectOrEmpty ((manifest.getD (.obj [])).prop "supported_event_versions") := by
  unfold normalizeReleaseManifest at h
  obtain ⟨_, -, h⟩ := bind_eq_ok.mp h
  obtain ⟨_, -, h⟩ := bind_eq_ok.mp h
  obtain ⟨runtime_version, hversion, h⟩ := bind_eq_ok.mp h
  obtain ⟨_, -, h⟩ := bind_eq_ok.mp h
  obtain ⟨_, -, h⟩ := bind_eq_ok.mp h
  obtain ⟨_, -, h⟩ := bind_eq_ok.mp h
  cases h
  exact ⟨hversion, rfl⟩

theorem objectOrEmpty_idem (v : Option Json) :
    Commands.objectOrEmpty (some (Commands.objectOrEmpty v)) = Commands.objectOrEmpty v := by
  cases v with
  | none => rfl
  | some v => cases v <;> rfl

/-- Read again, a manifest supports the same versions. -/
theorem normalize_toJson {m n : ReleaseManifest} {manifest : Option Json}
    (hm : normalizeReleaseManifest manifest = .ok m) (hn : normalizeReleaseManifest (some m.toJson) = .ok n) :
    n.supported_event_versions = m.supported_event_versions := by
  have hprop : (Option.getD (some m.toJson) (.obj [])).prop "supported_event_versions" =
      some m.supported_event_versions := by
    simp [ReleaseManifest.toJson]
  rw [(normalize_eq_ok hn).2, hprop, (normalize_eq_ok hm).2, objectOrEmpty_idem]

/-- What a release must have to be deployed on a log. -/
structure Deployable (host : Host) (m : ReleaseManifest) (eventLog : List Json) : Prop where
  artifact : m.runtime_artifact_hash.truthy = true
  version : m.runtime_version.truthy = true
  rollback : truthy m.rollbackVersion = true
  evidence : m.conformance_evidence.truthy = true
  inactive : m.runtime_activated = false
  supports : ∀ event ∈ eventLog, EventSupported m.supported_event_versions event
  fits : ∃ fingerprint, computeReleaseFingerprint host (some m.toJson) = .ok fingerprint
    ∧ (truthy (m.conformance_evidence.prop "release_fingerprint") = true →
      m.conformance_evidence.prop "release_fingerprint" = some (.str fingerprint))

theorem validateReleaseManifest_ok {host : Host} {manifest : Option Json} {eventLog : List Json}
    {v : ValidRelease}
    (h : validateReleaseManifest host manifest eventLog = .ok (.ok v)) :
    normalizeReleaseManifest manifest = .ok v.manifest ∧ Deployable host v.manifest eventLog := by
  obtain ⟨m, hm, h⟩ := bind_eq_ok.mp h
  dsimp only at h
  split at h
  · cases h
  split at h
  · cases h
  split at h
  · cases h
  split at h
  · cases h
  split at h
  · cases h
  next hartifact hversion hrollback hevidence hactive =>
  obtain ⟨failure, hprotocol, h⟩ := bind_eq_ok.mp h
  cases failure with
  | some failure => cases h
  | none =>
    obtain ⟨n, hn, hsupports⟩ := validateReleaseProtocolSupport_eq_none.mp hprotocol
    rw [normalize_toJson hm hn] at hsupports
    obtain ⟨fingerprint, hfingerprint, h⟩ := bind_eq_ok.mp h
    split at h
    · cases h
    · next hfits =>
      cases h
      rw [Bool.and_eq_true, not_and, Bool.not_eq_true', Bool.not_eq_false] at hfits
      exact ⟨hm, by simpa using hartifact, by simpa using hversion, by simpa using hrollback,
        by simpa using hevidence, by simpa using hactive, hsupports, fingerprint, hfingerprint,
        fun htruthy => strictEq_str_iff.mp (hfits htruthy)⟩

/-! ## Deployed releases -/

section
variable {host : Host} {live : Option Json} {releasePackage : ReleasePackage} {options : DeploymentOptions}
  {log log' : List Json} {a : Activation}

theorem activate_ok {runtime : Runtime} {currentRuntime : Option Runtime}
    (h : activate host live runtime currentRuntime options log = .ok (.ok a) log') :
    bytes log' = bytes log ∧ AgreesWithLog host ⟨log', live⟩ options.integrityOptions
      ∧ runtime.versionText "candidate" = .ok a.active_runtime_version := by
  obtain ⟨result, log1, hactivate, h⟩ := run_bind_eq_ok.mp h
  cases result with
  | error refusal => cases h
  | ok activation =>
    cases h
    obtain ⟨hverified, hvalid, hversion⟩ := activation_verifies hactivate
    have hagrees := (verifyRealmIntegrity_checked hverified).2.mp (List.isEmpty_iff.mp hvalid)
    exact ⟨(activate_eq_ok hactivate).1, hagrees, hversion⟩

/-- A release that is deployed went through its own checks and through activation. -/
theorem submitRelease_ok
    (h : submitReleaseForDeployment host live releasePackage options log = .ok (.ok a) log') :
    ∃ manifest v candidateRuntime, releasePackage.manifest = .ok manifest
      ∧ validateReleaseManifest host manifest log = .ok (.ok v)
      ∧ candidateRuntimeFromRelease releasePackage = .ok candidateRuntime
      ∧ activate host live candidateRuntime (options.currentRuntime.or options.preRuntime) options log =
        .ok (.ok a) log' := by
  obtain ⟨manifest, hmanifest, h⟩ := lift_bind_eq_ok.mp h
  obtain ⟨validation, log1, hvalidation, h⟩ := run_bind_eq_ok.mp h
  obtain ⟨hvalidation, rfl⟩ := lift_eq_ok.mp hvalidation
  cases validation with
  | error failure => cases h
  | ok v =>
    obtain ⟨candidateRuntime, hcandidate, h⟩ := lift_bind_eq_ok.mp h
    exact ⟨manifest, v, candidateRuntime, hmanifest, hvalidation, hcandidate, h⟩

end

theorem trimmedOrNull_ok {e : Option Json} {v : Json} (h : trimmedOrNull e = .ok v) (hv : v.truthy = true) :
    ∃ s, v = .str s := by
  obtain ⟨s, -, h⟩ := bind_eq_ok.mp h
  cases h
  split at hv
  · cases hv
  · next hne => exact ⟨trim s, if_neg hne⟩

theorem candidateRuntimeFromRelease_ok {releasePackage : ReleasePackage} {manifest : Option Json}
    {m : ReleaseManifest} {runtime : Runtime} (hmanifest : releasePackage.manifest = .ok manifest)
    (hm : normalizeReleaseManifest manifest = .ok m)
    (h : candidateRuntimeFromRelease releasePackage = .ok runtime) :
    runtime.version = some m.runtime_version := by
  unfold candidateRuntimeFromRelease at h
  rw [hmanifest, ok_bind, hm] at h
  cases h
  rfl

/-- The version that is told is that of the manifest. -/
theorem runtime_version_eq {host : Host} {manifest : Option Json} {m : ReleaseManifest} {log : List Json}
    {runtime : Runtime} {version : String} (hm : normalizeReleaseManifest manifest = .ok m)
    (hdeployable : Deployable host m log) (hruntime : runtime.version = some m.runtime_version)
    (hversion : runtime.versionText "candidate" = .ok version) : m.runtime_version = .str version := by
  obtain ⟨s, hs⟩ := trimmedOrNull_ok (normalize_eq_ok hm).1 hdeployable.version
  have htruthy : truthy (some (.str s)) = true := hs ▸ hdeployable.version
  rw [Runtime.versionText, hruntime, hs, or_of_truthy htruthy, or_of_truthy htruthy] at hversion
  cases hversion
  exact hs

/-- A release that is deployed supports the whole log it is deployed on and names what to go back to, carries no
evidence for another one and leaves the log as it is; and the ledger agrees with its log. -/
theorem deployed_release (host : Host) (live : Option Json) (releasePackage : ReleasePackage)
    (options : DeploymentOptions) (log log' : List Json) (a : Activation)
    (h : submitReleaseForDeployment host live releasePackage options log = .ok (.ok a) log') :
    (∃ manifest m, releasePackage.manifest = .ok manifest ∧ normalizeReleaseManifest manifest = .ok m
        ∧ Deployable host m log ∧ m.runtime_version = .str a.active_runtime_version)
      ∧ bytes log' = bytes log ∧ AgreesWithLog host ⟨log', live⟩ options.integrityOptions := by
  obtain ⟨manifest, v, candidateRuntime, hmanifest, hvalid, hcandidate, hactivate⟩ := submitRelease_ok h
  obtain ⟨hnormalize, hdeployable⟩ := validateReleaseManifest_ok hvalid
  obtain ⟨hbytes, hagrees, hversion⟩ := activate_ok hactivate
  have hruntime := candidateRuntimeFromRelease_ok hmanifest hnormalize hcandidate
  exact ⟨⟨manifest, v.manifest, hmanifest, hnormalize, hdeployable,
    runtime_version_eq hnormalize hdeployable hruntime hversion⟩, hbytes, hagrees⟩

/-! ## Rollback -/

/-- A rollback that goes through leaves the log, its head and what replay makes of it as they are. -/
theorem executeReleaseRollback_ok {host : Host} {live : Option Json} {releasePackage : ReleasePackage}
    {options : RollbackOptions} {log log' : List Json} {r : Rollback}
    (h : executeReleaseRollback host live releasePackage options log = .ok (.ok r) log') :
    bytes log' = bytes log ∧ AgreesWithLog host ⟨log', live⟩ options.integrityOptions
      ∧ anchorsOf host log = .ok (r.history_head, r.projection_hash)
      ∧ anchorsOf host log' = .ok (r.history_head, r.projection_hash) := by
  obtain ⟨⟨headBefore, hashBefore⟩, log1, hbefore, hrest⟩ := run_bind_eq_ok.mp h
  obtain ⟨hbefore, rfl⟩ := lift_eq_ok.mp hbefore
  clear h
  dsimp only at hrest
  obtain ⟨manifest, -, h⟩ := lift_bind_eq_ok.mp hrest
  obtain ⟨m, -, h⟩ := lift_bind_eq_ok.mp h
  split at h
  · cases h
  · obtain ⟨result, log2, hactivate, h⟩ := run_bind_eq_ok.mp h
    cases result with
    | error denied => cases h
    | ok deployment =>
      obtain ⟨⟨headAfter, hashAfter⟩, log3, hafter, hrest⟩ := run_bind_eq_ok.mp h
      obtain ⟨hafter, rfl⟩ := lift_eq_ok.mp hafter
      dsimp only at hrest
      split at hrest
      · cases hrest
      · next hsame =>
        cases hrest
        obtain ⟨hbytes, hagrees, -⟩ := activate_ok hactivate
        simp only [Bool.or_eq_true, Bool.not_eq_true', decide_eq_true_eq, not_or, Bool.not_eq_false,
          not_not] at hsame
        obtain ⟨hhead, rfl⟩ := hsame
        cases eq_of_strictEq hhead
        exact ⟨hbytes, hagrees, hbefore, hafter⟩

/-- A release that goes through on the log, deployed or rolled back. -/
inductive Goes (host : Host) (live : Option Json) : List Json → List Json → Prop where
  | deployed {releasePackage options log log' a}
      (h : submitReleaseForDeployment host live releasePackage options log = .ok (.ok a) log') :
      Goes host live log log'
  | rolledBack {releasePackage options log log' r}
      (h : executeReleaseRollback host live releasePackage options log = .ok (.ok r) log') :
      Goes host live log log'

theorem Goes.spec {host : Host} {live : Option Json} {log log' : List Json} (h : Goes host live log log') :
    bytes log' = bytes log ∧ ∃ options, AgreesWithLog host ⟨log', live⟩ options := by
  cases h with
  | deployed h =>
    obtain ⟨_, _, _, -, -, -, hactivate⟩ := submitRelease_ok h
    obtain ⟨hbytes, hagrees, -⟩ := activate_ok hactivate
    exact ⟨hbytes, _, hagrees⟩
  | rolledBack h =>
    obtain ⟨hbytes, hagrees, -⟩ := executeReleaseRollback_ok h
    exact ⟨hbytes, _, hagrees⟩

section Example

def shippedManifest : Json :=
  .obj [("runtime_artifact_hash", .str "a1"), ("runtime_version", .str "2.0.0"),
    ("conformance_evidence", .obj [("anchors", .obj [])]),
    ("rollback_target", .obj [("runtime_version", .str "1.0.0")])]

/-- The projection of the empty log. -/
def emptyProjection : Json := AuthorityState.codec.encode emptyAuthorityState

/-- The empty log with the projection it replays to passes the integrity checks. -/
theorem emptyProjection_integrity : ∃ report,
    Deployment.verifyRealmIntegrity Deployment.plainHost ⟨[], some emptyProjection⟩ noOptions.integrityOptions =
      .ok report ∧ report.realm_valid = true
      ∧ canAcceptCommands (deriveRealmLifecycleState report).state = true := by
  have hpasses : (match Deployment.verifyRealmIntegrity Deployment.plainHost ⟨[], some emptyProjection⟩
        noOptions.integrityOptions with
      | .ok report => report.realm_valid && canAcceptCommands (deriveRealmLifecycleState report).state
      | .error _ => false) = true := by
    decide +kernel
  split at hpasses
  · next report hreport => exact ⟨report, hreport, (Bool.and_eq_true _ _).mp hpasses⟩
  · cases hpasses

/-- On the empty log, a runtime that brings no code is activated. -/
theorem codeless_activated (runtime : Runtime) {migration : Migration} {version : String}
    (hmigration : runMigrationCheck (some emptyProjection) runtime [] = .ok (.ok migration) [])
    (hinterpret : runtime.interpret = none) (hversion : runtime.versionText "candidate" = .ok version) :
    ∃ a, activate Deployment.plainHost (some emptyProjection) runtime none noOptions [] = .ok (.ok a) [] := by
  obtain ⟨anchors, hanchors⟩ := plainRuntime_anchors
  have hsame : deriveConformanceAnchors Deployment.plainHost runtime [] = .ok anchors [] := by
    rw [← hanchors]
    unfold deriveConformanceAnchors Runtime.interpreter
    rw [hinterpret]
    rfl
  obtain ⟨c, hgate⟩ := gate_of_same hanchors hsame
  obtain ⟨report, hreport, hvalid, haccepts⟩ := emptyProjection_integrity
  have hintegrity : (reading fun log =>
      Deployment.verifyRealmIntegrity Deployment.plainHost ⟨log, some emptyProjection⟩
        noOptions.integrityOptions) [] =
        .ok report [] :=
    lift_eq_ok.mpr ⟨hreport, rfl⟩
  have hactivated :
      ∃ a, activateRuntimeDeployment Deployment.plainHost (some emptyProjection) runtime noOptions [] =
      .ok (.ok a) [] := by
    unfold activateRuntimeDeployment
    rw [get_bind_apply, bind_of_ok hmigration]
    dsimp only
    rw [get_bind_apply, if_neg (not_not_intro rfl), bind_of_ok hgate]
    dsimp only
    have htrue : ¬ (!true) = true := by decide
    rw [get_bind_apply, if_neg (not_not_intro rfl), bind_of_ok hintegrity, hvalid, haccepts, if_neg htrue,
      if_neg htrue, hversion]
    exact ⟨_, rfl⟩
  obtain ⟨a, ha⟩ := hactivated
  exact ⟨a, (bind_of_ok ha).trans rfl⟩

theorem shippedManifest_valid : ∃ v,
    validateReleaseManifest Deployment.plainHost (some shippedManifest) [] = .ok (.ok v) := by
  have hvalid : ((validateReleaseManifest Deployment.plainHost (some shippedManifest) []).toOption.bind
      Except.toOption).isSome := by
    decide +kernel
  revert hvalid
  cases validateReleaseManifest Deployment.plainHost (some shippedManifest) [] with
  | error _ => intro h; cases h
  | ok validation =>
    cases validation with
    | error _ => intro h; cases h
    | ok v => exact fun _ => ⟨v, rfl⟩

def shippedRuntime : Runtime where
  version := some (.str "2.0.0")
  runtime_version := some (.str "2.0.0")
  migrations := some (.arr [])

section
variable {releasePackage : ReleasePackage} (hmanifest : releasePackage.manifest = .ok (some shippedManifest))
include hmanifest

theorem shipped_candidate (hcode : releasePackage.candidate_runtime = {}) :
    candidateRuntimeFromRelease releasePackage = .ok shippedRuntime := by
  have hartifact : trimmedOrNull (some (.str "a1")) = .ok (.str "a1") := by rfl
  have hversion : trimmedOrNull (some (.str "2.0.0")) = .ok (.str "2.0.0") := by rfl
  rw [candidateRuntimeFromRelease, hmanifest, ok_bind]
  simp [normalizeReleaseManifest, shippedManifest, member, Js.or, truthy, Json.truthy, hartifact, hversion,
    strOr, toStr, Json.toStr, arrayOr, hcode, shippedRuntime, migrationCheckFor]

theorem shipped_deployed (hcode : releasePackage.candidate_runtime = {}) :
    ∃ a, submitReleaseForDeployment Deployment.plainHost (some emptyProjection) releasePackage noOptions [] =
      .ok (.ok a) [] := by
  obtain ⟨v, hv⟩ := shippedManifest_valid
  have hread :
      (liftM releasePackage.manifest : DeploymentM (Option Json)) [] = .ok (some shippedManifest) [] :=
    lift_eq_ok.mpr ⟨hmanifest, rfl⟩
  have hvalidation : (reading fun eventLog =>
      validateReleaseManifest Deployment.plainHost (some shippedManifest) eventLog) [] = .ok (.ok v) [] :=
    lift_eq_ok.mpr ⟨hv, rfl⟩
  have hcandidate : (liftM (candidateRuntimeFromRelease releasePackage) : DeploymentM Runtime) [] =
      .ok shippedRuntime [] := lift_eq_ok.mpr ⟨shipped_candidate hmanifest hcode, rfl⟩
  obtain ⟨a, ha⟩ := codeless_activated shippedRuntime rfl rfl rfl
  refine ⟨a, ?_⟩
  unfold submitReleaseForDeployment
  rw [bind_of_ok hread, bind_of_ok hvalidation]
  dsimp only
  rw [bind_of_ok hcandidate]
  exact ha

end

def shippedPackage : ReleasePackage where
  data := .obj [("manifest", shippedManifest)]

theorem shippedPackage_manifest : shippedPackage.manifest = .ok (some shippedManifest) := by
  simp [ReleasePackage.manifest, shippedPackage, member, shippedManifest, Js.or, truthy, Json.truthy]

/-- The runtime that is gone back to. -/
def previousRuntime : Runtime where
  version := some (.str "1.0.0")
  runtime_version := some (.str "1.0.0")

theorem shippedPackage_rolledBack : ∃ r, executeReleaseRollback Deployment.plainHost (some emptyProjection)
    shippedPackage {} [] = .ok (.ok r) [] := by
  have hartifact : trimmedOrNull (some (.str "a1")) = .ok (.str "a1") := by rfl
  have hversion : trimmedOrNull (some (.str "2.0.0")) = .ok (.str "2.0.0") := by rfl
  obtain ⟨m, hm, hrollback⟩ : ∃ m, normalizeReleaseManifest (some shippedManifest) = .ok m
      ∧ m.rollbackVersion = some (.str "1.0.0") := by
    simp [normalizeReleaseManifest, shippedManifest, member, Js.or, truthy, Json.truthy, hartifact, hversion,
      strOr, toStr, Json.toStr, copyOrNull, Json.isObject, ReleaseManifest.rollbackVersion]
  have hanchors : reading (anchorsOf Deployment.plainHost) [] =
      .ok (.null, calculateProjectionHash Deployment.plainHost emptyAuthorityState) [] := rfl
  have hmanifest :
      (liftM shippedPackage.manifest : DeploymentM (Option Json)) [] = .ok (some shippedManifest) [] :=
    lift_eq_ok.mpr ⟨shippedPackage_manifest, rfl⟩
  have hnormalized : (liftM (normalizeReleaseManifest (some shippedManifest)) : DeploymentM ReleaseManifest) [] =
      .ok m [] := lift_eq_ok.mpr ⟨hm, rfl⟩
  obtain ⟨a, ha⟩ := codeless_activated previousRuntime rfl rfl rfl
  have hactivate : activate Deployment.plainHost (some emptyProjection)
      (override previousRuntime ((shippedPackage.rollback_runtime.or none).getD {}))
      ((none : Option Runtime).or none)
      {} [] = .ok (.ok a) [] := ha
  unfold executeReleaseRollback
  rw [bind_of_ok hanchors]
  dsimp only
  rw [bind_of_ok hmanifest, bind_of_ok hnormalized, hrollback, if_neg (by simp)]
  unfold previousRuntime at hactivate
  rw [bind_of_ok hactivate]
  dsimp only
  rw [bind_of_ok hanchors]
  simp [strictEq]

/-- The shipped release is deployed on the empty log. -/
theorem shipped_release_supported : ∃ a,
    (∃ manifest m, shippedPackage.manifest = .ok manifest ∧ normalizeReleaseManifest manifest = .ok m
        ∧ Deployable Deployment.plainHost m [] ∧ m.runtime_version = .str a)
      ∧ bytes [] = bytes []
      ∧ AgreesWithLog Deployment.plainHost ⟨[], some emptyProjection⟩ noOptions.integrityOptions := by
  obtain ⟨a, ha⟩ := shipped_deployed shippedPackage_manifest rfl
  exact ⟨a.active_runtime_version, deployed_release _ _ _ _ _ _ _ ha⟩

end Example

end SimpleL1.Realm.Release
