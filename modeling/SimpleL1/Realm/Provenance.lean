import SimpleL1.Realm.Release

/-!
# Provenance

A package can come with a provenance, which names the fingerprint of the release it is for
and is checked before the release is. It covers one release only: what is deployed with it
anywhere and at any time is one version of the runtime.
-/

namespace SimpleL1.Realm.Release

open SimpleL1.Js SimpleL1.Node SimpleL1.Lib.Effect SimpleL1.Realm.Deployment

structure ArtifactProvenance where
  source_revision : Json
  build_recipe : Json
  builder_identity : Json
  artifact_hash : Json
  release_fingerprint : Json
  supported_protocols : List Json
  supported_crypto : List Json
  supported_registry : List Json
  build_timestamp : Json
  reproducibility_proof : Json
  signature_chain : List Json

/-- `v && typeof v === 'object' ? v : null`. -/
def objectOrNull : Option Json → Json
  | some v => if v.isObject then v else .null
  | none => .null

def normalizeArtifactProvenance (provenance : Option Json) : JsM ArtifactProvenance := do
  let provenance := provenance.getD (.obj [])
  let source_revision ← trimmedOrNull (← member (some provenance) "source_revision")
  let builder_identity ← trimmedOrNull (provenance.prop "builder_identity")
  let artifact_hash ← trimmedOrNull (provenance.prop "artifact_hash")
  let release_fingerprint ← trimmedOrNull (provenance.prop "release_fingerprint")
  return {
    source_revision
    build_recipe := objectOrNull (provenance.prop "build_recipe")
    builder_identity
    artifact_hash
    release_fingerprint
    supported_protocols := arrayOr (provenance.prop "supported_protocols")
    supported_crypto := arrayOr (provenance.prop "supported_crypto")
    supported_registry := arrayOr (provenance.prop "supported_registry")
    build_timestamp := orNull (provenance.prop "build_timestamp")
    reproducibility_proof := orNull (provenance.prop "reproducibility_proof")
    signature_chain := arrayOr (provenance.prop "signature_chain") }

def ArtifactProvenance.toJson (p : ArtifactProvenance) : Json :=
  .obj [("source_revision", p.source_revision), ("build_recipe", p.build_recipe),
    ("builder_identity", p.builder_identity), ("artifact_hash", p.artifact_hash),
    ("release_fingerprint", p.release_fingerprint), ("supported_protocols", .arr p.supported_protocols),
    ("supported_crypto", .arr p.supported_crypto), ("supported_registry", .arr p.supported_registry),
    ("build_timestamp", p.build_timestamp), ("reproducibility_proof", p.reproducibility_proof),
    ("signature_chain", .arr p.signature_chain)]

def provenanceFingerprintMaterial (provenance : Option Json) : JsM Json := do
  let normalized ← normalizeArtifactProvenance provenance
  return .obj [("source_revision", normalized.source_revision), ("build_recipe", normalized.build_recipe),
    ("builder_identity", normalized.builder_identity), ("artifact_hash", normalized.artifact_hash),
    ("release_fingerprint", normalized.release_fingerprint),
    ("supported_protocols", .arr normalized.supported_protocols),
    ("supported_crypto", .arr normalized.supported_crypto),
    ("supported_registry", .arr normalized.supported_registry),
    ("reproducibility_proof", normalized.reproducibility_proof)]

def computeProvenanceFingerprint (host : Host) (provenance : Option Json) : JsM String := do
  return host.sha256 (canonicalEncode (← provenanceFingerprintMaterial provenance))

inductive ProvenanceFailure where
  | sourceRevisionRequired
  | buildRecipeRequired
  | builderIdentityRequired
  | artifactHashRequired
  | releaseFingerprintRequired
  | artifactHashMismatch (provenance_artifact_hash : Json) (release_artifact_hash : String)
  | releaseFingerprintMismatch (provenance_release_fingerprint : Json) (release_fingerprint : String)

def ProvenanceFailure.code : ProvenanceFailure → String
  | sourceRevisionRequired => "PROVENANCE_SOURCE_REVISION_REQUIRED"
  | buildRecipeRequired => "PROVENANCE_BUILD_RECIPE_REQUIRED"
  | builderIdentityRequired => "PROVENANCE_BUILDER_IDENTITY_REQUIRED"
  | artifactHashRequired => "PROVENANCE_ARTIFACT_HASH_REQUIRED"
  | releaseFingerprintRequired => "PROVENANCE_RELEASE_FINGERPRINT_REQUIRED"
  | artifactHashMismatch .. => "PROVENANCE_ARTIFACT_HASH_MISMATCH"
  | releaseFingerprintMismatch .. => "PROVENANCE_RELEASE_FINGERPRINT_MISMATCH"

structure ValidProvenance where
  provenance : ArtifactProvenance
  provenance_fingerprint : String

def validateArtifactProvenance (host : Host) (provenance releaseManifest : Option Json) :
    JsM (Except ProvenanceFailure ValidProvenance) := do
  let normalized ← normalizeArtifactProvenance provenance
  if !normalized.source_revision.truthy then return .error .sourceRevisionRequired
  else if !normalized.build_recipe.truthy then return .error .buildRecipeRequired
  else if !normalized.builder_identity.truthy then return .error .builderIdentityRequired
  else if !normalized.artifact_hash.truthy then return .error .artifactHashRequired
  else if !normalized.release_fingerprint.truthy then return .error .releaseFingerprintRequired
  else
    let runtime_artifact_hash ← member (some (releaseManifest.getD (.obj []))) "runtime_artifact_hash"
    let releaseArtifactHash := trim (← strOrEmpty runtime_artifact_hash)
    if releaseArtifactHash ≠ "" &&
        !strictEq (some normalized.artifact_hash) (some (.str releaseArtifactHash)) then
      return .error (.artifactHashMismatch normalized.artifact_hash releaseArtifactHash)
    else
      let releaseFingerprint ← computeReleaseFingerprint host releaseManifest
      if !strictEq (some normalized.release_fingerprint) (some (.str releaseFingerprint)) then
        return .error (.releaseFingerprintMismatch normalized.release_fingerprint releaseFingerprint)
      else return .ok ⟨normalized, ← computeProvenanceFingerprint host (some normalized.toJson)⟩

/-- What is known of where the runtime of a package comes from. -/
inductive RuntimeTrust where
  | unverified
  | validated (trust_level : String) (provenance_fingerprint : String)

def assessRuntimeTrust (host : Host) (releasePackage : ReleasePackage) :
    JsM (Except ProvenanceFailure RuntimeTrust) := do
  let manifest ← releasePackage.manifest
  let provenance := or (releasePackage.data.prop "provenance") none
  if !truthy provenance then return .ok .unverified
  else
    match ← validateArtifactProvenance host provenance manifest with
    | .error failure => return .error failure
    | .ok validation =>
      let trust_level :=
        if validation.provenance.reproducibility_proof.truthy then "reproducible" else "provenanced"
      return .ok (.validated trust_level validation.provenance_fingerprint)

structure ProvenancedActivation where
  deployment : Activation
  runtime_trust : RuntimeTrust

/-- Why a release with provenance is not deployed. -/
inductive Distrusted where
  | provenance (failure : ProvenanceFailure)
  | denied (denied : Denied) (runtime_trust : RuntimeTrust)

def submitProvenancedReleaseForDeployment (host : Host) (live : Option Json) (releasePackage : ReleasePackage)
    (options : DeploymentOptions) : DeploymentM (Except Distrusted ProvenancedActivation) := do
  match ← liftM (assessRuntimeTrust host releasePackage) with
  | .error failure => return .error (.provenance failure)
  | .ok trust =>
    match ← submitReleaseForDeployment host live releasePackage options with
    | .error denied => return .error (.denied denied trust)
    | .ok deployment => return .ok ⟨deployment, trust⟩

/-! ## Releases with provenance -/

/-- A provenance is validated for a manifest just with the fingerprint of that manifest. -/
theorem validateArtifactProvenance_ok {host : Host} {provenance releaseManifest : Option Json}
    {v : ValidProvenance}
    (h : validateArtifactProvenance host provenance releaseManifest = .ok (.ok v)) :
    ∃ p fingerprint, normalizeArtifactProvenance provenance = .ok p
      ∧ computeReleaseFingerprint host releaseManifest = .ok fingerprint
      ∧ p.release_fingerprint = .str fingerprint := by
  obtain ⟨p, hp, h⟩ := bind_eq_ok.mp h
  dsimp only at h
  split at h
  · cases h
  split at h
  · cases h
  split at h
  · cases h
  split at h
  · cases h
  split at h
  · cases h
  obtain ⟨_, -, h⟩ := bind_eq_ok.mp h
  obtain ⟨_, -, h⟩ := bind_eq_ok.mp h
  split at h
  · cases h
  obtain ⟨fingerprint, hfingerprint, h⟩ := bind_eq_ok.mp h
  split at h
  · cases h
  · next hsame =>
    rw [Bool.not_eq_true', Bool.not_eq_false] at hsame
    exact ⟨p, fingerprint, hp, hfingerprint, Option.some.inj (strictEq_str_iff.mp hsame)⟩

/-- One provenance is for one release: the manifests it is validated for have the same material. -/
theorem provenance_binds_release {host : Host} (hcf : host.CollisionFree) {provenance m m' : Option Json}
    {v v' : ValidProvenance} (h : validateArtifactProvenance host provenance m = .ok (.ok v))
    (h' : validateArtifactProvenance host provenance m' = .ok (.ok v')) :
    ∃ material material', fingerprintMaterial m = .ok material ∧ fingerprintMaterial m' = .ok material'
      ∧ Json.Same material.written material'.written := by
  obtain ⟨p, fingerprint, hp, hfingerprint, hsame⟩ := validateArtifactProvenance_ok h
  obtain ⟨p', fingerprint', hp', hfingerprint', hsame'⟩ := validateArtifactProvenance_ok h'
  cases hp.symm.trans hp'
  cases hsame.symm.trans hsame'
  obtain ⟨material, hmaterial, hhash⟩ := bind_eq_ok.mp hfingerprint
  obtain ⟨material', hmaterial', hhash'⟩ := bind_eq_ok.mp hfingerprint'
  cases hhash
  rw [pure_eq_ok, Except.ok.injEq] at hhash'
  exact ⟨material, material', hmaterial, hmaterial', canonicalEncode_eq_iff.mp (hcf hhash'.symm)⟩

/-- The provenance a package comes with. -/
def ReleasePackage.provenance (releasePackage : ReleasePackage) : Option Json :=
  releasePackage.data.prop "provenance"

/-- What is deployed with a provenance was validated for it. -/
theorem provenanced_ok {host : Host} {live : Option Json} {releasePackage : ReleasePackage}
    {options : DeploymentOptions} {log log' : List Json} {a : ProvenancedActivation}
    (h : submitProvenancedReleaseForDeployment host live releasePackage options log = .ok (.ok a) log') :
    submitReleaseForDeployment host live releasePackage options log = .ok (.ok a.deployment) log'
      ∧ (truthy releasePackage.provenance = true → ∃ manifest v, releasePackage.manifest = .ok manifest
        ∧ validateArtifactProvenance host releasePackage.provenance manifest = .ok (.ok v)) := by
  obtain ⟨assessed, hassessed, h⟩ := lift_bind_eq_ok.mp h
  cases assessed with
  | error failure => cases h
  | ok trust =>
    obtain ⟨result, log1, hsubmit, h⟩ := run_bind_eq_ok.mp h
    cases result with
    | error denied => cases h
    | ok deployment =>
      cases h
      refine ⟨hsubmit, fun hprovenance => ?_⟩
      obtain ⟨manifest, hmanifest, hassessed⟩ := bind_eq_ok.mp hassessed
      have hread : or (releasePackage.data.prop "provenance") none = releasePackage.provenance :=
        or_of_truthy hprovenance none
      rw [hread] at hassessed
      dsimp only at hassessed
      rw [hprovenance, Bool.not_true, if_neg Bool.false_ne_true] at hassessed
      obtain ⟨validation, hvalidation, hassessed⟩ := bind_eq_ok.mp hassessed
      cases validation with
      | error failure => cases hassessed
      | ok v => exact ⟨manifest, v, hmanifest, hvalidation⟩

/-- The material shows the version that is deployed. -/
theorem deployed_version {host : Host} {live : Option Json} {releasePackage : ReleasePackage}
    {options : DeploymentOptions} {log log' : List Json} {a : Activation} {manifest : Option Json}
    {material : Json}
    (h : submitReleaseForDeployment host live releasePackage options log = .ok (.ok a) log')
    (hmanifest : releasePackage.manifest = .ok manifest)
    (hmaterial : fingerprintMaterial manifest = .ok material) :
    material.prop "runtime_version" = some (.str a.active_runtime_version) := by
  obtain ⟨manifest', v, candidateRuntime, hmanifest', hvalid, hcandidate, hactivate⟩ := submitRelease_ok h
  cases hmanifest.symm.trans hmanifest'
  obtain ⟨hnormalize, hdeployable⟩ := validateReleaseManifest_ok hvalid
  have hruntime := candidateRuntimeFromRelease_ok hmanifest hnormalize hcandidate
  have hversion := runtime_version_eq hnormalize hdeployable hruntime (activate_ok hactivate).2.2
  unfold fingerprintMaterial at hmaterial
  rw [hnormalize] at hmaterial
  cases hmaterial
  rw [ReleaseManifest.material, hversion]
  simp

/-- Wherever and whenever it is deployed, what comes with one provenance is one version of the runtime. -/
theorem one_provenance_one_version (host : Host) (hcf : host.CollisionFree) (live live' : Option Json)
    (releasePackage releasePackage' : ReleasePackage) (options options' : DeploymentOptions)
    (log₁ log₁' log₂ log₂' : List Json) (a a' : ProvenancedActivation)
    (h : submitProvenancedReleaseForDeployment host live releasePackage options log₁ = .ok (.ok a) log₁')
    (h' : submitProvenancedReleaseForDeployment host live' releasePackage' options' log₂ = .ok (.ok a') log₂')
    (hprovenance : truthy releasePackage.provenance = true)
    (hsame : releasePackage'.provenance = releasePackage.provenance) :
    a'.deployment.active_runtime_version = a.deployment.active_runtime_version := by
  obtain ⟨hsubmit, hvalidated⟩ := provenanced_ok h
  obtain ⟨hsubmit', hvalidated'⟩ := provenanced_ok h'
  obtain ⟨manifest, v, hmanifest, hv⟩ := hvalidated hprovenance
  obtain ⟨manifest', v', hmanifest', hv'⟩ := hvalidated' (hsame ▸ hprovenance)
  rw [hsame] at hv'
  obtain ⟨material, material', hmaterial, hmaterial', hwritten⟩ := provenance_binds_release hcf hv hv'
  have hprop := deployed_version hsubmit hmanifest hmaterial
  have hprop' := deployed_version hsubmit' hmanifest' hmaterial'
  have hread := congrArg (·.prop "runtime_version") hwritten
  simp only [Json.prop_canon, Json.prop_written, hprop, hprop', Option.map_some] at hread
  exact (Json.str.inj (Option.some.inj hread)).symm

/-! ## A release with provenance -/

section Example

def shippedMaterial : Fields :=
  [("runtime_artifact_hash", .str "a1"), ("runtime_version", .str "2.0.0"), ("protocol_version", .str "1"),
    ("registry_version", .str "1"), ("projection_version", .str "1"), ("supported_event_versions", .obj []),
    ("supported_crypto_algorithms", .arr []), ("migration_declarations", .arr []),
    ("rollback_target", .obj [("runtime_version", .str "1.0.0")])]

def shippedFingerprint : String := Deployment.plainHost.sha256 (canonicalEncode (.obj shippedMaterial))

theorem shippedManifest_fingerprint :
    computeReleaseFingerprint Deployment.plainHost (some shippedManifest) = .ok shippedFingerprint := by
  have hmaterial : fingerprintMaterial (some shippedManifest) = .ok (.obj shippedMaterial) := by rfl
  rw [computeReleaseFingerprint, hmaterial]
  rfl

/-- A digest of the plain host has nothing to trim. -/
theorem trim_shippedFingerprint : trim shippedFingerprint = shippedFingerprint := by
  have hchars : ∃ cs, shippedFingerprint.toList = '~' :: (cs ++ ['}']) := by
    have hdigest : shippedFingerprint = "~" ++ canonicalEncode (.obj shippedMaterial) := rfl
    rw [hdigest, canonicalEncode_eq, String.toList_append, String.toList_ofList, Json.canonText, Json.canon,
      Json.text]
    generalize Json.fieldTexts _ = texts
    exact ⟨'{' :: joinComma texts, by simp⟩
  obtain ⟨cs, hcs⟩ := hchars
  have hstart : ('~' :: (cs ++ ['}'])).dropWhile isWhite = '~' :: (cs ++ ['}']) :=
    List.dropWhile_cons_of_neg (by decide)
  have hend : ('}' :: (cs.reverse ++ ['~'])).dropWhile isWhite = '}' :: (cs.reverse ++ ['~']) :=
    List.dropWhile_cons_of_neg (by decide)
  have hself : trimChars shippedFingerprint.toList = shippedFingerprint.toList := by
    rw [hcs, trimChars, hstart]
    simp [hend]
  rw [trim, hself, String.ofList_toList]

def provenancedPackage : ReleasePackage where
  data := .obj [("manifest", shippedManifest), ("provenance", .obj [("source_revision", .str "r1"),
    ("build_recipe", .obj []), ("builder_identity", .str "builder"), ("artifact_hash", .str "a1"),
    ("release_fingerprint", .str shippedFingerprint)])]

theorem provenancedPackage_manifest : provenancedPackage.manifest = .ok (some shippedManifest) := by
  simp [ReleasePackage.manifest, provenancedPackage, member, shippedManifest, Js.or, truthy, Json.truthy]

theorem shippedFingerprint_read :
    trimmedOrNull (some (.str shippedFingerprint)) = .ok (.str shippedFingerprint) := by
  have hne : shippedFingerprint ≠ "" := Deployment.plainHost.sha256_ne_empty _
  have hor : or (some (Json.str shippedFingerprint)) (some (.str "")) = some (.str shippedFingerprint) :=
    or_of_truthy (by simp [hne]) _
  rw [trimmedOrNull, strOrEmpty, hor]
  simp [toStr, Json.toStr, trim_shippedFingerprint, hne]

section
variable {fs : Fields} (hrevision : fs.get "source_revision" = some (.str "r1"))
  (hrecipe : fs.get "build_recipe" = some (.obj []))
  (hbuilder : fs.get "builder_identity" = some (.str "builder"))
  (hartifact : fs.get "artifact_hash" = some (.str "a1"))
  (hfingerprint : fs.get "release_fingerprint" = some (.str shippedFingerprint))

include hrevision hbuilder hartifact hfingerprint hrecipe

theorem normalize_shipped : ∃ p, normalizeArtifactProvenance (some (.obj fs)) = .ok p
    ∧ p.source_revision = .str "r1" ∧ p.build_recipe = .obj [] ∧ p.builder_identity = .str "builder"
    ∧ p.artifact_hash = .str "a1" ∧ p.release_fingerprint = .str shippedFingerprint := by
  have hread := shippedFingerprint_read
  have hr : trimmedOrNull (some (.str "r1")) = .ok (.str "r1") := by rfl
  have hb : trimmedOrNull (some (.str "builder")) = .ok (.str "builder") := by rfl
  have ha : trimmedOrNull (some (.str "a1")) = .ok (.str "a1") := by rfl
  simp [normalizeArtifactProvenance, member, hrevision, hrecipe, hbuilder, hartifact, hfingerprint, hr, hb, ha,
    hread, objectOrNull, Json.isObject]

end

theorem provenancedPackage_validated : ∃ v, validateArtifactProvenance Deployment.plainHost
    provenancedPackage.provenance (some shippedManifest) = .ok (.ok v) := by
  obtain ⟨p, hp, hrevision, hrecipe, hbuilder, hartifact, hfingerprint⟩ :
      ∃ p, normalizeArtifactProvenance provenancedPackage.provenance = .ok p ∧ p.source_revision = .str "r1"
        ∧ p.build_recipe = .obj [] ∧ p.builder_identity = .str "builder" ∧ p.artifact_hash = .str "a1"
        ∧ p.release_fingerprint = .str shippedFingerprint := by
    refine normalize_shipped ?_ ?_ ?_ ?_ ?_ <;> simp
  obtain ⟨q, hq, -⟩ : ∃ q, normalizeArtifactProvenance (some p.toJson) = .ok q ∧ _ := by
    refine normalize_shipped ?_ ?_ ?_ ?_ ?_ <;> simp [hrevision, hrecipe, hbuilder, hartifact, hfingerprint]
  have htrim : trim "a1" = "a1" := by rfl
  have hread :
      member (some ((some shippedManifest).getD (.obj []))) "runtime_artifact_hash" = .ok (some (.str "a1")) :=
    rfl
  have hstr : strOrEmpty (some (.str "a1")) = .ok "a1" := by rfl
  have hne : shippedFingerprint ≠ "" := Deployment.plainHost.sha256_ne_empty _
  have hprovenance : computeProvenanceFingerprint Deployment.plainHost (some p.toJson) =
      .ok (Deployment.plainHost.sha256 (canonicalEncode (.obj [("source_revision", q.source_revision),
        ("build_recipe", q.build_recipe), ("builder_identity", q.builder_identity),
        ("artifact_hash", q.artifact_hash),
        ("release_fingerprint", q.release_fingerprint), ("supported_protocols", .arr q.supported_protocols),
        ("supported_crypto", .arr q.supported_crypto), ("supported_registry", .arr q.supported_registry),
        ("reproducibility_proof", q.reproducibility_proof)]))) := by
    rw [computeProvenanceFingerprint, provenanceFingerprintMaterial, hq]
    rfl
  unfold validateArtifactProvenance
  rw [hp, ok_bind, hrevision, hrecipe, hbuilder, hartifact, hfingerprint, hread, ok_bind, hstr, ok_bind, htrim,
    shippedManifest_fingerprint, ok_bind, hprovenance]
  simp [Json.truthy, hne, strictEq]

theorem provenancedPackage_trusted : ∃ trust,
    assessRuntimeTrust Deployment.plainHost provenancedPackage = .ok (.ok trust) := by
  obtain ⟨v, hv⟩ := provenancedPackage_validated
  have hprovenance : or (provenancedPackage.data.prop "provenance") none = provenancedPackage.provenance :=
    or_of_truthy (by simp [provenancedPackage, truthy, Json.truthy]) none
  have htruthy : truthy provenancedPackage.provenance = true := by
    simp [ReleasePackage.provenance, provenancedPackage, truthy, Json.truthy]
  unfold assessRuntimeTrust
  rw [provenancedPackage_manifest, ok_bind, hprovenance]
  dsimp only
  rw [htruthy, hv]
  exact ⟨_, rfl⟩

theorem provenancedPackage_deployed : ∃ a, submitProvenancedReleaseForDeployment Deployment.plainHost
    (some emptyProjection) provenancedPackage noOptions [] = .ok (.ok a) [] := by
  obtain ⟨trust, htrust⟩ := provenancedPackage_trusted
  have htrusted : (liftM (assessRuntimeTrust Deployment.plainHost provenancedPackage) :
      DeploymentM (Except ProvenanceFailure RuntimeTrust)) [] = .ok (.ok trust) [] :=
    lift_eq_ok.mpr ⟨htrust, rfl⟩
  obtain ⟨a, ha⟩ := shipped_deployed provenancedPackage_manifest rfl
  refine ⟨⟨a, trust⟩, ?_⟩
  unfold submitProvenancedReleaseForDeployment
  rw [bind_of_ok htrusted]
  dsimp only
  rw [bind_of_ok ha]
  rfl

/-- Deployed once more, it is the same version. -/
theorem shipped_release_one_version : ∃ a a' : ProvenancedActivation,
    a'.deployment.active_runtime_version = a.deployment.active_runtime_version := by
  obtain ⟨a, ha⟩ := provenancedPackage_deployed
  have hprovenance : truthy provenancedPackage.provenance = true := by
    simp [ReleasePackage.provenance, provenancedPackage, truthy, Json.truthy]
  exact ⟨a, a, one_provenance_one_version Deployment.plainHost plainHost_collisionFree _ _ _ _ _ _ _ _ _ _
    a a ha ha
    hprovenance rfl⟩

end Example

end SimpleL1.Realm.Release
