import SimpleL1.Node.Payments

/-!
# Runs of external proofs

The replay key of an external proof stands for its source domain, its type and
its reference, so these are recorded once. The ids of the four artifacts come from
the caller or from other parts of the input: an artifact stays in runs that give
its id to no other one.
-/

namespace SimpleL1.Node

open SimpleL1.Js SimpleL1.Lib SimpleL1.Lib.Effect

/-! ## What a proof states -/

/-- The parts of a proof input as the code reads them. -/
structure Statement where
  sourceDomain : String
  proofType : String
  referenceId : String
  observedAt : Json
  confirmations : Number

/-- The `external_reference` of an input. -/
def referenceOf (input : Fields) : Json := orElse (input.get "external_reference") (.obj [])

/-- The input states `f`. -/
structure States (p : Platform) (input : Fields) (now : Number) (f : Statement) : Prop where
  sourceDomain : strOrEmpty (input.get "source_domain") = .ok f.sourceDomain
  proofType : strOrEmpty (input.get "proof_type") = .ok f.proofType
  referenceId : strOrEmpty (or ((referenceOf input).prop "id") (input.get "external_reference_id")) =
    .ok f.referenceId
  complete : (f.sourceDomain ≠ "" && f.proofType ≠ "" && f.referenceId ≠ "") = true
  observedAt : orNow p (input.get "observed_at") now = .ok f.observedAt
  confirmations : toNumber (nullish (input.get "confirmations") (some (.num (.int 0)))) =
    .ok f.confirmations

section
variable (p : Platform) (ledger : Ledger) (input : Fields) (now : Number) (f : Statement)

def replayKeyOf : String :=
  hashObject p (.obj [("source_domain", .str f.sourceDomain), ("proof_type", .str f.proofType),
    ("external_reference_id", .str f.referenceId)])

def isReplayed (key : String) : Bool :=
  (ledger.keyStores .external_proof_replay_keys).any fun used =>
    strictEq (some used) (some (.str key))

def externalReferenceOf : Json :=
  .obj ((spread (some (referenceOf input))).set "id" (.str f.referenceId))

def payloadOfProof : Json :=
  orElse (input.get "normalized_payload") (orElse (input.get "payload") (.obj []))

def verificationPathIdOf : Json :=
  orArtifactId p (input.get "verification_path_id") "vpath"
    (.obj [("sourceDomain", .str f.sourceDomain), ("proofType", .str f.proofType),
      ("externalReference", externalReferenceOf input f), ("observedAt", f.observedAt)]) 20

/-- The id of the finality claim; the proof type is no part of it. -/
def finalityClaimIdOf : Json :=
  orArtifactId p (input.get "finality_claim_id") "finality"
    (.obj [("sourceDomain", .str f.sourceDomain),
      ("externalReference", externalReferenceOf input f), ("observedAt", f.observedAt)]) 20

def normalizedFactIdOf : Json :=
  orArtifactId p (input.get "normalized_fact_id") "fact"
    (.obj [("sourceDomain", .str f.sourceDomain), ("proofType", .str f.proofType),
      ("externalReference", externalReferenceOf input f), ("payload", payloadOfProof input)]) 24

/-- The artifacts of an input that states `f`. -/
def artifactsOf : ExternalProof where
  verificationPath := [("id", verificationPathIdOf p input f), ("object_type", .str "VerificationPath"),
    ("source_domain", .str f.sourceDomain), ("proof_type", .str f.proofType),
    ("verifier", orElse (input.get "verifier") (.str "dev-adapter")),
    ("steps", orElse (input.get "verification_steps") (.arr [])),
    ("verified_at", orElse (input.get "verified_at") f.observedAt)]
  finalityClaim := [("id", finalityClaimIdOf p input f), ("object_type", .str "FinalityClaim"),
    ("source_domain", .str f.sourceDomain), ("external_reference_id", .str f.referenceId),
    ("finality", orElse (input.get "finality") (.str "accepted")),
    ("confirmations", .num f.confirmations),
    ("challenge_window_ends_at", orNull (input.get "challenge_window_ends_at")),
    ("claimed_at", orElse (input.get "claimed_at") f.observedAt)]
  normalizedFact := [("id", normalizedFactIdOf p input f), ("object_type", .str "NormalizedFact"),
    ("source_domain", .str f.sourceDomain),
    ("fact_type", orElse (input.get "fact_type") (.str f.proofType)),
    ("external_reference_id", .str f.referenceId), ("payload", payloadOfProof input),
    ("observed_at", f.observedAt)]
  externalProof := [
    ("id", orArtifactId p (input.get "id") "xproof"
      (.obj [("sourceDomain", .str f.sourceDomain), ("proofType", .str f.proofType),
        ("externalReference", externalReferenceOf input f), ("replayKey", .str (replayKeyOf p f))]) 24),
    ("object_type", .str "ExternalProof"), ("source_domain", .str f.sourceDomain),
    ("proof_type", .str f.proofType), ("external_reference", externalReferenceOf input f),
    ("verification_path_id", verificationPathIdOf p input f),
    ("finality_claim_id", finalityClaimIdOf p input f),
    ("normalized_fact_id", normalizedFactIdOf p input f), ("replay_key", .str (replayKeyOf p f)),
    ("status", orElse (input.get "status") (.str "verified")), ("observed_at", f.observedAt),
    ("proof_hash", .str (hashObject p (orElse (input.get "proof_payload")
      (orElse (input.get "payload") (externalReferenceOf input f)))))]
  replayKey := .str (replayKeyOf p f)

/-- The caller does not ask for a duplicate. -/
def NoDuplicate : Prop := strictEq (input.get "allow_duplicate") (some (.bool true)) = false

/-- The ledger after the artifacts were recorded. -/
def proven (x : ExternalProof) : Ledger :=
  ((((ledger.setStore .verification_paths
        (upsert "id" x.verificationPath (fun _ => x.verificationPath)
          (ledger.stores .verification_paths))).setStore
      .finality_claims (upsert "id" x.finalityClaim (fun _ => x.finalityClaim)
        (ledger.stores .finality_claims))).setStore
    .normalized_facts (upsert "id" x.normalizedFact (fun _ => x.normalizedFact)
      (ledger.stores .normalized_facts))).setStore
  .external_proofs (upsert "id" x.externalProof (fun _ => x.externalProof)
    (ledger.stores .external_proofs))).setKeys
  .external_proof_replay_keys (ledger.keyStores .external_proof_replay_keys ++ [x.replayKey])

end

section
variable {p : Platform} {ledger : Ledger} {input : Fields} {now : Number}

theorem externalProofOf_eq_ok {x : ExternalProof} (hdup : NoDuplicate input) :
    externalProofOf p ledger input now = .ok x ↔
      ∃ f, States p input now f ∧ isReplayed ledger (replayKeyOf p f) = false ∧
        x = artifactsOf p input f := by
  unfold externalProofOf
  rw [show strictEq (input.get "allow_duplicate") (some (.bool true)) = false from hdup]
  simp only [bind_eq_ok, throwUnless_eq_ok, Bool.or_false, Bool.not_eq_true', exists_const]
  constructor
  · rintro ⟨sourceDomain, hsource, proofType, htype, referenceId, href, hcomplete, observedAt,
      hobserved, hnew, confirmations, hconf, hx⟩
    cases hx
    exact ⟨⟨sourceDomain, proofType, referenceId, observedAt, confirmations⟩,
      ⟨hsource, htype, href, hcomplete, hobserved, hconf⟩, hnew, rfl⟩
  · rintro ⟨f, h, hnew, rfl⟩
    exact ⟨f.sourceDomain, h.sourceDomain, f.proofType, h.proofType, f.referenceId, h.referenceId,
      h.complete, f.observedAt, h.observedAt, hnew, f.confirmations, h.confirmations, rfl⟩

theorem createExternalProof_eq :
    createExternalProof p input now ledger =
      match externalProofOf p ledger input now with
      | .error e => .error e ledger
      | .ok x => .ok x (proven ledger x) := by
  cases h : externalProofOf p ledger input now with
  | error e =>
    have hread : reading (fun ledger => externalProofOf p ledger input now) ledger =
        .error e ledger := lift_eq_error.mpr ⟨h, rfl⟩
    exact bind_of_error hread
  | ok x =>
    have hread : reading (fun ledger => externalProofOf p ledger input now) ledger = .ok x ledger :=
      lift_eq_ok.mpr ⟨h, rfl⟩
    unfold createExternalProof
    rw [bind_of_ok hread]
    rfl

@[simp] theorem proven_paths (x : ExternalProof) : (proven ledger x).stores .verification_paths =
    upsert "id" x.verificationPath (fun _ => x.verificationPath)
      (ledger.stores .verification_paths) := by
  simp [proven, Ledger.setStore, Ledger.setKeys]

@[simp] theorem proven_claims (x : ExternalProof) : (proven ledger x).stores .finality_claims =
    upsert "id" x.finalityClaim (fun _ => x.finalityClaim) (ledger.stores .finality_claims) := by
  simp [proven, Ledger.setStore, Ledger.setKeys]

@[simp] theorem proven_facts (x : ExternalProof) : (proven ledger x).stores .normalized_facts =
    upsert "id" x.normalizedFact (fun _ => x.normalizedFact) (ledger.stores .normalized_facts) := by
  simp [proven, Ledger.setStore, Ledger.setKeys]

@[simp] theorem proven_proofs (x : ExternalProof) : (proven ledger x).stores .external_proofs =
    upsert "id" x.externalProof (fun _ => x.externalProof) (ledger.stores .external_proofs) := by
  simp [proven, Ledger.setStore, Ledger.setKeys]

@[simp] theorem proven_keys (x : ExternalProof) :
    (proven ledger x).keyStores .external_proof_replay_keys =
      ledger.keyStores .external_proof_replay_keys ++ [x.replayKey] := by
  simp [proven, Ledger.setStore, Ledger.setKeys]

end

/-! ## Runs -/

/-- The artifacts of a call that does not throw. -/
def proofs (p : Platform) (ledger : Ledger) (call : Call) : List ExternalProof :=
  match externalProofOf p ledger call.input call.now with
  | .ok x => [x]
  | .error _ => []

def prove (p : Platform) (ledger : Ledger) (call : Call) : Ledger :=
  after (createExternalProof p call.input call.now) ledger

/-- The runs of proof calls from `l₀`, with the artifacts of those that do not throw. -/
abbrev ProofRun (p : Platform) (ok : List ExternalProof → Ledger → Call → Prop) (l₀ : Ledger) :
    List ExternalProof → Ledger → Prop :=
  Trace (prove p) (proofs p) ok l₀

/-- Source domain, proof type and external reference id. -/
def ExternalProof.source (x : ExternalProof) : Option Json × Option Json × Option Json :=
  (x.externalProof.get "source_domain", x.externalProof.get "proof_type",
    (x.externalProof.get "external_reference").bind (·.prop "id"))

/-- No source was recorded twice, and the artifacts that were returned are stored. -/
structure FactsKept (history : List ExternalProof) (ledger : Ledger) : Prop where
  sources : history.Pairwise fun x y => x.source ≠ y.source
  paths : ∀ x ∈ history, x.verificationPath ∈ ledger.stores .verification_paths
  claims : ∀ x ∈ history, x.finalityClaim ∈ ledger.stores .finality_claims
  facts : ∀ x ∈ history, x.normalizedFact ∈ ledger.stores .normalized_facts
  proofs : ∀ x ∈ history, x.externalProof ∈ ledger.stores .external_proofs

/-- The call asks for no duplicate, and when its replay key is new, its artifacts take no id of
another artifact of the run. -/
structure ArtifactsApart (p : Platform) (history : List ExternalProof) (ledger : Ledger)
    (call : Call) : Prop where
  noDuplicate : NoDuplicate call.input
  ids : ∀ f, States p call.input call.now f → isReplayed ledger (replayKeyOf p f) = false →
    let x := artifactsOf p call.input f
    IdsApart (·.verificationPath) history x.verificationPath ∧
    IdsApart (·.finalityClaim) history x.finalityClaim ∧
    IdsApart (·.normalizedFact) history x.normalizedFact ∧
    IdsApart (·.externalProof) history x.externalProof

/-- Every recorded proof has the replay key of its source, and the key is stored. -/
def KeysStored (p : Platform) (history : List ExternalProof) (ledger : Ledger) : Prop :=
  ∀ x ∈ history, ∃ f, x.source = (some (.str f.sourceDomain), some (.str f.proofType),
      some (.str f.referenceId)) ∧
    .str (replayKeyOf p f) ∈ ledger.keyStores .external_proof_replay_keys

section
variable {p : Platform} {ledger : Ledger} {call : Call} {history : List ExternalProof}

theorem prove_eq : prove p ledger call =
    match externalProofOf p ledger call.input call.now with
    | .ok x => proven ledger x
    | .error _ => ledger := by
  unfold prove
  rw [after, createExternalProof_eq]
  cases externalProofOf p ledger call.input call.now <;> rfl

/-- A call that throws leaves the ledger as it was. -/
theorem prove_thrown (h : Throws (createExternalProof p call.input call.now) ledger) :
    prove p ledger call = ledger := by
  rw [prove_eq]
  obtain ⟨e, l, h⟩ := h
  rw [createExternalProof_eq] at h
  cases hx : externalProofOf p ledger call.input call.now with
  | error e => rfl
  | ok x => rw [hx] at h; cases h

theorem source_artifactsOf (input : Fields) (f : Statement) :
    (artifactsOf p input f).source =
      (some (.str f.sourceDomain), some (.str f.proofType), some (.str f.referenceId)) := by
  simp [ExternalProof.source, artifactsOf, externalReferenceOf, Fields.get_set]

theorem replayKeyOf_congr {f f' : Statement} {s : Option Json × Option Json × Option Json}
    (h : s = (some (.str f.sourceDomain), some (.str f.proofType), some (.str f.referenceId)))
    (h' : s = (some (.str f'.sourceDomain), some (.str f'.proofType), some (.str f'.referenceId))) :
    replayKeyOf p f = replayKeyOf p f' := by
  rw [h] at h'
  simp only [Prod.mk.injEq, Option.some.injEq, Json.str.injEq] at h'
  unfold replayKeyOf
  rw [h'.1, h'.2.1, h'.2.2]

theorem isReplayed_of_mem {key : String}
    (h : .str key ∈ ledger.keyStores .external_proof_replay_keys) : isReplayed ledger key = true :=
  List.any_eq_true.mpr ⟨_, h, by simp⟩

theorem factsKept_prove (h : FactsKept history ledger) (hkeys : KeysStored p history ledger)
    (hapart : ArtifactsApart p history ledger call) :
    FactsKept (history ++ proofs p ledger call) (prove p ledger call) ∧
      KeysStored p (history ++ proofs p ledger call) (prove p ledger call) := by
  cases hx : externalProofOf p ledger call.input call.now with
  | error e =>
    rw [prove_eq, proofs, hx, List.append_nil]
    exact ⟨h, hkeys⟩
  | ok x =>
    obtain ⟨f, hf, hnew, rfl⟩ := (externalProofOf_eq_ok hapart.noDuplicate).mp hx
    obtain ⟨hpath, hclaim, hfact, hproof⟩ := hapart.ids f hf hnew
    rw [prove_eq, proofs, hx]
    refine ⟨⟨pairwise_snoc h.sources fun x hx hsource => ?_, ?_, ?_, ?_, ?_⟩, ?_⟩
    · obtain ⟨f', hf', hmem⟩ := hkeys x hx
      rw [source_artifactsOf] at hsource
      rw [replayKeyOf_congr hsource hf', isReplayed_of_mem hmem] at hnew
      cases hnew
    · rw [proven_paths, upsert_eq_put]
      exact kept_put ExternalProof.verificationPath h.paths hpath
    · rw [proven_claims, upsert_eq_put]
      exact kept_put ExternalProof.finalityClaim h.claims hclaim
    · rw [proven_facts, upsert_eq_put]
      exact kept_put ExternalProof.normalizedFact h.facts hfact
    · rw [proven_proofs, upsert_eq_put]
      exact kept_put ExternalProof.externalProof h.proofs hproof
    · intro x hx
      rw [proven_keys]
      rcases List.mem_append.mp hx with hold | hnew
      · obtain ⟨f', hf', hmem⟩ := hkeys x hold
        exact ⟨f', hf', List.mem_append_left _ hmem⟩
      · rw [List.mem_singleton.mp hnew]
        exact ⟨f, source_artifactsOf _ f, List.mem_append_right _ (List.mem_singleton_self _)⟩

end

/-- A payment event of the given proof type with its number of confirmations. -/
def paymentEvent (proofType : String) (confirmations : Int) : Call where
  input := [("source_domain", .str "psp"), ("proof_type", .str proofType),
    ("external_reference", .obj [("id", .str "evt_1")]), ("confirmations", .num (.int confirmations))]
  now := .int 0

def paymentStatement (proofType : String) (confirmations : Int) : Statement :=
  ⟨"psp", proofType, "evt_1", .str (plainPlatform.isoDate 0), .int confirmations⟩

theorem proofs_of_states {p : Platform} (ledger : Ledger) {call : Call} {f : Statement}
    (hf : States p call.input call.now f) (hdup : NoDuplicate call.input)
    (hnew : isReplayed ledger (replayKeyOf p f) = false) :
    proofs p ledger call = [artifactsOf p call.input f] ∧
      prove p ledger call = proven ledger (artifactsOf p call.input f) := by
  have hx := (externalProofOf_eq_ok hdup).mpr ⟨f, hf, hnew, rfl⟩
  exact ⟨by rw [proofs, hx], by rw [prove_eq, hx]⟩

/-- Proofs of two types about one reference at one time give their finality claims one id. -/
theorem sameId_finalityClaim {p : Platform} {input input' : Fields} {f f' : Statement}
    (hid : input.get "finality_claim_id" = none) (hid' : input'.get "finality_claim_id" = none)
    (hdomain : f.sourceDomain = f'.sourceDomain) (htime : f.observedAt = f'.observedAt)
    (href : externalReferenceOf input f = externalReferenceOf input' f') :
    sameId (artifactsOf p input f).finalityClaim (artifactsOf p input' f').finalityClaim = true := by
  simp [sameId, artifactsOf, finalityClaimIdOf, orArtifactId, orElse, hid, hid', hdomain, htime, href]

end SimpleL1.Node
