import SimpleL1.Node.Grants

/-!
# Policy decisions, external proofs and settlements

A policy result is recorded as an evaluation and a decision, an external proof
as four artifacts and a replay key. A settlement needs a valid authorization, a
verified proof and an allowing decision, and records a transaction, an operation
and a proof of their lineage.
-/

namespace SimpleL1.Node

open SimpleL1.Js SimpleL1.Lib.Effect

/-! ## Policy artifacts -/

/-- `result?.k`. -/
def optional (result : Option Json) (k : String) : Option Json := result.bind (·.prop k)

def normalizePolicyDecision (p : Platform) (result : Option Json) : JsM String :=
  if truthy (optional result "decision") then p.lower <$> toStr (optional result "decision")
  else if strictEq (optional result "ok") (some (.bool true)) then return "allow"
  else if truthy (optional result "requires_more_evidence") then return "require_more_evidence"
  else if truthy (optional result "requires_more_authorization") then
    return "require_more_authorization"
  else return "deny"

/-- `s.replace(/[^A-Z0-9]+/g, '_')` and its lower-case cousin: a run of other characters becomes
one `mark`. -/
def replaceRuns (keep : Char → Bool) (mark : Char) : List Char → List Char
  | [] => []
  | c :: cs =>
    if keep c then c :: replaceRuns keep mark cs
    else
      match cs with
      | [] => [mark]
      | d :: ds =>
        if keep d then mark :: replaceRuns keep mark (d :: ds) else replaceRuns keep mark (d :: ds)

def reasonCodesFromResult (p : Platform) (result : Option Json) : JsM Json := do
  match optional result "reason_codes" with
  | some (.arr codes) => return .arr codes
  | _ =>
    if truthy (optional result "rule") then do
      let rule ← toStr (optional result "rule")
      return .arr [.str ("POLICY_RULE_" ++ p.upper rule ++ "_FAILED")]
    else if truthy (optional result "reason") then do
      let reason ← toStr (optional result "reason")
      return .arr [.str (String.ofList
        (replaceRuns (fun c => c.isUpper || c.isDigit) '_' (p.upper reason).toList))]
    else if strictEq (optional result "ok") (some (.bool true)) then return .arr [.str "POLICY_ALLOW"]
    else return .arr [.str "POLICY_DENY"]

/-- The evaluation and the decision `recordPolicyArtifacts` writes. -/
def policyArtifacts (p : Platform) (input result : Option Json) (now : Number) :
    JsM (Fields × Fields) := do
  let intent_type ← member input "intent_type"
  let intentType ← strOrEmpty (or intent_type (optional input "intentType"))
  throwUnless (intentType ≠ "") (.error "intent_type is required")
  let facts := orElse (optional input "facts")
    (.obj [("intent", orElse (optional input "intent") (.obj [])),
      ("context", orElse (optional input "context") (.obj []))])
  let evaluatedAt ← orNow p (optional input "evaluated_at") now
  let facts_hash := hashObject p facts
  let policy_version := orElse (optional input "policy_version") (.str "runtime-policy-v1")
  let evaluationId := orArtifactId p (optional input "evaluation_id") "peval"
    (.obj [("intent_type", .str intentType), ("facts_hash", .str facts_hash),
      ("policy_version", policy_version), ("evaluated_at", evaluatedAt)]) 24
  let decision ← normalizePolicyDecision p result
  let reason_codes ← reasonCodesFromResult p result
  let decisionBasis : Json := .obj [("policy_evaluation_id", evaluationId),
    ("decision", .str decision), ("reason_codes", reason_codes)]
  return ([("id", evaluationId), ("object_type", .str "PolicyEvaluation"),
      ("intent_type", .str intentType), ("facts", facts), ("facts_hash", .str facts_hash),
      ("input_hash", .str (hashObject p (.obj [("intent_type", .str intentType), ("facts", facts)]))),
      ("policy_version", policy_version), ("evaluated_at", evaluatedAt),
      ("rules_evaluated", orElse (optional result "policies_evaluated")
        (orElse (optional result "rules_evaluated") (.num (.int 0))))],
    [("id", orArtifactId p (optional input "decision_id") "pdec" decisionBasis 24),
      ("object_type", .str "PolicyDecision"), ("policy_evaluation_id", evaluationId),
      ("decision", .str decision), ("reason_codes", reason_codes),
      ("result", orElse result (.obj [])),
      ("decided_at", orElse (optional input "decided_at") evaluatedAt)])

def recordPolicyArtifacts (p : Platform) (input result : Option Json) (now : Number) :
    LedgerM Unit := do
  let (evaluation, decision) ← policyArtifacts p input result now
  upsertById .policy_evaluations evaluation
  upsertById .policy_decisions decision

/-! ## External proofs -/

/-- The four artifacts of an external proof and its replay key. -/
structure ExternalProof where
  verificationPath : Fields
  finalityClaim : Fields
  normalizedFact : Fields
  externalProof : Fields
  replayKey : Json

def externalProofOf (p : Platform) (ledger : Ledger) (input : Fields) (now : Number) :
    JsM ExternalProof := do
  let sourceDomain ← strOrEmpty (input.get "source_domain")
  let proofType ← strOrEmpty (input.get "proof_type")
  let reference := orElse (input.get "external_reference") (.obj [])
  let referenceId ← strOrEmpty (or (reference.prop "id") (input.get "external_reference_id"))
  throwUnless (sourceDomain ≠ "" && proofType ≠ "" && referenceId ≠ "")
    (.error "source_domain, proof_type and external_reference.id are required")
  let externalReference : Json := .obj ((spread (some reference)).set "id" (.str referenceId))
  let observedAt ← orNow p (input.get "observed_at") now
  let replayKey := hashObject p (.obj [("source_domain", .str sourceDomain),
    ("proof_type", .str proofType), ("external_reference_id", .str referenceId)])
  let replayed := (ledger.keyStores .external_proof_replay_keys).any fun key =>
    strictEq (some key) (some (.str replayKey))
  throwUnless (!replayed || strictEq (input.get "allow_duplicate") (some (.bool true)))
    (.error "ExternalProof replay detected")
  let confirmations ← toNumber (nullish (input.get "confirmations") (some (.num (.int 0))))
  let payload := orElse (input.get "normalized_payload") (orElse (input.get "payload") (.obj []))
  let domain : String × Json := ("sourceDomain", .str sourceDomain)
  let type : String × Json := ("proofType", .str proofType)
  let about : String × Json := ("externalReference", externalReference)
  let pathId := orArtifactId p (input.get "verification_path_id") "vpath"
    (.obj [domain, type, about, ("observedAt", observedAt)]) 20
  let finalityId := orArtifactId p (input.get "finality_claim_id") "finality"
    (.obj [domain, about, ("observedAt", observedAt)]) 20
  let factId := orArtifactId p (input.get "normalized_fact_id") "fact"
    (.obj [domain, type, about, ("payload", payload)]) 24
  return {
    verificationPath := [("id", pathId), ("object_type", .str "VerificationPath"),
      ("source_domain", .str sourceDomain), ("proof_type", .str proofType),
      ("verifier", orElse (input.get "verifier") (.str "dev-adapter")),
      ("steps", orElse (input.get "verification_steps") (.arr [])),
      ("verified_at", orElse (input.get "verified_at") observedAt)]
    finalityClaim := [("id", finalityId), ("object_type", .str "FinalityClaim"),
      ("source_domain", .str sourceDomain), ("external_reference_id", .str referenceId),
      ("finality", orElse (input.get "finality") (.str "accepted")),
      ("confirmations", .num confirmations),
      ("challenge_window_ends_at", orNull (input.get "challenge_window_ends_at")),
      ("claimed_at", orElse (input.get "claimed_at") observedAt)]
    normalizedFact := [("id", factId), ("object_type", .str "NormalizedFact"),
      ("source_domain", .str sourceDomain),
      ("fact_type", orElse (input.get "fact_type") (.str proofType)),
      ("external_reference_id", .str referenceId), ("payload", payload), ("observed_at", observedAt)]
    externalProof := [
      ("id", orArtifactId p (input.get "id") "xproof"
        (.obj [domain, type, about, ("replayKey", .str replayKey)]) 24),
      ("object_type", .str "ExternalProof"), ("source_domain", .str sourceDomain),
      ("proof_type", .str proofType), ("external_reference", externalReference),
      ("verification_path_id", pathId), ("finality_claim_id", finalityId),
      ("normalized_fact_id", factId), ("replay_key", .str replayKey),
      ("status", orElse (input.get "status") (.str "verified")), ("observed_at", observedAt),
      ("proof_hash", .str (hashObject p (orElse (input.get "proof_payload")
        (orElse (input.get "payload") externalReference))))]
    replayKey := .str replayKey }

def createExternalProof (p : Platform) (input : Fields) (now : Number) : LedgerM ExternalProof := do
  let proof ← reading fun ledger => externalProofOf p ledger input now
  upsertById .verification_paths proof.verificationPath
  upsertById .finality_claims proof.finalityClaim
  upsertById .normalized_facts proof.normalizedFact
  upsertById .external_proofs proof.externalProof
  pushKey .external_proof_replay_keys proof.replayKey
  return proof

/-- `verifyExternalProof`: the proof with its fact, else the reason why it does not hold. -/
def verifyExternalProof (ledger : Ledger) (proofOrId : Option Json) : Except String (Json × Fields) :=
  let proof := match proofOrId with
    | some (.str id) => (findById (ledger.stores .external_proofs) (some (.str id))).map Json.obj
    | v => if truthy v then v else none
  match proof with
  | none => .error "EXTERNAL_PROOF_NOT_FOUND"
  | some proof =>
    if !strictEq (proof.prop "status") (some (.str "verified")) then
      .error "EXTERNAL_PROOF_NOT_VERIFIED"
    else
      match findByRef (ledger.stores .normalized_facts) (proof.prop "normalized_fact_id"),
        findByRef (ledger.stores .verification_paths) (proof.prop "verification_path_id"),
        findByRef (ledger.stores .finality_claims) (proof.prop "finality_claim_id") with
      | some fact, some _, some _ => .ok (proof, fact)
      | _, _, _ => .error "EXTERNAL_PROOF_LINEAGE_INCOMPLETE"

/-! ## Settlements -/

/-- The artifacts a settlement writes. -/
structure Settlement where
  transaction : Fields
  settlementOperation : Fields
  settlementProof : Fields
  idempotencyKey : Json

/-- What `executeMarketplaceSettlement` checks and records: the settlement, or the reasons why it is
refused. -/
def settlementOf (p : Platform) (ledger : Ledger) (input : Fields) (now : Number) :
    JsM (Except String Settlement) := do
  match ← verifyAuthorization p ledger
      (or (input.get "authorization_id") (input.get "authorization")) now with
  | .error reason => return .error reason
  | .ok authorization =>
    match verifyExternalProof ledger
        (or (input.get "external_proof_id") (input.get "externalProof")) with
    | .error reason => return .error reason
    | .ok (proof, fact) =>
      match findById (ledger.stores .policy_decisions) (authorization.prop "policy_decision_id") with
      | none => return .error "POLICY_DECISION_NOT_ALLOW"
      | some policyDecision =>
        let allows := strictEq (policyDecision.get "decision") (some (.str "allow"))
        let idempotencyKey := orElse (input.get "idempotency_key")
          (.str (hashObject p (.obj (Fields.ofOptions [
            ("purchase_intent_id", input.get "purchase_intent_id"),
            ("external_proof_id", proof.prop "id"), ("authorization_id", authorization.prop "id")]))))
        let replayed := (ledger.keyStores .settlement_idempotency_keys).any fun key =>
          strictEq (some key) (some idempotencyKey)
        if !allows then return .error "POLICY_DECISION_NOT_ALLOW"
        else if replayed then return .error "SETTLEMENT_REPLAY_DETECTED"
        else
          let executed_at ← orNow p (input.get "executed_at") now
          let applied_at ← orNow p (input.get "applied_at") now
          let matched ← arrayOrEmpty (authorization.prop "matched_grants")
            "(authorization.matched_grants || []).some"
          let transactionId := orArtifactId p (input.get "transaction_id") "tx"
            (.obj (Fields.ofOptions [("idempotencyKey", some idempotencyKey),
              ("authorization_id", authorization.prop "id")])) 24
          let operationId := orArtifactId p (input.get "settlement_operation_id") "settle"
            (.obj [("idempotencyKey", idempotencyKey), ("transaction_id", transactionId)]) 24
          let lineage : Json := .obj (Fields.ofOptions [
            ("facts", some (.arr [(fact.get "id").getD .null])),
            ("policy_evaluation_id", policyDecision.get "policy_evaluation_id"),
            ("policy_decision_id", policyDecision.get "id"),
            ("capability_ids", some (.arr
              ((authorization.prop "capability_id").toList.filter Json.truthy))),
            ("control_grant_ids", some (.arr matched)),
            ("authorization_id", authorization.prop "id"), ("transaction_id", some transactionId),
            ("settlement_operation_id", some operationId)])
          let issued_at ← orNow p (input.get "issued_at") now
          return .ok {
            transaction := Fields.ofOptions [("id", some transactionId),
              ("object_type", some (.str "Transaction")),
              ("transaction_type", some (orElse (input.get "transaction_type")
                (.str "marketplace.fulfill_order"))),
              ("authorization_id", authorization.prop "id"), ("external_proof_id", proof.prop "id"),
              ("policy_decision_id", policyDecision.get "id"),
              ("payload", some (orElse (input.get "payload") (.obj []))),
              ("executed_at", some executed_at)]
            settlementOperation := [("id", operationId), ("object_type", .str "SettlementOperation"),
              ("transaction_id", transactionId),
              ("operation_type", orElse (input.get "operation_type")
                (.str "marketplace.fulfillment_recorded")),
              ("idempotency_key", idempotencyKey), ("applied_at", applied_at)]
            settlementProof := [
              ("id", orArtifactId p (input.get "settlement_proof_id") "sproof" lineage 24),
              ("object_type", .str "SettlementProof"), ("settlement_operation_id", operationId),
              ("transaction_id", transactionId), ("lineage", lineage),
              ("proof_hash", .str (hashObject p lineage)), ("issued_at", issued_at)]
            idempotencyKey }

/-- The settlement is recorded, or refused with its reason code. -/
def executeMarketplaceSettlement (p : Platform) (input : Fields) (now : Number) :
    LedgerM (Except String Settlement) := do
  match ← reading fun ledger => settlementOf p ledger input now with
  | .error reason => return .error reason
  | .ok settlement =>
    upsertById .transactions settlement.transaction
    upsertById .settlement_operations settlement.settlementOperation
    upsertById .settlement_proofs settlement.settlementProof
    pushKey .settlement_idempotency_keys settlement.idempotencyKey
    return .ok settlement

end SimpleL1.Node
