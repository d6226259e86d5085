import SimpleL1.Node.Failure

/-!
# What a settlement rests on

A settlement that is recorded has passed its checks on an authorization, a proof
and a decision: its `Grounds`. Given by id, the authorization and the proof are
stored ones; given as objects, nothing says that they are stored.
-/

namespace SimpleL1.Node

open SimpleL1.Js SimpleL1.Lib SimpleL1.Lib.Effect

/-! ## The grounds of a settlement -/

/-- What the checks of a settlement find, and the times it records. -/
structure Grounds where
  authorization : Json
  proof : Json
  fact : Fields
  policyDecision : Fields
  matched : List Json
  executed_at : Json
  applied_at : Json
  issued_at : Json

/-- The checks before the replay check pass, with `g`. -/
structure Grounded (p : Platform) (ledger : Ledger) (input : Fields) (now : Number) (g : Grounds) :
    Prop where
  authorization : verifyAuthorization p ledger
    (or (input.get "authorization_id") (input.get "authorization")) now = .ok (.ok g.authorization)
  proof : verifyExternalProof ledger
    (or (input.get "external_proof_id") (input.get "externalProof")) = .ok (g.proof, g.fact)
  policyDecision : findById (ledger.stores .policy_decisions)
    (g.authorization.prop "policy_decision_id") = some g.policyDecision
  allows : strictEq (g.policyDecision.get "decision") (some (.str "allow")) = true
  matched : arrayOrEmpty (g.authorization.prop "matched_grants")
    "(authorization.matched_grants || []).some" = .ok g.matched
  executed_at : orNow p (input.get "executed_at") now = .ok g.executed_at
  applied_at : orNow p (input.get "applied_at") now = .ok g.applied_at
  issued_at : orNow p (input.get "issued_at") now = .ok g.issued_at

section
variable (p : Platform) (ledger : Ledger) (input : Fields) (now : Number) (g : Grounds)

def idempotencyKeyOf : Json :=
  orElse (input.get "idempotency_key")
    (.str (hashObject p (.obj (Fields.ofOptions [
      ("purchase_intent_id", input.get "purchase_intent_id"),
      ("external_proof_id", g.proof.prop "id"), ("authorization_id", g.authorization.prop "id")]))))

def isUsed (key : Json) : Bool :=
  (ledger.keyStores .settlement_idempotency_keys).any fun used => strictEq (some used) (some key)

def transactionIdOf : Json :=
  orArtifactId p (input.get "transaction_id") "tx"
    (.obj (Fields.ofOptions [("idempotencyKey", some (idempotencyKeyOf p input g)),
      ("authorization_id", g.authorization.prop "id")])) 24

def operationIdOf : Json :=
  orArtifactId p (input.get "settlement_operation_id") "settle"
    (.obj [("idempotencyKey", idempotencyKeyOf p input g),
      ("transaction_id", transactionIdOf p input g)]) 24

def lineageOf : Json := .obj (Fields.ofOptions [
  ("facts", some (.arr [(g.fact.get "id").getD .null])),
  ("policy_evaluation_id", g.policyDecision.get "policy_evaluation_id"),
  ("policy_decision_id", g.policyDecision.get "id"),
  ("capability_ids", some (.arr
    ((g.authorization.prop "capability_id").toList.filter Json.truthy))),
  ("control_grant_ids", some (.arr g.matched)),
  ("authorization_id", g.authorization.prop "id"),
  ("transaction_id", some (transactionIdOf p input g)),
  ("settlement_operation_id", some (operationIdOf p input g))])

def proofIdOf : Json :=
  orArtifactId p (input.get "settlement_proof_id") "sproof" (lineageOf p input g) 24

/-- The settlement on the grounds `g`. -/
def settlementFrom : Settlement where
  transaction := Fields.ofOptions [("id", some (transactionIdOf p input g)),
    ("object_type", some (.str "Transaction")),
    ("transaction_type", some (orElse (input.get "transaction_type")
      (.str "marketplace.fulfill_order"))),
    ("authorization_id", g.authorization.prop "id"), ("external_proof_id", g.proof.prop "id"),
    ("policy_decision_id", g.policyDecision.get "id"),
    ("payload", some (orElse (input.get "payload") (.obj []))), ("executed_at", some g.executed_at)]
  settlementOperation := [("id", operationIdOf p input g),
    ("object_type", .str "SettlementOperation"), ("transaction_id", transactionIdOf p input g),
    ("operation_type", orElse (input.get "operation_type") (.str "marketplace.fulfillment_recorded")),
    ("idempotency_key", idempotencyKeyOf p input g), ("applied_at", g.applied_at)]
  settlementProof := [("id", proofIdOf p input g), ("object_type", .str "SettlementProof"),
    ("settlement_operation_id", operationIdOf p input g),
    ("transaction_id", transactionIdOf p input g), ("lineage", lineageOf p input g),
    ("proof_hash", .str (hashObject p (lineageOf p input g))), ("issued_at", g.issued_at)]
  idempotencyKey := idempotencyKeyOf p input g

end

/-- The ledger after the settlement was recorded. -/
def settled (ledger : Ledger) (s : Settlement) : Ledger :=
  (((ledger.setStore .transactions
        (upsert "id" s.transaction (fun _ => s.transaction) (ledger.stores .transactions))).setStore
      .settlement_operations (upsert "id" s.settlementOperation (fun _ => s.settlementOperation)
        (ledger.stores .settlement_operations))).setStore
    .settlement_proofs (upsert "id" s.settlementProof (fun _ => s.settlementProof)
      (ledger.stores .settlement_proofs))).setKeys
    .settlement_idempotency_keys
      (ledger.keyStores .settlement_idempotency_keys ++ [s.idempotencyKey])

section
variable {p : Platform} {ledger : Ledger} {input : Fields} {now : Number}

@[simp] theorem settled_transactions (s : Settlement) : (settled ledger s).stores .transactions =
    upsert "id" s.transaction (fun _ => s.transaction) (ledger.stores .transactions) := by
  simp [settled, Ledger.setStore, Ledger.setKeys]

@[simp] theorem settled_operations (s : Settlement) :
    (settled ledger s).stores .settlement_operations = upsert "id" s.settlementOperation
      (fun _ => s.settlementOperation) (ledger.stores .settlement_operations) := by
  simp [settled, Ledger.setStore, Ledger.setKeys]

@[simp] theorem settled_proofs (s : Settlement) :
    (settled ledger s).stores .settlement_proofs = upsert "id" s.settlementProof
      (fun _ => s.settlementProof) (ledger.stores .settlement_proofs) := by
  simp [settled, Ledger.setStore, Ledger.setKeys]

@[simp] theorem settled_keys (s : Settlement) :
    (settled ledger s).keyStores .settlement_idempotency_keys =
      ledger.keyStores .settlement_idempotency_keys ++ [s.idempotencyKey] := by
  simp [settled, Ledger.setStore, Ledger.setKeys]

theorem Grounded.unique {g g' : Grounds} (h : Grounded p ledger input now g)
    (h' : Grounded p ledger input now g') : g = g' := by
  have hauth : g.authorization = g'.authorization := by
    simpa using h.authorization.symm.trans h'.authorization
  have hproof : g.proof = g'.proof ∧ g.fact = g'.fact := by
    simpa using h.proof.symm.trans h'.proof
  have hdec : g.policyDecision = g'.policyDecision :=
    Option.some.inj (h.policyDecision.symm.trans (hauth ▸ h'.policyDecision))
  have hmatched : g.matched = g'.matched :=
    Except.ok.inj (h.matched.symm.trans (hauth ▸ h'.matched))
  have hexecuted : g.executed_at = g'.executed_at := by
    simpa using h.executed_at.symm.trans h'.executed_at
  have happlied : g.applied_at = g'.applied_at := by
    simpa using h.applied_at.symm.trans h'.applied_at
  have hissued : g.issued_at = g'.issued_at := by
    simpa using h.issued_at.symm.trans h'.issued_at
  cases g
  cases g'
  simp_all

theorem settlementOf_of_grounded {g : Grounds} (h : Grounded p ledger input now g)
    (hnew : isUsed ledger (idempotencyKeyOf p input g) = false) :
    settlementOf p ledger input now = .ok (.ok (settlementFrom p input g)) := by
  unfold settlementOf
  simp only [h.authorization, h.proof, h.policyDecision, h.allows, h.matched, h.executed_at,
    h.applied_at, h.issued_at, ok_bind]
  rw [← isUsed.eq_def ledger, ← idempotencyKeyOf.eq_def, hnew]
  rfl

theorem settlementOf_eq_ok {s : Settlement} :
    settlementOf p ledger input now = .ok (.ok s) ↔
      ∃ g, Grounded p ledger input now g ∧ isUsed ledger (idempotencyKeyOf p input g) = false ∧
        s = settlementFrom p input g := by
  refine ⟨fun h => ?_, fun ⟨g, hg, hnew, hs⟩ => hs ▸ settlementOf_of_grounded hg hnew⟩
  unfold settlementOf at h
  obtain ⟨checked, hauth, h⟩ := bind_eq_ok.mp h
  cases checked with
  | error reason => cases h
  | ok authorization =>
    dsimp only at h
    cases hproof : verifyExternalProof ledger
        (or (input.get "external_proof_id") (input.get "externalProof")) with
    | error reason => rw [hproof] at h; cases h
    | ok found =>
      obtain ⟨proof, fact⟩ := found
      rw [hproof] at h
      dsimp only at h
      cases hdec : findById (ledger.stores .policy_decisions)
          (authorization.prop "policy_decision_id") with
      | none => rw [hdec] at h; cases h
      | some policyDecision =>
        rw [hdec] at h
        dsimp only at h
        split at h
        · cases h
        · next hallows =>
          split at h
          · cases h
          · next hused =>
            obtain ⟨executed_at, hex, h⟩ := bind_eq_ok.mp h
            obtain ⟨applied_at, hap, h⟩ := bind_eq_ok.mp h
            obtain ⟨matched, hm, h⟩ := bind_eq_ok.mp h
            obtain ⟨issued_at, hi, h⟩ := bind_eq_ok.mp h
            cases h
            exact ⟨⟨authorization, proof, fact, policyDecision, matched, executed_at, applied_at,
              issued_at⟩, ⟨hauth, hproof, hdec, by simpa using hallows, hm, hex, hap, hi⟩,
              by simpa [isUsed, idempotencyKeyOf] using hused, rfl⟩

end

/-! ## Stored and presented artifacts -/

/-- The artifact a caller names by its id, or presents as an object. -/
def presented (xs : List Fields) (v : Option Json) : Option Json :=
  match v with
  | some (.str id) => (findById xs (some (.str id))).map Json.obj
  | v => if truthy v then v else none

def isText : Option Json → Bool
  | some (.str _) => true
  | _ => false

def storedGrant (ledger : Ledger) (grantId : Json) : Option Fields :=
  (findByRef (ledger.stores .control_grants) (some grantId)).or
    (findByRef (ledger.stores .capability_grants) (some grantId))

/-- The authorization can be executed at `now`, and its grants are stored and active. -/
structure Executable (p : Platform) (ledger : Ledger) (now : Number) (a : Json) : Prop where
  authorized : a.prop "status" = some (.str "authorized")
  can_execute : a.prop "can_execute" = some (.bool true)
  unexpired : truthy (a.prop "expires_at") = true →
    ∃ t, newDate p (a.prop "expires_at") = .ok t ∧ t.le now = false
  grants : ∃ matched, arrayOrEmpty (a.prop "matched_grants")
      "(authorization.matched_grants || []).some" = .ok matched ∧
    ∀ grantId ∈ matched, ∃ grant, storedGrant ledger grantId = some grant ∧
      strictEq (grant.get "status") (some (.str "active")) = true

/-- The proof is verified, with the fact, the path and the finality claim it names. -/
def Verified (ledger : Ledger) (proof : Json) (fact : Fields) : Prop :=
  proof.prop "status" = some (.str "verified") ∧
    findByRef (ledger.stores .normalized_facts) (proof.prop "normalized_fact_id") = some fact ∧
    (findByRef (ledger.stores .verification_paths) (proof.prop "verification_path_id")).isSome ∧
    (findByRef (ledger.stores .finality_claims) (proof.prop "finality_claim_id")).isSome

section
variable {p : Platform} {ledger : Ledger} {now : Number} {a : Json}

theorem findById_eq_some {xs : List Fields} {id : Option Json} {x : Fields}
    (h : findById xs id = some x) : x ∈ xs ∧ x.get "id" = id :=
  ⟨List.mem_of_find?_eq_some h, eq_of_strictEq (by simpa using List.find?_some h)⟩

theorem presented_isText {xs : List Fields} {v : Option Json} {x : Json} (hv : isText v = true)
    (h : presented xs v = some x) : ∃ stored ∈ xs, x = .obj stored := by
  unfold presented at h
  unfold isText at hv
  split at hv
  · obtain ⟨stored, hfind, rfl⟩ := Option.map_eq_some_iff.mp h
    exact ⟨stored, (findById_eq_some hfind).1, rfl⟩
  · cases hv

/-- The checks of `verifyAuthorization` on the authorization it found. -/
def checkAuthorization (p : Platform) (ledger : Ledger) (now : Number) (authorization : Json) :
    JsM (Except String Json) := do
  if !strictEq (authorization.prop "status") (some (.str "authorized"))
      || !strictEq (authorization.prop "can_execute") (some (.bool true)) then
    return .error "AUTHORIZATION_NOT_EXECUTABLE"
  else
    let expired ← if truthy (authorization.prop "expires_at") then
        (·.le now) <$> newDate p (authorization.prop "expires_at") else pure false
    if expired then return .error "AUTHORIZATION_EXPIRED"
    else
      let matched ← arrayOrEmpty (authorization.prop "matched_grants")
        "(authorization.matched_grants || []).some"
      let inactive := matched.any fun grantId =>
        match storedGrant ledger grantId with
        | none => true
        | some grant => !strictEq (grant.get "status") (some (.str "active"))
      return if inactive then .error "AUTHORIZATION_GRANT_NOT_ACTIVE" else .ok authorization

theorem verifyAuthorization_eq {v : Option Json} :
    verifyAuthorization p ledger v now =
      (presented (ledger.stores .authorizations) v).elim (.ok (.error "AUTHORIZATION_NOT_FOUND"))
        (checkAuthorization p ledger now) := by
  unfold verifyAuthorization presented
  cases v with
  | none => rfl
  | some w =>
    by_cases ht : truthy (some w) = true <;> cases w <;> simp only [ht, if_true, if_false]
    case pos.str id => cases findById (ledger.stores .authorizations) (some (.str id)) <;> rfl
    case neg.str id => cases findById (ledger.stores .authorizations) (some (.str id)) <;> rfl
    all_goals rfl

theorem grants_active_iff (matched : List Json) :
    (matched.any fun grantId => match storedGrant ledger grantId with
      | none => true
      | some grant => !strictEq (grant.get "status") (some (.str "active"))) = false ↔
    ∀ grantId ∈ matched, ∃ grant, storedGrant ledger grantId = some grant ∧
      strictEq (grant.get "status") (some (.str "active")) = true := by
  rw [List.any_eq_false]
  refine forall₂_congr fun grantId _ => ?_
  cases storedGrant ledger grantId <;> simp

theorem expiry_iff {e : Option Json} :
    (if truthy e then (·.le now) <$> newDate p e else pure false) = (.ok false : JsM Bool) ↔
      (truthy e = true → ∃ t, newDate p e = .ok t ∧ t.le now = false) := by
  by_cases h : truthy e = true
  · rw [if_pos h, map_eq_ok]
    exact ⟨fun hx _ => hx, fun hx => hx h⟩
  · rw [if_neg h]
    exact ⟨fun _ hx => absurd hx h, fun _ => rfl⟩

theorem checkAuthorization_eq_ok {x : Json} :
    checkAuthorization p ledger now x = .ok (.ok a) ↔ x = a ∧ Executable p ledger now a := by
  unfold checkAuthorization
  split
  · next hstatus =>
    refine ⟨nofun, fun ⟨hx, h⟩ => ?_⟩
    rw [hx, h.authorized, h.can_execute] at hstatus
    cases hstatus
  · next hstatus =>
    simp only [Bool.or_eq_true, Bool.not_eq_true', not_or, Bool.not_eq_false,
      strictEq_str_iff, strictEq_true_iff] at hstatus
    dsimp only
    rw [ite_bind]
    constructor
    · intro h
      obtain ⟨expired, hexp, h⟩ := bind_eq_ok.mp h
      cases expired with
      | true => cases h
      | false =>
        obtain ⟨matched, hmatched, h⟩ := bind_eq_ok.mp h
        split at h
        · cases h
        · next hactive =>
          cases h
          exact ⟨rfl, hstatus.1, hstatus.2, expiry_iff.mp hexp, matched, hmatched,
            (grants_active_iff matched).mp (by simpa using hactive)⟩
    · rintro ⟨rfl, h⟩
      obtain ⟨matched, hmatched, hactive⟩ := h.grants
      rw [expiry_iff.mpr h.unexpired, ok_bind, if_neg (by simp), hmatched, ok_bind]
      rw [(grants_active_iff matched).mpr hactive]
      rfl

theorem verifyAuthorization_eq_ok {v : Option Json} :
    verifyAuthorization p ledger v now = .ok (.ok a) ↔
      presented (ledger.stores .authorizations) v = some a ∧ Executable p ledger now a := by
  rw [verifyAuthorization_eq]
  cases presented (ledger.stores .authorizations) v with
  | none => exact ⟨nofun, fun h => nomatch h.1⟩
  | some x => rw [Option.elim_some, checkAuthorization_eq_ok, Option.some_inj]

/-- The checks of `verifyExternalProof` on the proof it found. -/
def checkExternalProof (ledger : Ledger) (proof : Json) : Except String (Json × Fields) :=
  if !strictEq (proof.prop "status") (some (.str "verified")) then
    .error "EXTERNAL_PROOF_NOT_VERIFIED"
  else
    match findByRef (ledger.stores .normalized_facts) (proof.prop "normalized_fact_id"),
      findByRef (ledger.stores .verification_paths) (proof.prop "verification_path_id"),
      findByRef (ledger.stores .finality_claims) (proof.prop "finality_claim_id") with
    | some fact, some _, some _ => .ok (proof, fact)
    | _, _, _ => .error "EXTERNAL_PROOF_LINEAGE_INCOMPLETE"

theorem verifyExternalProof_eq {v : Option Json} :
    verifyExternalProof ledger v =
      (presented (ledger.stores .external_proofs) v).elim (.error "EXTERNAL_PROOF_NOT_FOUND")
        (checkExternalProof ledger) := by
  unfold verifyExternalProof presented
  cases v with
  | none => rfl
  | some w =>
    by_cases ht : truthy (some w) = true <;> cases w <;> simp only [ht, if_true, if_false]
    case pos.str id => cases findById (ledger.stores .external_proofs) (some (.str id)) <;> rfl
    case neg.str id => cases findById (ledger.stores .external_proofs) (some (.str id)) <;> rfl
    all_goals rfl

theorem checkExternalProof_eq_ok {x : Json} {fact : Fields} :
    checkExternalProof ledger x = .ok (a, fact) ↔ x = a ∧ Verified ledger a fact := by
  unfold checkExternalProof
  split
  · next hstatus =>
    refine ⟨nofun, fun ⟨hx, h, _⟩ => ?_⟩
    rw [hx, h] at hstatus
    cases hstatus
  · next hstatus =>
    have hverified : x.prop "status" = some (.str "verified") := by
      simpa [strictEq_str_iff] using hstatus
    split
    · next hfact hpath hfinality =>
      constructor
      · intro h
        cases h
        exact ⟨rfl, hverified, hfact, by rw [hpath]; rfl, by rw [hfinality]; rfl⟩
      · rintro ⟨rfl, -, hfound, -, -⟩
        rw [hfact] at hfound
        cases hfound
        rfl
    · next hnone =>
      refine ⟨nofun, fun ⟨hx, _, hfound, hpath, hfinality⟩ => ?_⟩
      cases hx
      obtain ⟨path, hpath⟩ := Option.isSome_iff_exists.mp hpath
      obtain ⟨finality, hfinality⟩ := Option.isSome_iff_exists.mp hfinality
      exact (hnone _ _ _ hfound hpath hfinality).elim

theorem verifyExternalProof_eq_ok {v : Option Json} {fact : Fields} :
    verifyExternalProof ledger v = .ok (a, fact) ↔
      presented (ledger.stores .external_proofs) v = some a ∧ Verified ledger a fact := by
  rw [verifyExternalProof_eq]
  cases presented (ledger.stores .external_proofs) v with
  | none => exact ⟨nofun, fun h => nomatch h.1⟩
  | some x => rw [Option.elim_some, checkExternalProof_eq_ok, Option.some_inj]

end

/-! ## Explanations -/

/-- `v?.length`, as a condition. -/
def hasLength : Option Json → Bool
  | some (.arr xs) => !xs.isEmpty
  | some (.str s) => s ≠ ""
  | some (.obj fs) => truthy (Fields.get fs "length")
  | _ => false

def lineageComplete (lineage : Json) : Bool :=
  hasLength (lineage.prop "facts") && truthy (lineage.prop "policy_evaluation_id")
    && truthy (lineage.prop "policy_decision_id") && hasLength (lineage.prop "capability_ids")
    && hasLength (lineage.prop "control_grant_ids") && truthy (lineage.prop "authorization_id")
    && truthy (lineage.prop "transaction_id") && truthy (lineage.prop "settlement_operation_id")

structure Explanation where
  ok : Bool
  settlementProof : Option Fields
  lineage : Option Json
  reason_codes : List String

/-- What `explainSettlement` says of the proof it found. -/
def explained : Option Fields → Explanation
  | none => ⟨false, none, none, ["SETTLEMENT_PROOF_NOT_FOUND"]⟩
  | some settlementProof =>
    let lineage := orElse (settlementProof.get "lineage") (.obj [])
    let complete := lineageComplete lineage
    ⟨complete, some settlementProof, some lineage,
      [if complete then "LINEAGE_COMPLETE" else "LINEAGE_INCOMPLETE"]⟩

def explainSettlement (ledger : Ledger) (settlementProofId : Option Json) : Explanation :=
  explained (findById (ledger.stores .settlement_proofs) settlementProofId)

/-- `explainSettlement(ledger, settlementProof.id)` of the proof recorded last; when the id is an
object, only this proof has it. -/
def explainReturned (ledger : Ledger) (settlementProof : Fields) : Explanation :=
  if (settlementProof.get "id").any Json.isObject then explained (some settlementProof)
  else explainSettlement ledger (settlementProof.get "id")

/-! ## Settlements on record -/

/-- The ledger has an authorization with this id that is executable, and its allowing decision. -/
def HoldsAuthorization (p : Platform) (ledger : Ledger) (now : Number) (id : Option Json) : Prop :=
  ∃ a ∈ ledger.stores .authorizations, a.get "id" = id ∧ Executable p ledger now (.obj a) ∧
    ∃ d ∈ ledger.stores .policy_decisions, d.get "id" = a.get "policy_decision_id" ∧
      strictEq (d.get "decision") (some (.str "allow")) = true

def HoldsProof (ledger : Ledger) (id : Option Json) : Prop :=
  ∃ e ∈ ledger.stores .external_proofs, e.get "id" = id ∧ ∃ fact, Verified ledger (.obj e) fact

/-- The settlement rests on a stored authorization and a stored proof, and `ledger'`, where it was
recorded, explains it. -/
structure Backed (p : Platform) (ledger : Ledger) (now : Number) (settlement : Settlement)
    (ledger' : Ledger) : Prop where
  authorization : HoldsAuthorization p ledger now
    ((settlement.settlementProof.get "lineage").bind (·.prop "authorization_id"))
  proof : HoldsProof ledger (settlement.transaction.get "external_proof_id")
  explained : (explainReturned ledger' settlement.settlementProof).ok = true

/-- The authorization and the proof are given by their ids, or the store has valid ones with the
ids of the objects; the ids are not empty, and the authorization has a capability and grants. -/
structure OnRecord (p : Platform) (ledger : Ledger) (input : Fields) (now : Number) (g : Grounds) :
    Prop where
  authorization : isText (or (input.get "authorization_id") (input.get "authorization")) = true ∨
    HoldsAuthorization p ledger now (g.authorization.prop "id")
  proof : isText (or (input.get "external_proof_id") (input.get "externalProof")) = true ∨
    HoldsProof ledger (g.proof.prop "id")
  authorization_id : truthy (g.authorization.prop "id") = true
  capability_id : truthy (g.authorization.prop "capability_id") = true
  grants : g.matched ≠ []
  decision_id : truthy (g.policyDecision.get "id") = true
  evaluation_id : truthy (g.policyDecision.get "policy_evaluation_id") = true

section
variable {p : Platform} {ledger : Ledger} {input : Fields} {now : Number} {g : Grounds}

theorem truthy_orArtifactId (e : Option Json) (tag : String) (v : Json) (n : Nat) :
    (orArtifactId p e tag v n).truthy = true := by
  unfold orArtifactId orElse Js.or
  split
  · next h =>
    cases e with
    | none => cases h
    | some e => exact h
  · simp [Json.truthy, artifactId]

theorem lineage_complete_iff :
    lineageComplete (lineageOf p input g) = true ↔
      truthy (g.policyDecision.get "policy_evaluation_id") = true ∧
        truthy (g.policyDecision.get "id") = true ∧
        truthy (g.authorization.prop "capability_id") = true ∧ g.matched ≠ [] ∧
        truthy (g.authorization.prop "id") = true := by
  have htx : truthy (some (transactionIdOf p input g)) = true := truthy_orArtifactId ..
  have hop : truthy (some (operationIdOf p input g)) = true := truthy_orArtifactId ..
  have hcap : hasLength (some (.arr
      ((g.authorization.prop "capability_id").toList.filter Json.truthy))) =
      truthy (g.authorization.prop "capability_id") := by
    cases g.authorization.prop "capability_id" with
    | none => rfl
    | some v => by_cases hv : v.truthy = true <;> simp [hasLength, truthy, hv]
  have hgrants : hasLength (some (.arr g.matched)) = true ↔ g.matched ≠ [] := by
    simp [hasLength]
  have hfacts (v : Json) : hasLength (some (.arr [v])) = true := rfl
  unfold lineageComplete lineageOf
  simp [htx, hop, hcap, hgrants, hfacts, and_assoc]

theorem holdsAuthorization_of_grounded (hg : Grounded p ledger input now g)
    (h : isText (or (input.get "authorization_id") (input.get "authorization")) = true) :
    HoldsAuthorization p ledger now (g.authorization.prop "id") := by
  obtain ⟨hpresented, hexec⟩ := verifyAuthorization_eq_ok.mp hg.authorization
  obtain ⟨stored, hmem, hstored⟩ := presented_isText h hpresented
  obtain ⟨hdec, hid⟩ := findById_eq_some hg.policyDecision
  rw [hstored] at hexec hid ⊢
  exact ⟨stored, hmem, rfl, hexec, g.policyDecision, hdec, hid, hg.allows⟩

theorem holdsProof_of_grounded (hg : Grounded p ledger input now g)
    (h : isText (or (input.get "external_proof_id") (input.get "externalProof")) = true) :
    HoldsProof ledger (g.proof.prop "id") := by
  obtain ⟨hpresented, hverified⟩ := verifyExternalProof_eq_ok.mp hg.proof
  obtain ⟨stored, hmem, hstored⟩ := presented_isText h hpresented
  rw [hstored] at hverified ⊢
  exact ⟨stored, hmem, rfl, g.fact, hverified⟩

theorem findById_upsert {x : Fields} (h : strictEq (x.get "id") (x.get "id") = true)
    (xs : List Fields) : findById (upsert "id" x (fun _ => x) xs) (x.get "id") = some x := by
  unfold findById
  induction xs with
  | nil => simp [upsert, h]
  | cons y ys ih =>
    unfold upsert
    split
    · simp [h]
    · next hy => rw [List.find?_cons, Bool.eq_false_iff.mpr hy, ih]

theorem strictEq_self {v : Json} (ht : v.truthy = true) (hv : v.isObject = false) :
    strictEq (some v) (some v) = true := by
  cases v with
  | num n =>
    have hn : n ≠ .nan := by
      rintro rfl
      cases ht
    simp [strictEq, hn]
  | arr xs => cases hv
  | obj fs => cases hv
  | _ => simp [strictEq]

/-- A settlement that is recorded is found under its id. -/
theorem explainReturned_upsert {x : Fields} {id : Json} (hid : x.get "id" = some id)
    (ht : id.truthy = true) {l : Ledger} {xs : List Fields}
    (hl : l.stores .settlement_proofs = upsert "id" x (fun _ => x) xs) :
    explainReturned l x = explained (some x) := by
  unfold explainReturned explainSettlement
  split
  · rfl
  · next hobj =>
    have hself : strictEq (x.get "id") (x.get "id") = true := by
      rw [hid] at hobj ⊢
      exact strictEq_self ht (by simpa using hobj)
    rw [hl, findById_upsert hself]

theorem executeMarketplaceSettlement_eq :
    executeMarketplaceSettlement p input now ledger =
      match settlementOf p ledger input now with
      | .error e => .error e ledger
      | .ok (.error reason) => .ok (.error reason) ledger
      | .ok (.ok s) => .ok (.ok s) (settled ledger s) := by
  cases h : settlementOf p ledger input now with
  | error e =>
    have hread : reading (fun ledger => settlementOf p ledger input now) ledger = .error e ledger :=
      lift_eq_error.mpr ⟨h, rfl⟩
    exact bind_of_error hread
  | ok t =>
    have hread : reading (fun ledger => settlementOf p ledger input now) ledger = .ok t ledger :=
      lift_eq_ok.mpr ⟨h, rfl⟩
    unfold executeMarketplaceSettlement
    rw [bind_of_ok hread]
    cases t <;> rfl

/-- A call that settles has grounds with a new key, and records the settlement on them. -/
theorem executed {s : Settlement} {l : Ledger} :
    executeMarketplaceSettlement p input now ledger = .ok (.ok s) l ↔
      settlementOf p ledger input now = .ok (.ok s) ∧ l = settled ledger s := by
  rw [executeMarketplaceSettlement_eq]
  rcases h : settlementOf p ledger input now with e | reason | t
  · exact ⟨nofun, fun h => nomatch h.1⟩
  · exact ⟨nofun, fun h => nomatch h.1⟩
  · simp only [EStateM.Result.ok.injEq, Except.ok.injEq]
    refine and_congr_right fun ht => ?_
    rw [ht, eq_comm]

end

/-- A settlement rests on what is stored exactly when its authorization and its proof are given by
id, or stored under the ids of the objects, and the lineage has all its parts. -/
theorem settlement_backed_iff {p : Platform} {ledger ledger' : Ledger} {input : Fields}
    {now : Number} {settlement : Settlement}
    (h : executeMarketplaceSettlement p input now ledger = .ok (.ok settlement) ledger') :
    Backed p ledger now settlement ledger' ↔
      ∀ g, Grounded p ledger input now g → OnRecord p ledger input now g := by
  obtain ⟨hs, rfl⟩ := executed.mp h
  obtain ⟨g, hg, -, rfl⟩ := settlementOf_eq_ok.mp hs
  have hexplained : (explainReturned (settled ledger (settlementFrom p input g))
      (settlementFrom p input g).settlementProof).ok = lineageComplete (lineageOf p input g) := by
    rw [explainReturned_upsert rfl (truthy_orArtifactId ..) (settled_proofs _)]
    rfl
  constructor
  · rintro ⟨hauth, hproof, hok⟩ g' hg'
    cases hg.unique hg'
    rw [hexplained, lineage_complete_iff] at hok
    obtain ⟨heval, hdec, hcap, hgrants, hid⟩ := hok
    exact ⟨.inr (by simpa [settlementFrom, lineageOf] using hauth),
      .inr (by simpa [settlementFrom] using hproof), hid, hcap, hgrants, hdec, heval⟩
  · intro hrecord
    have hon := hrecord g hg
    have hauth := hon.authorization.elim (holdsAuthorization_of_grounded hg) id
    have hproof := hon.proof.elim (holdsProof_of_grounded hg) id
    refine ⟨by simpa [settlementFrom, lineageOf] using hauth, by simpa [settlementFrom] using hproof, ?_⟩
    rw [hexplained, lineage_complete_iff]
    exact ⟨hon.evaluation_id, hon.decision_id, hon.capability_id, hon.grants, hon.authorization_id⟩

def paidAuthorization : Fields :=
  [("id", .str "authz_1"), ("status", .str "authorized"), ("can_execute", .bool true),
    ("capability_id", .str "cap_1"), ("policy_decision_id", .str "pdec_1"),
    ("matched_grants", .arr [.str "grant_1"])]

def paidProof : Fields :=
  [("id", .str "xproof_1"), ("status", .str "verified"), ("normalized_fact_id", .str "fact_1"),
    ("verification_path_id", .str "vpath_1"), ("finality_claim_id", .str "finality_1")]

/-- The decision and the fact of a payment are stored, and its grant is active. -/
def grantedLedger : Ledger :=
  (((((Ledger.fresh none ⟨none, [], none⟩).setStore .control_grants
    [[("id", .str "grant_1"), ("status", .str "active")]]).setStore .policy_decisions
    [[("id", .str "pdec_1"), ("decision", .str "allow"),
      ("policy_evaluation_id", .str "peval_1")]]).setStore .normalized_facts
    [[("id", .str "fact_1")]]).setStore .verification_paths
    [[("id", .str "vpath_1")]]).setStore .finality_claims [[("id", .str "finality_1")]]

/-- The authorization and the proof of the payment are stored too. -/
def paidLedger : Ledger :=
  (grantedLedger.setStore .authorizations [paidAuthorization]).setStore .external_proofs [paidProof]

def paymentById : Fields :=
  [("authorization_id", .str "authz_1"), ("external_proof_id", .str "xproof_1")]

def paymentByObject : Fields :=
  [("authorization", .obj paidAuthorization), ("externalProof", .obj paidProof)]

/-- What both forms of the payment rest on. -/
def paymentGrounds : Grounds where
  authorization := .obj paidAuthorization
  proof := .obj paidProof
  fact := [("id", .str "fact_1")]
  policyDecision := [("id", .str "pdec_1"), ("decision", .str "allow"),
    ("policy_evaluation_id", .str "peval_1")]
  matched := [.str "grant_1"]
  executed_at := .str (plainPlatform.isoDate 0)
  applied_at := .str (plainPlatform.isoDate 0)
  issued_at := .str (plainPlatform.isoDate 0)

theorem paymentById_grounded :
    Grounded plainPlatform paidLedger paymentById (.int 0) paymentGrounds :=
  ⟨rfl, rfl, rfl, rfl, rfl, rfl, rfl, rfl⟩

theorem paymentByObject_grounded :
    Grounded plainPlatform grantedLedger paymentByObject (.int 0) paymentGrounds :=
  ⟨rfl, rfl, rfl, rfl, rfl, rfl, rfl, rfl⟩

theorem settlement_backed_by_id :
    let settlement := settlementFrom plainPlatform paymentById paymentGrounds
    Backed plainPlatform paidLedger (.int 0) settlement (settled paidLedger settlement) := by
  have hs := settlementOf_of_grounded paymentById_grounded rfl
  refine (settlement_backed_iff (executed.mpr ⟨hs, rfl⟩)).mpr fun g hg => ?_
  cases hg.unique paymentById_grounded
  exact ⟨.inl rfl, .inl rfl, rfl, rfl, nofun, rfl, rfl⟩

/-- Nothing is stored of the authorization and the proof that come as objects. -/
theorem inline_settlement_unbacked : ∃ settlement ledger',
    executeMarketplaceSettlement plainPlatform paymentByObject (.int 0) grantedLedger =
      .ok (.ok settlement) ledger' ∧
    ¬ Backed plainPlatform grantedLedger (.int 0) settlement ledger' := by
  have hs := settlementOf_of_grounded paymentByObject_grounded rfl
  refine ⟨_, _, executed.mpr ⟨hs, rfl⟩, fun h => ?_⟩
  obtain ⟨a, ha, -⟩ := h.authorization
  cases ha

end SimpleL1.Node
