import SimpleL1.Settlement.Outcomes
import SimpleL1.Js.Canon

/-!
# Collecting attestations

Every validator judges the same proof, signs what it found and hands out a record
of it; the engine counts the records and checks their signatures. The clock is
read once for the text that is signed and once for the record, so a record is
checked against another text when the clock has moved between the two.
-/

namespace SimpleL1.Settlement

open SimpleL1.Js SimpleL1.Lib SimpleL1.Lib.Effect

/-- The computations that read the clock: the state is the number of readings so far. -/
abbrev ClockM := EStateM Error Nat

/-- `new Date()`. -/
def readClock (clock : Nat → Moment) : ClockM Moment := do
  let n ← get
  set (n + 1)
  return clock n

structure Attestation where
  validator_id : String
  validator_pubkey : String
  weight : Nat
  intent_id : Option Json
  proof_fingerprint : Option Json
  decision : Decision
  rejection_reason : Json
  message_hash : String
  signature : String
  attested_at : String

/-- The text a validator signs. -/
def attestedMessage (intent_id proof_fingerprint : Option Json) (decision : Decision)
    (validator_id attested_at : String) : String :=
  String.ofList (Json.obj (Fields.ofOptions [("intent_id", intent_id),
    ("proof_fingerprint", proof_fingerprint), ("decision", some (.str decision.name)),
    ("validator_id", some (.str validator_id)), ("attested_at", some (.str attested_at))])).text

namespace LocalValidator

/-- `_evaluate`. -/
def evaluate (proof : Option Json) (context : Json) : JsM Decision := do
  if !truthy proof then return .REJECT
  else
    let forceReject ← Node.member (some context) "forceReject"
    let evidence := proof.bind (·.prop "evidence")
    let threshold_met := (proof.bind (·.prop "verification")).bind (·.prop "threshold_met")
    if truthy forceReject then return .REJECT
    else if !truthy evidence then return .REJECT
    else if !truthy (evidence.bind (·.prop "tx_hash")) then return .REJECT
    else if !truthy threshold_met then return .REJECT
    else return .ACCEPT

/-- Why the validator rejects. -/
def rejectionReason (decision : Decision) (context : Json) : JsM Json :=
  match decision with
  | .REJECT => (Node.orElse · (.str "Evaluation failed")) <$> Node.member (some context) "reason"
  | .ACCEPT => return .null

variable (p : Node.Platform) (scheme : SignatureScheme) (clock : Nat → Moment)

def attest (v : LocalValidator) (intent_id proof : Option Json) (context : Json) : ClockM Attestation := do
  let decision ← liftM (evaluate proof context)
  let proof_fingerprint ← liftM (Node.member proof "proof_fingerprint")
  let signed ← readClock clock
  let message := attestedMessage intent_id proof_fingerprint decision v.validator_id (p.isoDate signed.now)
  let signature := scheme.sign v.privateKey message signed.salt
  let rejection_reason ← liftM (rejectionReason decision context)
  let recorded ← readClock clock
  return {
    validator_id := v.validator_id
    validator_pubkey := v.public_key
    weight := v.weight
    intent_id
    proof_fingerprint
    decision
    rejection_reason
    message_hash := Node.sliceTo 16 (p.sha256 message)
    signature
    attested_at := p.isoDate recorded.now }

def verifySignature (a : Attestation) : Bool :=
  let message := attestedMessage a.intent_id a.proof_fingerprint a.decision a.validator_id a.attested_at
  match scheme.verify (some (.str a.validator_pubkey)) (some (.str a.signature)) message with
  | .ok valid => valid
  | .error _ => false

end LocalValidator

structure AttestationResult where
  intent_id : Option Json
  quorum_met : Bool
  signatures_valid : Bool
  total_validators : Nat
  accepted : Nat
  rejected : Nat
  required_threshold : Option Nat
  total_weight : Nat
  accept_weight : Nat
  attestations : List Attestation
  evaluated_at : String
  rejection_reason : Option String

namespace AttestationEngine

/-- `Math.ceil(total * this.quorumNumerator / this.quorumDenominator)`; by zero it is `Infinity` or
`NaN`, which no count reaches. -/
def threshold (engine : AttestationEngine) (total : Nat) : Option Nat :=
  if engine.quorumDenominator = 0 then none else some (engine.required total)

/-- `accepted >= required`. -/
def reached (engine : AttestationEngine) (total accepted : Nat) : Bool :=
  (engine.threshold total).any (· ≤ accepted)

def collectAttestations (p : Node.Platform) (scheme : SignatureScheme) (clock : Nat → Moment)
    (engine : AttestationEngine) (intent_id proof : Option Json) (context : Json) :
    ClockM AttestationResult := do
  let attestations ← engine.validators.mapM (·.attest p scheme clock intent_id proof context)
  let total := attestations.length
  let accepting := attestations.filter (·.decision = .ACCEPT)
  let allValid := attestations.all (LocalValidator.verifySignature scheme)
  let evaluated ← readClock clock
  return {
    intent_id
    quorum_met := allValid && engine.reached total accepting.length
    signatures_valid := allValid
    total_validators := total
    accepted := accepting.length
    rejected := (attestations.filter (·.decision = .REJECT)).length
    required_threshold := engine.threshold total
    total_weight := (attestations.map (·.weight)).sum
    accept_weight := (accepting.map (·.weight)).sum
    attestations
    evaluated_at := p.isoDate evaluated.now
    rejection_reason := if allValid then none else some "One or more validator signatures are invalid" }

end AttestationEngine

/-! ## What is signed and what is recorded -/

theorem get_writtenFields (fs : List (String × Json)) (k : String) :
    Fields.get (Json.writtenFields fs) k = (Fields.get fs k).map Json.written := by
  induction fs with
  | nil => rfl
  | cons f fs ih =>
    obtain ⟨k', v⟩ := f
    rw [Json.writtenFields, Fields.get_cons, Fields.get_cons, ih]
    split <;> rfl

/-- Two texts are the same just when they show the same time. -/
theorem attestedMessage_inj {intent_id proof_fingerprint : Option Json} {decision : Decision}
    {validator_id t t' : String} :
    attestedMessage intent_id proof_fingerprint decision validator_id t
      = attestedMessage intent_id proof_fingerprint decision validator_id t' ↔ t = t' := by
  constructor
  · intro h
    have hwritten := Json.written_eq_of_text (String.ofList_injective h)
    rw [Json.written, Json.written, Json.obj.injEq] at hwritten
    have htime := congrArg (Fields.get · "attested_at") hwritten
    simpa [get_writtenFields, Json.written] using htime
  · rintro rfl
    rfl

/-- With the validator's keys a signature verifies exactly on the text that was signed. -/
def SignsTexts (scheme : SignatureScheme) (v : LocalValidator) : Prop :=
  ∀ (text : String) (salt : Nat) (text' : String),
    scheme.verify (some (.str v.public_key)) (some (.str (scheme.sign v.privateKey text salt))) text' =
      .ok (decide (text' = text))

section
variable {p : Node.Platform} {scheme : SignatureScheme} {clock : Nat → Moment} {v : LocalValidator}
  {intent_id proof : Option Json} {context : Json} {a : Attestation} {n n' : Nat}

/-- The two readings from the `n`th on show the same time. -/
def SameTime (p : Node.Platform) (clock : Nat → Moment) (n : Nat) : Prop :=
  p.isoDate (clock (n + 1)).now = p.isoDate (clock n).now

@[simp] theorem readClock_apply : readClock clock n = .ok (clock n) (n + 1) := rfl

/-- An attestation takes two readings, and its signature is valid if they show the same time. -/
theorem attest_spec (hsigns : SignsTexts scheme v)
    (h : v.attest p scheme clock intent_id proof context n = .ok a n') :
    n' = n + 2 ∧ (LocalValidator.verifySignature scheme a = true ↔ SameTime p clock n) := by
  unfold LocalValidator.attest at h
  obtain ⟨decision, -, h⟩ := lift_bind_eq_ok.mp h
  obtain ⟨fingerprint, -, h⟩ := lift_bind_eq_ok.mp h
  rw [bind_of_ok readClock_apply] at h
  obtain ⟨reason, -, h⟩ := lift_bind_eq_ok.mp h
  rw [bind_of_ok readClock_apply] at h
  cases h
  refine ⟨rfl, ?_⟩
  unfold LocalValidator.verifySignature
  dsimp only
  rw [hsigns]
  show decide _ = true ↔ _
  rw [decide_eq_true_eq, attestedMessage_inj]
  rfl

/-- The readings that the validators take, two each. -/
theorem mapM_attest_spec {validators : List LocalValidator} {attestations : List Attestation}
    (hsigns : ∀ v ∈ validators, SignsTexts scheme v)
    (h : validators.mapM (·.attest p scheme clock intent_id proof context) n = .ok attestations n') :
    attestations.length = validators.length ∧
      (attestations.all (LocalValidator.verifySignature scheme) = true ↔
        ∀ i < validators.length, SameTime p clock (n + 2 * i)) := by
  induction validators generalizing n attestations with
  | nil =>
    cases h
    exact ⟨rfl, by simp⟩
  | cons v validators ih =>
    rw [List.mapM_cons] at h
    obtain ⟨a, n₁, ha, h⟩ := run_bind_eq_ok.mp h
    obtain ⟨rest, n₂, hrest, h⟩ := run_bind_eq_ok.mp h
    cases h
    obtain ⟨rfl, hvalid⟩ := attest_spec (hsigns v List.mem_cons_self) ha
    obtain ⟨hlength, hall⟩ := ih (fun w hw => hsigns w (List.mem_cons_of_mem v hw)) hrest
    refine ⟨by rw [List.length_cons, List.length_cons, hlength], ?_⟩
    rw [List.all_cons, Bool.and_eq_true, hvalid, hall, List.length_cons]
    constructor
    · rintro ⟨hfirst, hlater⟩ i hi
      cases i with
      | zero => exact hfirst
      | succ i =>
        have hi' := hlater i (by omega)
        rwa [show n + 2 * (i + 1) = n + 2 + 2 * i by omega]
    · intro h
      refine ⟨h 0 (by omega), fun i hi => ?_⟩
      have hi' := h (i + 1) (by omega)
      rwa [show n + 2 * (i + 1) = n + 2 + 2 * i by omega] at hi'

end

/-! ## The quorum -/

/-- Every signature is valid, and the quorum is met just when enough validators accepted. -/
structure FollowsDecisions (scheme : SignatureScheme) (engine : AttestationEngine)
    (result : AttestationResult) : Prop where
  signed : ∀ a ∈ result.attestations, LocalValidator.verifySignature scheme a = true
  quorum : result.quorum_met = true ↔ ∃ required,
    engine.threshold engine.validators.length = some required ∧
      required ≤ result.attestations.countP (·.decision = .ACCEPT)

/-- The quorum follows the decisions just when the clock shows one time for each validator: what it
signs and what it records are dated by two readings. -/
theorem quorum_follows_decisions_iff (p : Node.Platform) (scheme : SignatureScheme)
    (clock : Nat → Moment) (engine : AttestationEngine)
    (hsigns : ∀ v ∈ engine.validators, SignsTexts scheme v) {intent_id proof : Option Json}
    {context : Json} {n n' : Nat} {result : AttestationResult}
    (hresult : engine.collectAttestations p scheme clock intent_id proof context n = .ok result n') :
    FollowsDecisions scheme engine result ↔
      ∀ i < engine.validators.length, SameTime p clock (n + 2 * i) := by
  unfold AttestationEngine.collectAttestations at hresult
  obtain ⟨attestations, n₁, hattestations, hresult⟩ := run_bind_eq_ok.mp hresult
  rw [bind_of_ok readClock_apply] at hresult
  cases hresult
  obtain ⟨hlength, hall⟩ := mapM_attest_spec hsigns hattestations
  rw [← hall]
  constructor
  · intro h
    exact List.all_eq_true.mpr h.signed
  · intro hvalid
    refine ⟨List.all_eq_true.mp hvalid, ?_⟩
    show (_ && engine.reached attestations.length _) = true ↔ _
    rw [hvalid, Bool.true_and, AttestationEngine.reached, hlength, ← List.countP_eq_length_filter,
      Option.any_eq_true]
    simp

/-! ## Three validators -/

def threeEngine : AttestationEngine := .ofCount (fun _ => ("key", "key")) 3

theorem threeEngine_signs : ∀ v ∈ threeEngine.validators, SignsTexts GovernanceEngine.plainScheme v := by
  intro v hv text salt text'
  obtain ⟨i, -, rfl⟩ := List.mem_map.mp hv
  show Except.ok ("key" ++ ":" ++ text == "key" ++ ":" ++ text') = _
  refine congrArg Except.ok (Bool.eq_iff_iff.mpr ?_)
  rw [beq_iff_eq, decide_eq_true_eq]
  constructor
  · intro h
    have hlist := congrArg String.toList h
    simp only [String.toList_append] at hlist
    exact (String.toList_injective (List.append_cancel_left hlist)).symm
  · rintro rfl
    rfl

def settledProof : Json :=
  .obj [("proof_fingerprint", .str "8f2a"), ("evidence", .obj [("tx_hash", .str "0x01")]),
    ("verification", .obj [("threshold_met", .bool true)])]

/-- The first milliseconds of 1970. -/
def earlyPlatform : Node.Platform :=
  { GovernanceEngine.plainPlatform with
    isoDate := fun t => "1970-01-01T00:00:00.00" ++ toString t ++ "Z"
    isoDate_ne_empty := fun t h => by
      have hlength := congrArg String.length h
      simp at hlength }

/-- What the engine says of the settled proof. -/
def collected (clock : Nat → Moment) : EStateM.Result Error Nat AttestationResult :=
  threeEngine.collectAttestations earlyPlatform GovernanceEngine.plainScheme clock (some (.str "intent_1"))
    (some settledProof) (.obj []) 0

/-- The decisions, whether the signatures are valid, and whether the quorum is met. -/
def shown : EStateM.Result Error Nat AttestationResult → Option (List Decision × Bool × Bool)
  | .ok result _ => some (result.attestations.map (·.decision), result.signatures_valid, result.quorum_met)
  | .error _ _ => none

/-- The clock stands still. -/
theorem still_clock_follows : ∃ result n', collected (fun _ => ⟨0, 0⟩) = .ok result n' ∧
    FollowsDecisions GovernanceEngine.plainScheme threeEngine result := by
  have hshown : shown (collected fun _ => ⟨0, 0⟩)
      = some ([.ACCEPT, .ACCEPT, .ACCEPT], true, true) := by decide +kernel
  cases h : collected fun _ => ⟨0, 0⟩ with
  | ok result n' =>
    exact ⟨result, n', rfl, (quorum_follows_decisions_iff _ _ _ threeEngine threeEngine_signs h).mpr
      fun i _ => rfl⟩
  | error e s =>
    rw [h] at hshown
    cases hshown

/-- A millisecond passes before the first record is dated: all accept, and the quorum is not met. -/
def tickingClock (n : Nat) : Moment := ⟨min n 1, 0⟩

theorem ticking_clock_fails : Monotone (fun n => (tickingClock n).now) ∧
    ∃ result n', collected tickingClock = .ok result n' ∧
      result.attestations.countP (·.decision = .ACCEPT) = 3 ∧ result.quorum_met = false ∧
      ¬ FollowsDecisions GovernanceEngine.plainScheme threeEngine result := by
  have hmono : Monotone (fun n => (tickingClock n).now) := by
    intro a b hab
    show min (a : Int) 1 ≤ min (b : Int) 1
    omega
  refine ⟨hmono, ?_⟩
  have hshown : shown (collected tickingClock)
      = some ([.ACCEPT, .ACCEPT, .ACCEPT], false, false) := by decide +kernel
  cases h : collected tickingClock with
  | ok result n' =>
    rw [h] at hshown
    obtain ⟨hdecisions, -, hquorum⟩ : result.attestations.map (·.decision) = [.ACCEPT, .ACCEPT, .ACCEPT] ∧
        result.signatures_valid = false ∧ result.quorum_met = false := by
      simpa [shown] using hshown
    have hcount : result.attestations.countP (·.decision = .ACCEPT) = 3 := by
      have hmap := congrArg (List.countP (· = Decision.ACCEPT)) hdecisions
      rw [List.countP_map] at hmap
      exact hmap
    refine ⟨result, n', rfl, hcount, hquorum, fun hfollows => ?_⟩
    have hmet := hfollows.quorum.mpr ⟨2, rfl, by omega⟩
    rw [hquorum] at hmet
    cases hmet
  | error e s =>
    rw [h] at hshown
    cases hshown

end SimpleL1.Settlement
