import SimpleL1.Settlement.Policy

/-!
# The constitution

The interpreter of the declarative rules: conditions over facts that are read from
the intent and the context, and the rules of an intent type in order, of which the
first that denies or allows decides. The constitution is the one that is shipped.
A field of the context takes the place of the fact of its name.
-/

namespace SimpleL1.Settlement.PolicyEngine

open SimpleL1.Js

/-! ## Conditions -/

inductive Op where
  | eq | neq | gt | gte | lt | lte | in_list | not_in | exists_ | not_exists | matches_
  /-- An operator the interpreter does not know. -/
  | unknown (name : String)

/-- A condition on the facts; a field is written as its path, split at the dots. -/
inductive Condition where
  | compare (field : List String) (op : Op) (value : Json)
  | and (conditions : List Condition)
  | or (conditions : List Condition)
  | not (condition : Condition)

inductive DslAction where
  | deny | allow | require
  /-- An action the interpreter does not know. -/
  | unknown (name : String)

structure DslRule where
  id : String
  condition : Option Condition
  action : DslAction
  reason : String
  requirements : Option Json := none

structure DslPolicy where
  intent_type : String
  rules : List DslRule

/-- `a == b`. -/
def looseEq (a b : Option Json) : JsM Bool :=
  let isObject : Option Json → Bool
    | some (.arr _) | some (.obj _) => true
    | _ => false
  let primitive (v : Option Json) : JsM (Option Json) :=
    if isObject v then (some ∘ Json.str) <$> toStr v else return v
  let isNullish : Option Json → Bool
    | none | some .null => true
    | _ => false
  if isNullish a || isNullish b then return isNullish a && isNullish b
  -- two objects are the same only by reference
  else if isObject a && isObject b then return false
  else do
    match ← primitive a, ← primitive b with
    | some (.str s), some (.str t) => return s == t
    | a, b => do
      let x ← toNumber a
      let y ← toNumber b
      return x == y && x != .nan

/-- `field.split('.').reduce((obj, key) => obj?.[key], facts)`. -/
def getField (facts : Fields) (path : List String) : Option Json :=
  path.foldl field (some (.obj facts))

section
variable (test : String → String → JsM Bool)

/-- A comparison; `test` is what a regular expression says of a text. -/
def Op.holds (factValue : Option Json) (value : Json) : Op → JsM Bool
  | .eq => looseEq factValue (some value)
  | .neq => not <$> looseEq factValue (some value)
  | .gt => do return (← parseFloat (some value)).lt (← parseFloat factValue)
  | .gte => do return (← parseFloat (some value)).le (← parseFloat factValue)
  | .lt => do return (← parseFloat factValue).lt (← parseFloat (some value))
  | .lte => do return (← parseFloat factValue).le (← parseFloat (some value))
  | .in_list => return match value with
    | .arr xs => xs.any fun x => strictEq (some x) factValue
    | _ => false
  | .not_in => return match value with
    | .arr xs => !xs.any fun x => strictEq (some x) factValue
    | _ => false
  | .exists_ => return (nullish factValue none).isSome
  | .not_exists => return (nullish factValue none).isNone
  | .matches_ => match factValue, value with
    | some (.str s), .str pattern => test pattern s
    | _, _ => return false
  | .unknown _ => return false

mutual

/-- `_evaluateCondition`. -/
def Condition.holds (facts : Fields) : Condition → JsM Bool
  | .compare path op value => op.holds test (getField facts path) value
  | .and conditions => allHold facts conditions
  | .or conditions => someHolds facts conditions
  | .not condition => do return !(← condition.holds facts)

def allHold (facts : Fields) : List Condition → JsM Bool
  | [] => return true
  | condition :: conditions => do
    if ← condition.holds facts then allHold facts conditions else return false

def someHolds (facts : Fields) : List Condition → JsM Bool
  | [] => return false
  | condition :: conditions => do
    if ← condition.holds facts then return true else someHolds facts conditions

end

/-! ## Rules -/

structure Requirement where
  rule_id : String
  reason : String
  requirements : Json

inductive DslOutcome where
  | pass (rules_evaluated : Nat) (requirements : List Requirement)
  | violation (rule_id reason : String) (facts_snapshot : Fields)

/-- The facts without the signature of the treasury. -/
def snapshot (facts : Fields) : Fields := facts.filter (·.1 ≠ "treasury_signature")

/-- The condition of the rule holds; a rule without one is skipped. -/
def DslRule.applies (facts : Fields) (rule : DslRule) : JsM Bool :=
  match rule.condition with
  | some condition => condition.holds test facts
  | none => return false

/-- The rules of a policy, of which `evaluated` were reached before. -/
def evaluateRules (facts : Fields) :
    List DslRule → (evaluated : Nat) → List Requirement → JsM DslOutcome
  | [], evaluated, requirements => return .pass evaluated requirements
  | rule :: rules, evaluated, requirements => do
    let conditionMet ← rule.applies test facts
    if !conditionMet then evaluateRules facts rules (evaluated + 1) requirements
    else
      match rule.action with
      | .deny => return .violation rule.id rule.reason (snapshot facts)
      | .allow => return .pass (evaluated + 1) requirements
      | .require =>
        let requirement := ⟨rule.id, rule.reason, rule.requirements.getD (.obj [])⟩
        evaluateRules facts rules (evaluated + 1) (requirements ++ [requirement])
      | .unknown _ => evaluateRules facts rules (evaluated + 1) requirements

/-- `evaluate`; a name that the index inherits has no rules. -/
def evaluatePolicies (policies : List DslPolicy) (intent_type : String) (facts : Fields) : JsM DslOutcome :=
  match policies.reverse.find? (·.intent_type = intent_type) with
  | some policy => evaluateRules test facts policy.rules 0 []
  | none =>
    if intent_type ∈ objectPrototype then throw (.typeError "policy.rules is not iterable")
    else return .pass 0 []

end

/-! ## Facts -/

/-- `_computeDelay` at the time `now`: without a history that says when the intent was verified, no
delay is imposed. -/
def computeDelay (p : Node.Platform) (now : Number) (intent : Option Json) : JsM Number :=
  let state_history := field intent "state_history"
  if !truthy state_history then return .infinity false
  else do
    match state_history with
    | some (.arr entries) =>
      match ← Js.find (fun h => do
          let target ← Node.member (some h) "to"
          return strictEq target (some (.str "VERIFIED"))) entries with
      | some entry =>
        let verified ← Node.newDate p (entry.prop "at")
        return now.add verified.neg
      | none => return .infinity false
    | _ => throw (.typeError "intent.state_history.find is not a function")

def buildFacts (p : Node.Platform) (now : Number) (intent context : Option Json) : JsM Fields := do
  let amount ← amountOf [.ok (field intent "amount"), .ok (field intent "expected_amount"),
    .ok (field context "amount")]
  let evidence := field (field context "proof") "evidence"
  let delay ← computeDelay p now intent
  let self_transfer := truthy (field intent "sl1_address") && truthy (field context "recipient")
    && strictEq (field intent "sl1_address") (field context "recipient")
  let facts := Fields.ofOptions [
    ("network", field intent "network"),
    ("asset", field intent "asset"),
    ("amount", number amount),
    ("sl1_address", field intent "sl1_address"),
    ("intent_type", field intent "type"),
    ("intent_state", field intent "state"),
    ("confirmations", nullish (field evidence "confirmations")
      (nullish (field context "confirmations") (number (.int 0)))),
    ("block_number", nullish (field evidence "block_number") (some .null)),
    ("treasury_signature", nullish (field context "treasury_signature") (some (.bool false))),
    ("delay_elapsed_ms", number delay),
    ("jurisdiction", nullish (field context "jurisdiction") (some .null)),
    ("self_transfer", some (.bool self_transfer))]
  return Node.merge facts (Node.spread context)

/-! ## The shipped constitution -/

/-- The network, or the asset, is not one of those listed. -/
def notListed (name : String) (allowed : List String) : Condition :=
  .compare [name] .not_in (.arr (allowed.map Json.str))

def compareAmount (op : Op) (bound : Number) : Condition := .compare ["amount"] op (.num bound)

def CONSTITUTION : List DslPolicy :=
  [{ intent_type := "CROSS_CHAIN_DEPOSIT"
     rules := [
      ⟨"deposit:network-whitelist", some (notListed "network" networks), .deny,
        "Deposit network is not constitutionally whitelisted", none⟩,
      ⟨"deposit:asset-whitelist", some (notListed "asset" assets), .deny,
        "Asset is not approved for deposit", none⟩,
      ⟨"deposit:amount-ceiling", some (compareAmount .gt (.int 1000000)), .deny,
        "Single deposit exceeds constitutional ceiling (1M)", none⟩,
      ⟨"deposit:bitcoin-confirmations", some (.and [.compare ["network"] .eq (.str "bitcoin"),
        .compare ["confirmations"] .lt (.num (.int 6))]), .deny,
        "Bitcoin deposit requires 6 confirmations", none⟩,
      ⟨"deposit:evm-confirmations", some (.and [.compare ["network"] .in_list (.arr [.str "polygon"]),
        .compare ["confirmations"] .lt (.num (.int 30))]), .deny,
        "Polygon deposit requires 30 confirmations", none⟩] },
   { intent_type := "CROSS_CHAIN_WITHDRAWAL"
     rules := [
      ⟨"withdrawal:network-whitelist", some (notListed "network" networks), .deny,
        "Withdrawal network is not constitutionally whitelisted", none⟩,
      ⟨"withdrawal:asset-whitelist", some (notListed "asset" assets), .deny,
        "Asset is not approved for withdrawal", none⟩,
      ⟨"withdrawal:amount-ceiling", some (compareAmount .gt (.int 500000)), .deny,
        "Single withdrawal exceeds constitutional ceiling (500K)", none⟩,
      ⟨"withdrawal:large-multisig", some (.and [compareAmount .gte (.int 10000),
        .compare ["treasury_signature"] .eq (.bool false)]), .require,
        "Withdrawal above 10,000 requires treasury multisig co-signature",
        some (.obj [("treasury_multisig", .bool true),
          ("description", .str "Treasury multisig required for this withdrawal")])⟩,
      ⟨"withdrawal:large-delay", some (.and [compareAmount .gte (.int 50000),
        .compare ["delay_elapsed_ms"] .lt (.num (.int 86400000))]), .deny,
        "Withdrawal above 50,000 requires 24h constitutional delay", none⟩,
      ⟨"withdrawal:bitcoin-min", some (.and [.compare ["network"] .eq (.str "bitcoin"),
        compareAmount .lt (.dec 1 2)]), .deny,
        "Bitcoin withdrawal below dust threshold (0.001 BTC)", none⟩] },
   { intent_type := "TRANSFER"
     rules := [
      ⟨"transfer:amount-ceiling", some (compareAmount .gt (.int 10000000)), .deny,
        "Transfer exceeds constitutional ceiling (10M SL1)", none⟩,
      ⟨"transfer:self-transfer", some (.compare ["self_transfer"] .eq (.bool true)), .deny,
        "Self-transfer is not constitutionally admissible", none⟩] }]

/-! ## Both layers -/

/-- What the engine takes over from the interpreter. -/
def DslOutcome.result : DslOutcome → DslResult
  | .pass rules_evaluated _ => ⟨true, none, none, none, rules_evaluated⟩
  | .violation rule_id reason facts => ⟨false, some (.str rule_id), some (.str reason),
      details [("facts_snapshot", some (.obj facts))], 0⟩

/-- A call of `evaluate` by the default policies and the shipped constitution; `dslNow` is what the
clock shows when the facts are built. -/
def shippedCall (p : Node.Platform) (test : String → String → JsM Bool) (intent_type : String)
    (intent : Option Json) (context : Json) (dslNow : Number) (clock : Clock) : Call where
  intent_type
  intent
  context
  dsl := do
    let facts ← buildFacts p dslNow intent (some context)
    DslOutcome.result <$> evaluatePolicies test CONSTITUTION intent_type facts
  clock

end SimpleL1.Settlement.PolicyEngine
