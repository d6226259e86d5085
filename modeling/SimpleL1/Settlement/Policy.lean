import SimpleL1.Js.Arithmetic
import SimpleL1.Node.Platform

/-!
# The policy engine

An intent is judged by the constitution and then by the rules of its type; every verdict is
appended to an audit log of at most 5000 entries. The daily limit is computed from that log.
The constitution can be replaced while the node runs: what it says of an intent comes with
the call.
-/

namespace SimpleL1.Settlement.PolicyEngine

open SimpleL1.Js

/-! ## Rules -/

inductive Rule where
  | networkWhitelist (allowed : List String) (reason : String)
  | assetWhitelist (allowed : List String) (reason : String)
  | amountLimit (max : Number) (reason : String)
  | minConfirmations (by_network : List (String × Number)) (reason : String)
  | quorum (reason : String)
  | treasuryMultisig (threshold_amount : Number) (reason : String)
  | timeDelay (delay_ms large_amount large_delay : Number) (reason : String)
  | dailyLimit (max_per_day : Number) (reason : String)
  /-- A rule of a type the engine does not know. -/
  | unknown (name : String)

/-- `rule.rule`. -/
def Rule.name : Rule → String
  | networkWhitelist .. => "network_whitelist"
  | assetWhitelist .. => "asset_whitelist"
  | amountLimit .. => "amount_limit"
  | minConfirmations .. => "min_confirmations"
  | quorum _ => "quorum"
  | treasuryMultisig .. => "treasury_multisig"
  | timeDelay .. => "time_delay_ms"
  | dailyLimit .. => "daily_limit"
  | unknown name => name

def networks : List String :=
  ["ethereum", "base", "arbitrum", "polygon", "bsc", "optimism", "bitcoin", "ton", "solana"]

def assets : List String := ["ETH", "USDT", "USDC", "WBTC", "BTC", "MATIC", "BNB", "TON", "SOL"]

def DEFAULT_POLICIES : List (String × List Rule) :=
  [("CROSS_CHAIN_DEPOSIT",
    [.networkWhitelist networks "Deposit network not whitelisted",
      .assetWhitelist assets "Asset not approved for deposits",
      .amountLimit (.int 1000000) "Single deposit exceeds constitutional limit (1M USD)",
      .minConfirmations [("ethereum", .int 12), ("base", .int 6), ("arbitrum", .int 1),
        ("polygon", .int 30), ("bsc", .int 15), ("optimism", .int 1), ("bitcoin", .int 6),
        ("ton", .int 3), ("solana", .int 32)] "Insufficient confirmations for this network",
      .quorum "Deposit requires 2/3 validator quorum"]),
    ("CROSS_CHAIN_WITHDRAWAL",
    [.networkWhitelist networks "Withdrawal network not whitelisted",
      .assetWhitelist assets "Asset not approved for withdrawals",
      .amountLimit (.int 500000) "Single withdrawal exceeds constitutional limit (500K USD)",
      .treasuryMultisig (.int 10000) "Withdrawal above 10K USD requires treasury multisig",
      .timeDelay (.int 0) (.int 50000) (.int 86400000)
        "Large withdrawal requires 24h constitutional delay",
      .dailyLimit (.int 2000000) "Daily withdrawal limit exceeded",
      .quorum "Withdrawal requires 2/3 validator quorum"]),
    ("TRANSFER",
    [.amountLimit (.int 10000000) "Transfer exceeds constitutional limit",
      .quorum "Transfer requires at least one self-attestation"])]

/-! ## Calls and the audit log -/

/-- What the constitution says of an intent. -/
structure DslResult where
  ok : Bool
  rule_id : Option Json
  reason : Option Json
  context : Option Json
  rules_evaluated : Nat

/-- The times that are read during a call: `Date.now()` in a delay rule, and the ISO texts in
the daily limit, in the pass and in the audit. -/
structure Clock where
  now : Number
  ruleTime : String
  passTime : String
  auditTime : String

/-- The arguments of `evaluate`, with what the constitution and the clocks answer during the call. -/
structure Call where
  intent_type : String
  intent : Option Json
  context : Json := .obj []
  dsl : JsM DslResult
  clock : Clock

structure AuditEntry where
  timestamp : String
  intent_type : String
  intent_id : Option Json
  sl1_address : Option Json
  asset : Option Json
  amount : Number
  rule : Json
  outcome : String
  reason : Json

abbrev AuditLog := List AuditEntry

inductive Result where
  | pass (policies_evaluated : Nat) (evaluated_at : String)
  | violation (rule reason : Option Json) (context : Option Json)

/-! ## Reads -/

/-- `a?.k`. -/
def field (a : Option Json) (k : String) : Option Json := a.bind (·.prop k)

/-- `a || b || ... || 0`. -/
def firstTruthy : List (JsM (Option Json)) → JsM (Option Json)
  | [] => .ok (some (.num (.int 0)))
  | x :: xs => do
    let v ← x
    if truthy v then .ok v else firstTruthy xs

def amountOf (sources : List (JsM (Option Json))) : JsM Number := do
  let v ← firstTruthy sources
  parseFloat v

/-- `intent.k || context.k`. -/
def Call.either (c : Call) (k : String) : JsM (Option Json) := do
  let own ← Node.member c.intent k
  if truthy own then .ok own else Node.member (some c.context) k

def listed (allowed : List String) (v : Option Json) : Bool :=
  truthy v && allowed.any fun s => strictEq (some (.str s)) v

/-- The names that every object has from its prototype. -/
def objectPrototype : List String :=
  ["constructor", "__proto__", "hasOwnProperty", "isPrototypeOf", "propertyIsEnumerable",
    "toLocaleString", "toString", "valueOf", "__defineGetter__", "__defineSetter__",
    "__lookupGetter__", "__lookupSetter__"]

/-- `by_network[network] ?? 1`; what is inherited is no number. -/
def requiredConfirmations (by_network : List (String × Number)) (network : String) : Number :=
  match by_network.lookup network with
  | some n => n
  | none => if network ∈ objectPrototype then .nan else .int 1

def isoDay (iso : String) : List Char := iso.toList.take 10

/-- The entry is a withdrawal of the asset from the address that passed on the day. -/
def isWithdrawal (day : List Char) (sl1_address asset : Option Json) (e : AuditEntry) : Bool :=
  e.intent_type = "CROSS_CHAIN_WITHDRAWAL" && e.outcome = "PASS" &&
    strictEq e.sl1_address sl1_address && strictEq e.asset asset && day.isPrefixOf e.timestamp.toList

def sumAmounts (log : AuditLog) : Number :=
  log.foldl (fun sum e => sum.add (if e.amount.truthy then e.amount else .int 0)) (.int 0)

def todayTotal (log : AuditLog) (day : List Char) (sl1_address asset : Option Json) : Number :=
  sumAmounts (log.filter (isWithdrawal day sl1_address asset))

/-! ## Evaluation -/

variable (p : Node.Platform)

def number (n : Number) : Option Json := some (.num n)

def details (fs : List (String × Option Json)) : Option Json := some (.obj (Fields.ofOptions fs))

def namesOf (allowed : List String) : Option Json := some (.arr (allowed.map Json.str))

/-- How long ago the intent was verified, if its history says so. -/
def sinceVerified (c : Call) (state_history : Option Json) : JsM (Option (Number × Number)) := do
  match state_history with
  | some (.arr entries) =>
    match ← Js.find (fun h => do
        let target ← Node.member (some h) "to"
        .ok (strictEq target (some (.str "VERIFIED")))) entries with
    | some entry => do
      let verified ← Node.newDate p (entry.prop "at")
      .ok (some (c.clock.now.add verified.neg, verified))
    | none => .ok none
  | _ => .error (.typeError "intent.state_history?.find is not a function")

/-- `_evaluateRule`: the context of the violation, if there is one. -/
def evaluateRule (c : Call) (log : AuditLog) : Rule → JsM (Option (Option Json))
  | .networkWhitelist allowed _ => do
    let network ← c.either "network"
    .ok (if listed allowed network then none
      else some (details [("network", network), ("allowed", namesOf allowed)]))
  | .assetWhitelist allowed _ => do
    let asset ← c.either "asset"
    .ok (if listed allowed asset then none
      else some (details [("asset", asset), ("allowed", namesOf allowed)]))
  | .amountLimit max _ => do
    let amount ← amountOf [Node.member c.intent "expected_amount", Node.member c.intent "amount",
      Node.member (some c.context) "amount"]
    .ok (if max.lt amount then some (details [("amount", number amount), ("max", number max)]) else none)
  | .minConfirmations by_network _ => do
    let network ← c.either "network"
    let required := requiredConfirmations by_network (← toStr network)
    let proof ← Node.member (some c.context) "proof"
    let confirmations := nullish (nullish (field (field proof "evidence") "confirmations")
      (c.context.prop "confirmations")) (number (.int 0))
    let count ← toNumber confirmations
    .ok (if count.lt required then some (details [("confirmations", confirmations),
      ("required", number required), ("network", network)]) else none)
  | .quorum _ => do
    let attestations ← Node.member (some c.context) "attestationResult"
    .ok (if truthy attestations && !truthy (field attestations "quorum_met") then
      some (details [("accepted", field attestations "accepted"),
        ("required", field attestations "required_threshold"),
        ("total", field attestations "total_validators")]) else none)
  | .treasuryMultisig threshold_amount _ => do
    let amount ← amountOf [Node.member c.intent "amount", Node.member (some c.context) "amount"]
    let threshold := if threshold_amount.truthy then threshold_amount else .int 10000
    .ok (if threshold.le amount && !strictEq (c.context.prop "treasury_signature") (some (.bool true))
      then some (details [("amount", number amount), ("threshold", number threshold)]) else none)
  | .timeDelay delay_ms large_amount large_delay _ => do
    let state_history ← Node.member c.intent "state_history"
    if !truthy state_history then return none
    let amount ← amountOf [Node.member c.intent "amount", Node.member (some c.context) "amount"]
    let isLarge := (if large_amount.truthy then large_amount else .infinity false).le amount
    let delayMs := if isLarge then large_delay else delay_ms
    if !delayMs.truthy then return none
    match ← sinceVerified p c state_history with
    | none => return none
    | some (elapsed, verified) =>
      if elapsed.lt delayMs then
        let unlocks_at ← Node.toISOString p (Node.timeClip (verified.add delayMs))
        return some (details [("elapsed_ms", number elapsed), ("required_ms", number delayMs),
          ("unlocks_at", some (.str unlocks_at))])
      return none
  | .dailyLimit max_per_day _ => do
    let sl1_address ← Node.member c.intent "sl1_address"
    let asset ← Node.member c.intent "asset"
    let amount ← amountOf [Node.member c.intent "amount"]
    let total := todayTotal log (isoDay c.clock.ruleTime) sl1_address asset
    .ok (if max_per_day.lt (total.add amount) then some (details [("today_total", number total),
      ("this_amount", number amount), ("daily_limit", number max_per_day)]) else none)
  | .unknown _ => .ok none

def Rule.reason : Rule → Option Json
  | networkWhitelist _ reason | assetWhitelist _ reason | amountLimit _ reason
  | minConfirmations _ reason | quorum reason | treasuryMultisig _ reason
  | timeDelay _ _ _ reason | dailyLimit _ reason => some (.str reason)
  | unknown _ => none

/-- The first rule that is violated, with the violation's context. -/
def firstViolation (c : Call) (log : AuditLog) : List Rule → JsM (Option (Rule × Option Json))
  | [] => .ok none
  | rule :: rules => do
    match ← evaluateRule p c log rule with
    | some context => .ok (some (rule, context))
    | none => firstViolation c log rules

/-- The last 5000 entries of a log that has become one entry too long. -/
def bounded (log : AuditLog) : AuditLog := if log.length > 5000 then log.tail else log

/-- The amount that is recorded: `parseFloat(intent?.amount || intent?.expected_amount || 0)`. -/
def Call.amount (c : Call) : JsM Number :=
  amountOf [.ok (field c.intent "amount"), .ok (field c.intent "expected_amount")]

def entryOf (c : Call) (amount : Number) (rule reason : Option Json) (outcome : String) : AuditEntry where
  timestamp := c.clock.auditTime
  intent_type := c.intent_type
  intent_id := field c.intent "intent_id"
  sl1_address := field c.intent "sl1_address"
  asset := field c.intent "asset"
  amount
  rule := orNull rule
  outcome
  reason := orNull reason

/-- `_audit`. -/
def audit (c : Call) (log : AuditLog) (rule reason : Option Json) (outcome : String) : JsM AuditLog := do
  let amount ← c.amount
  .ok (bounded (log ++ [entryOf c amount rule reason outcome]))

/-- `this.policies[intent_type]`; what is inherited cannot be iterated. -/
def rulesFor (policies : List (String × List Rule)) (intent_type : String) : JsM (Option (List Rule)) :=
  match policies.lookup intent_type with
  | some rules => .ok (some rules)
  | none =>
    if intent_type ∈ objectPrototype then .error (.typeError "rules is not iterable") else .ok none

/-- The result of a call and the audit log after it. -/
def evaluate (policies : List (String × List Rule)) (c : Call) (log : AuditLog) :
    JsM (Result × AuditLog) := do
  let dslResult ← c.dsl
  if !dslResult.ok then
    let log ← audit c log dslResult.rule_id dslResult.reason "VIOLATION"
    return (.violation dslResult.rule_id dslResult.reason dslResult.context, log)
  match ← rulesFor policies c.intent_type with
  | none =>
    let log ← audit c log none none "PASS"
    return (.pass dslResult.rules_evaluated c.clock.passTime, log)
  | some rules =>
    match ← firstViolation p c log rules with
    | some (rule, context) =>
      let log ← audit c log (some (.str rule.name)) rule.reason "VIOLATION"
      return (.violation (some (.str rule.name)) rule.reason context, log)
    | none =>
      let log ← audit c log none none "PASS"
      return (.pass (rules.length + dslResult.rules_evaluated) c.clock.passTime, log)

end SimpleL1.Settlement.PolicyEngine
