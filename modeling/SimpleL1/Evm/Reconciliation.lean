import SimpleL1.Evm.Canonicalizer
import SimpleL1.Js.Array
import SimpleL1.Js.NumericString

/-!
# Reconciliation

`reconcile` looks in a finalized graph for the transfer that an intent asks for, or for the one intent of
a list that has such a transfer. Token transfers are taken from the nodes of the graph and transfers of
the native coin from its transaction; each of the two has its own filter.
-/

namespace SimpleL1.Evm.Reconciliation

open SimpleL1.Js

inductive Status where
  | MATCHED
  | NOT_MATCHED
  | AMBIGUOUS
  | NOT_ELIGIBLE
  deriving DecidableEq, Repr

structure Result where
  status : Status
  reason_codes : List String
  matched_fact_id : Option String
  deriving DecidableEq, Repr

/-! ## Big integers -/

/-- The value of the double that prints as `n`. -/
def doubleValue (n : Int) : Int :=
  match Number.nearestDouble n.natAbs 1 with
  | some (m, e) => n.sign * (if 0 ≤ e then m * 2 ^ e.toNat else m / 2 ^ (-e).toNat : Nat)
  | none => n

/-- Decimal digits, signed. -/
def signedDigits : List Char → Option Int
  | '-' :: ds => if ds ≠ [] ∧ ds.all Char.isDigit then some (-(Nat.ofDigitChars 10 ds 0 : Int)) else none
  | '+' :: ds => if ds ≠ [] ∧ ds.all Char.isDigit then some (Nat.ofDigitChars 10 ds 0) else none
  | ds => if ds ≠ [] ∧ ds.all Char.isDigit then some (Nat.ofDigitChars 10 ds 0) else none

def radixDigits (b : Nat) (ds : List Char) : Option Int :=
  if ds ≠ [] ∧ ds.all fun c => Number.digitValue c < b then
    some (ds.foldl (fun n c => b * n + Number.digitValue c) 0 : Nat)
  else none

def readBigInt (s : String) : Option Int :=
  match trimChars s.toList with
  | [] => some 0
  | '0' :: c :: ds =>
    if c = 'x' ∨ c = 'X' then radixDigits 16 ds
    else if c = 'o' ∨ c = 'O' then radixDigits 8 ds
    else if c = 'b' ∨ c = 'B' then radixDigits 2 ds
    else signedDigits ('0' :: c :: ds)
  | cs => signedDigits cs

/-- `BigInt(v)` -/
def bigInt : Option Json → JsM Int
  | none => throw (.typeError "Cannot convert undefined to a BigInt")
  | some .null => throw (.typeError "Cannot convert null to a BigInt")
  | some (.bool b) => return if b then 1 else 0
  | some (.num (.int n)) => return doubleValue n
  | some (.num n) =>
    throw (.error ("The number " ++ n.toString ++ " cannot be converted to a BigInt because it is not an integer"))
  | some v => do
    let text ← v.toStr
    match readBigInt text with
    | some n => return n
    | none => throw (bigIntError text)

example : bigInt (some (.str "0x10")) = .ok 16 := by rfl

/-! ## Candidates -/

/-- A node of type `ERC20_TRANSFER_NODE`: its inputs are those of the log, and the decoded transfer. -/
structure TransferNode where
  fact : LogFact
  transfer : Erc20Transfer

def erc20TransferNodes (graph : FactGraph) : List TransferNode :=
  graph.nodes.filterMap fun
    | .erc20 fact transfer => some ⟨fact, transfer⟩
    | _ => none

/-- The facts of the nodes of type `EVM_LOG_NODE`. -/
def logNodeFacts (graph : FactGraph) : List LogFact :=
  graph.nodes.filterMap fun
    | .log fact => some fact
    | _ => none

/-- The facts of type `EVM_TX`. -/
def txFacts (graph : FactGraph) : List TxFact := [graph.txFact]

/-- `x && y` -/
def both (x y : JsM Bool) : JsM Bool := do
  if ← x then y else return false

section
variable (p : Node.Platform)

def same (left right : Option Json) : JsM Bool := do
  let l ← strOrEmpty left
  let r ← strOrEmpty right
  return p.lower l = p.lower r

/-- `!intent.sender || same(sender, intent.sender)` -/
def senderMeets (sender : String) (intent : Json) : JsM Bool :=
  if truthy (intent.prop "sender") then same p (some (.str sender)) (intent.prop "sender") else return true

/-- `BigInt(moved) >= BigInt(intent.amount_raw)` -/
def amountMeets (moved : String) (intent : Json) : JsM Bool := do
  let moved ← bigInt (some (.str moved))
  let asked ← bigInt (intent.prop "amount_raw")
  return asked ≤ moved

def erc20Meets (intent : Json) (node : TransferNode) : JsM Bool :=
  both (same p (some (.str node.fact.chain_id)) (intent.prop "chain_id")) <|
  both (same p (some (.str node.transfer.token_contract)) (intent.prop "token_contract")) <|
  both (senderMeets p node.transfer.topic_from intent) <|
  both (same p (some (.str node.transfer.topic_to)) (intent.prop "recipient")) <|
  amountMeets node.transfer.raw_amount intent

def nativeMeets (intent : Json) (fact : TxFact) : JsM Bool :=
  both (return fact.receipt_status = "1") <|
  both (same p (some (.str fact.chain_id)) (intent.prop "chain_id")) <|
  both (senderMeets p fact.raw_data.from_address intent) <|
  both (same p (some (.str fact.raw_data.to_address)) (intent.prop "recipient")) <|
  amountMeets fact.raw_data.value intent

/-- More than one log of the graph is from the transaction. -/
def isCompositeTransaction (graph : FactGraph) (chain_id tx_hash : String) : JsM Bool := do
  let logs ← filter (fun fact => both (same p (some (.str fact.chain_id)) (some (.str chain_id)))
    (same p (some (.str fact.tx_hash)) (some (.str tx_hash)))) (logNodeFacts graph)
  return logs.length > 1

/-! ## Reconciling -/

def result (status : Status) (reasonCode : String) (matchedFactId : Option String) : Result :=
  { status, reason_codes := [reasonCode], matched_fact_id := matchedFactId }

def hasType (intent : Json) (type : String) : Bool := strictEq (intent.prop "intent_type") (some (.str type))

def isSupported (intent : Json) : Bool :=
  intent.truthy && (hasType intent "ERC20_TRANSFER" || hasType intent "EVM_NATIVE_TRANSFER")

/-- `intent.duplicate_intent_count && Number(intent.duplicate_intent_count) > 1` -/
def markedDuplicate (intent : Json) : JsM Bool :=
  if truthy (intent.prop "duplicate_intent_count") then do
    let count ← toNumber (intent.prop "duplicate_intent_count")
    return (Number.int 1).lt count
  else return false

def reconcileNativeTransfer (graph : FactGraph) (intent : Json) : JsM Result := do
  match ← filter (nativeMeets p intent) (txFacts graph) with
  | [] => return result .NOT_MATCHED "EVM_NATIVE_TRANSFER_INTENT_NOT_MATCHED" none
  | [fact] => return result .MATCHED "EVM_NATIVE_TRANSFER_INTENT_MATCHED" (some fact.fact_id)
  | _ => return result .AMBIGUOUS "MULTIPLE_MATCHING_EVM_NATIVE_TRANSFERS" none

/-- The branch of `reconcile` for an intent of type `ERC20_TRANSFER`. -/
def reconcileErc20Transfer (graph : FactGraph) (intent : Json) : JsM Result := do
  match ← filter (erc20Meets p intent) (erc20TransferNodes graph) with
  | [] => return result .NOT_MATCHED "ERC20_TRANSFER_INTENT_NOT_MATCHED" none
  | [node] => do
    if ← isCompositeTransaction p graph node.fact.chain_id node.fact.tx_hash then
      return result .AMBIGUOUS "COMPOSITE_TRANSACTION_REQUIRES_FACT_SELECTOR" none
    else return result .MATCHED "ERC20_TRANSFER_INTENT_MATCHED" (some node.fact.fact_id)
  | _ => return result .AMBIGUOUS "MULTIPLE_MATCHING_ERC20_TRANSFERS" none

/-- What `reconcile` does with what is no list, on a finalized verdict; `null` stands for `undefined` too. -/
def reconcileIntent (graph : FactGraph) (intent : Json) : JsM Result := do
  if isSupported intent = false then return result .NOT_MATCHED "UNSUPPORTED_OR_MISSING_INTENT" none
  else if ← markedDuplicate intent then return result .AMBIGUOUS "DUPLICATE_INTENT_CANDIDATES" none
  else if hasType intent "EVM_NATIVE_TRANSFER" then reconcileNativeTransfer p graph intent
  else reconcileErc20Transfer p graph intent

/-- What a list makes of the results of its members. -/
def selectMatch (results : List Result) : Result :=
  match results.filter fun r => r.status = .MATCHED with
  | [] => result .NOT_MATCHED "NO_INTENT_CANDIDATE_MATCHED" none
  | [r] => r
  | _ => result .AMBIGUOUS "MULTIPLE_INTENT_CANDIDATES_MATCHED" none

mutual

/-- `reconcile`, on a finalized verdict. -/
def reconcileFinalized (graph : FactGraph) : Json → JsM Result
  | .arr intents => selectMatch <$> reconcileMembers graph intents
  | intent => reconcileIntent p graph intent

def reconcileMembers (graph : FactGraph) : List Json → JsM (List Result)
  | [] => return []
  | intent :: intents => do
    let r ← reconcileFinalized graph intent
    let rs ← reconcileMembers graph intents
    return r :: rs

end

/-- `fplVerdict && fplVerdict.verdict === 'finalized'` -/
def isFinalized (fplVerdict : Option Json) : Bool :=
  truthy fplVerdict && strictEq (fplVerdict.bind (·.prop "verdict")) (some (.str "finalized"))

def reconcile (finalizedGraph : FactGraph) (fplVerdict : Option Json) (intent : Json) : JsM Result :=
  if isFinalized fplVerdict then reconcileFinalized p finalizedGraph intent
  else return result .NOT_ELIGIBLE "FPL_VERDICT_NOT_FINALIZED" none

end

/-! ## What is read -/

theorem both_eq_true {x y : JsM Bool} : both x y = .ok true ↔ x = .ok true ∧ y = .ok true := by
  unfold both
  rw [bind_eq_ok]
  constructor
  · rintro ⟨b, hb, hy⟩
    cases b with
    | true => exact ⟨hb, hy⟩
    | false => cases hy
  · rintro ⟨hx, hy⟩
    exact ⟨true, hx, hy⟩

variable {p : Node.Platform} {graph : FactGraph}

/-- Two texts are compared, whatever they are. -/
theorem same_str (s t : String) : same p (some (.str s)) (some (.str t)) = .ok (decide (p.lower s = p.lower t)) := by
  unfold same
  rw [strOrEmpty_str, strOrEmpty_str]
  rfl

theorem isCompositeTransaction_ok (chain_id tx_hash : String) :
    ∃ b, isCompositeTransaction p graph chain_id tx_hash = .ok b := by
  have hall : ∀ fact ∈ logNodeFacts graph, ∃ keep, both (same p (some (.str fact.chain_id)) (some (.str chain_id)))
      (same p (some (.str fact.tx_hash)) (some (.str tx_hash))) = .ok keep := by
    intro fact _
    rw [same_str, same_str]
    unfold both
    rw [ok_bind]
    split <;> exact ⟨_, rfl⟩
  obtain ⟨logs, hlogs⟩ := exists_filter.mpr hall
  unfold isCompositeTransaction
  rw [hlogs]
  exact ⟨_, rfl⟩

theorem reconcileMembers_eq_mapM (intents : List Json) :
    reconcileMembers p graph intents = intents.mapM (reconcileFinalized p graph) := by
  induction intents with
  | nil => rfl
  | cons intent intents ih => rw [reconcileMembers, List.mapM_cons, ih]

end SimpleL1.Evm.Reconciliation
