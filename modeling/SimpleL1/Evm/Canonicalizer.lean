import SimpleL1.Node.Platform

/-!
# Canonical facts of a receipt

`canonicalizeEthReceipt` turns a receipt and its transaction, as a provider spells them, into facts: one
for the transaction and one for each log, with ids that hash what identifies them. The facts span a
graph, in which a log that looks like a token transfer gets a node with the decoded transfer.
-/

namespace SimpleL1.Evm

open SimpleL1.Js

/-- A value as a provider hands it over: JSON, and big integers. -/
inductive Raw where
  | null
  | bool (b : Bool)
  | num (n : Number)
  | bigint (n : Int)
  | str (s : String)
  | arr (xs : List Raw)
  | obj (fields : List (String × Raw))

namespace Raw

/-- `v.k`, on what is neither `undefined` nor `null`. -/
def prop : Raw → String → Option Raw
  | obj fs, k => fs.lookup k
  | _, _ => none

def truthy : Raw → Bool
  | null => false
  | bool b => b
  | num n => n.truthy
  | bigint n => n ≠ 0
  | str s => s ≠ ""
  | arr _ | obj _ => true

end Raw

def TX_FACT_TYPE : String := "EVM_TX"

def LOG_FACT_TYPE : String := "EVM_LOG"

def TX_NODE_TYPE : String := "EVM_TX_NODE"

def LOG_NODE_TYPE : String := "EVM_LOG_NODE"

def ERC20_TRANSFER_NODE_TYPE : String := "ERC20_TRANSFER_NODE"

def REVERT_NODE_TYPE : String := "REVERT_NODE"

def ERC20_TRANSFER_TOPIC : String := "0xddf252ad1be2c89b69c2b068fc378daa952ba7f163c4a11628f55a4df523b3ef"

/-! ## Texts -/

/-- `s.toLowerCase()`, for a text that is then tested to be hexadecimal. -/
def toLowerCase (s : String) : String := String.ofList (s.toList.map Char.toLower)

/-- The digits after `0x`, where `/^0x[0-9a-f]*$/` matches. -/
def hexDigits (s : String) : Option (List Char) :=
  match s.toList with
  | '0' :: 'x' :: ds => if ds.all Node.isHexDigit then some ds else none
  | _ => none

def decimal (n : Nat) : String := String.ofList (Number.digits n)

/-- The number that hexadecimal digits spell, in either case. -/
def hexValue (ds : List Char) : Nat := ds.foldl (fun n c => 16 * n + Number.digitValue c) 0

/-- The digits after `0x`, where `/^0x[0-9a-fA-F]+$/` matches. -/
def hexQuantity (s : String) : Option (List Char) :=
  match s.toList with
  | '0' :: 'x' :: ds => if ds ≠ [] ∧ ds.all (fun c => Node.isHexDigit c.toLower) then some ds else none
  | _ => none

/-- `/^(0|[1-9][0-9]*)$/` -/
def isDecimal (s : String) : Bool :=
  match s.toList with
  | ['0'] => true
  | c :: ds => c ≠ '0' && c.isDigit && ds.all Char.isDigit
  | [] => false

def assertObject (value : Option Raw) (name : String) : JsM (List (String × Raw)) :=
  match value with
  | some (.obj fs) => return fs
  | _ => throw (.error (name ++ " must be an object"))

def requiredString (value : Option Raw) (name : String) : JsM String :=
  match value with
  | some (.str s) => if s ≠ "" then return s else throw (.error (name ++ " is required"))
  | _ => throw (.error (name ++ " is required"))

def normalizeHex (value : Option Raw) (name : String) : JsM String := do
  let normalized := toLowerCase (← requiredString value name)
  if (hexDigits normalized).isSome then return normalized
  else throw (.error (name ++ " must be 0x-prefixed lowercase-normalizable hex"))

/-- Hexadecimal text of a length in digits. -/
def normalizeFixed (digits : Nat) (message : String) (value : Option Raw) (name : String) : JsM String := do
  let normalized ← normalizeHex value name
  if (hexDigits normalized).any (fun ds => ds.length = digits) then return normalized
  else throw (.error (name ++ message))

def normalizeAddress (value : Option Raw) (name : String) : JsM String :=
  normalizeFixed 40 " must be a 20-byte address" value name

def normalizeHash (value : Option Raw) (name : String) : JsM String :=
  normalizeFixed 64 " must be a 32-byte hash" value name

def isSafeInteger : Number → Bool
  | .int n => n.natAbs ≤ 2 ^ 53 - 1
  | _ => false

def quantityToDecimalString (value : Option Raw) (name : String) : JsM String :=
  match value with
  | some (.bigint n) => return (if n < 0 then "-" else "") ++ decimal n.natAbs
  | some (.num n) =>
    if !(isSafeInteger n) || n.lt (.int 0) then throw (.error (name ++ " must be a non-negative safe integer"))
    else return n.toString
  | some (.str s) =>
    match hexQuantity s with
    | some ds => return decimal (hexValue ds)
    | none =>
      if isDecimal s then return s
      else throw (.error (name ++ " must be a non-negative decimal or hex quantity"))
  | _ => throw (.error (name ++ " must be a non-negative decimal or hex quantity"))

def given : Option Raw → Bool
  | none | some .null => false
  | _ => true

def normalizeNullableHex (value : Option Raw) (name : String) : JsM (Option String) :=
  if given value then some <$> normalizeHex value name else return none

def firstDefined (values : List (Option Raw)) : Option Raw := (values.find? given).getD none

/-! ## Facts -/

structure TxRawData where
  effective_gas_price : String
  from_address : String
  gas_used : String
  input : Option String
  to_address : String
  value : String
  deriving DecidableEq, Repr

structure TxFact where
  fact_id : String
  chain_id : String
  block_number : String
  block_hash : String
  tx_hash : String
  transaction_index : String
  receipt_status : String
  raw_data : TxRawData
  observed_at : String
  source : String
  timestamp : Option String
  deriving DecidableEq, Repr

structure LogFact where
  fact_id : String
  chain_id : String
  block_number : String
  block_hash : String
  tx_hash : String
  transaction_index : String
  receipt_status : String
  log_index : String
  emitter_address : String
  event_signature : Option String
  topics : List String
  data : String
  observed_at : String
  source : String
  timestamp : Option String
  deriving DecidableEq, Repr

def textOrNull (s : Option String) : Json := s.elim .null .str

def textList (xs : List String) : Json := .arr (xs.map .str)

def TxFact.identity (fact : TxFact) : Json :=
  .obj [("block_hash", .str fact.block_hash), ("chain_id", .str fact.chain_id),
    ("receipt_status", .str fact.receipt_status), ("transaction_index", .str fact.transaction_index),
    ("tx_hash", .str fact.tx_hash)]

def LogFact.rawData (fact : LogFact) : Json := .obj [("data", .str fact.data)]

def LogFact.identity (fact : LogFact) : Json :=
  .obj [("block_hash", .str fact.block_hash), ("chain_id", .str fact.chain_id),
    ("emitter_address", .str fact.emitter_address), ("event_signature", textOrNull fact.event_signature),
    ("log_index", .str fact.log_index), ("raw_data", fact.rawData), ("topics", textList fact.topics),
    ("tx_hash", .str fact.tx_hash)]

def TxFact.value (fact : TxFact) : Json :=
  .obj [("fact_id", .str fact.fact_id), ("fact_type", .str TX_FACT_TYPE), ("chain_id", .str fact.chain_id),
    ("block_number", .str fact.block_number), ("block_hash", .str fact.block_hash), ("tx_hash", .str fact.tx_hash),
    ("transaction_index", .str fact.transaction_index), ("receipt_status", .str fact.receipt_status),
    ("log_index", .null), ("emitter_address", .null), ("event_signature", .null), ("topics", .arr []),
    ("raw_data", .obj [("effective_gas_price", .str fact.raw_data.effective_gas_price),
      ("from", .str fact.raw_data.from_address), ("gas_used", .str fact.raw_data.gas_used),
      ("input", textOrNull fact.raw_data.input), ("to", .str fact.raw_data.to_address),
      ("value", .str fact.raw_data.value)]),
    ("observed_at", .str fact.observed_at), ("source", .str fact.source), ("timestamp", textOrNull fact.timestamp)]

def LogFact.value (fact : LogFact) : Json :=
  .obj [("fact_id", .str fact.fact_id), ("fact_type", .str LOG_FACT_TYPE), ("chain_id", .str fact.chain_id),
    ("block_number", .str fact.block_number), ("block_hash", .str fact.block_hash), ("tx_hash", .str fact.tx_hash),
    ("transaction_index", .str fact.transaction_index), ("receipt_status", .str fact.receipt_status),
    ("log_index", .str fact.log_index), ("emitter_address", .str fact.emitter_address),
    ("event_signature", textOrNull fact.event_signature), ("topics", textList fact.topics),
    ("raw_data", fact.rawData), ("observed_at", .str fact.observed_at), ("source", .str fact.source),
    ("timestamp", textOrNull fact.timestamp)]

/-! ## The graph -/

structure Erc20Transfer where
  token_contract : String
  topic_from : String
  topic_to : String
  raw_amount : String
  deriving DecidableEq, Repr

inductive GraphNode where
  | tx (fact : TxFact)
  | revert (fact : TxFact)
  | log (fact : LogFact)
  | erc20 (fact : LogFact) (transfer : Erc20Transfer)
  deriving DecidableEq, Repr

namespace GraphNode

def id : GraphNode → String
  | tx fact => "evm_tx:" ++ fact.fact_id
  | revert fact => "evm_revert:" ++ fact.fact_id
  | log fact => "evm_log:" ++ fact.fact_id
  | erc20 fact _ => "erc20_transfer:" ++ fact.fact_id

def nodeType : GraphNode → String
  | tx _ => TX_NODE_TYPE
  | revert _ => REVERT_NODE_TYPE
  | log _ => LOG_NODE_TYPE
  | erc20 _ _ => ERC20_TRANSFER_NODE_TYPE

def factId : GraphNode → String
  | tx fact | revert fact => fact.fact_id
  | log fact | erc20 fact _ => fact.fact_id

def inputs : GraphNode → Json
  | tx fact => fact.identity
  | revert fact =>
    .obj [("chain_id", .str fact.chain_id), ("receipt_status", .str fact.receipt_status),
      ("tx_hash", .str fact.tx_hash)]
  | log fact =>
    .obj [("chain_id", .str fact.chain_id), ("emitter_address", .str fact.emitter_address),
      ("event_signature", textOrNull fact.event_signature), ("log_index", .str fact.log_index),
      ("topics", textList fact.topics), ("tx_hash", .str fact.tx_hash)]
  | erc20 fact transfer =>
    .obj [("chain_id", .str fact.chain_id), ("log_index", .str fact.log_index),
      ("raw_amount", .str transfer.raw_amount), ("token_contract", .str transfer.token_contract),
      ("topic_from", .str transfer.topic_from), ("topic_to", .str transfer.topic_to), ("tx_hash", .str fact.tx_hash)]

def trace : GraphNode → String
  | tx _ => "canonical_evm_receipt"
  | revert _ => "canonical_evm_revert"
  | log _ => "canonical_evm_log"
  | erc20 _ _ => "structural_erc20_transfer_decode"

def value (node : GraphNode) : Json :=
  .obj [("id", .str node.id), ("node_type", .str node.nodeType), ("fact_id", .str node.factId),
    ("inputs", node.inputs), ("outputs", .obj [("fact_ref", .str node.factId)]),
    ("metadata", .obj [("semantic_interpretation_allowed", .bool false), ("trace", .str node.trace)])]

end GraphNode

/-- What is thrown by `BigInt` of `0x`. -/
def bigIntError (text : String) : Error := .error ("Cannot convert " ++ text ++ " to a BigInt")

def topicAddress (topic : String) : JsM String := do
  let normalized ← normalizeHash (some (.str topic)) "erc20.topic_address"
  return "0x" ++ String.ofList (normalized.toList.drop (normalized.toList.length - 40))

def decodeUint256 (data : String) : JsM String := do
  let normalized ← normalizeHex (some (.str data)) "erc20.raw_amount"
  match hexQuantity normalized with
  | some ds => return decimal (hexValue ds)
  | none => throw (bigIntError normalized)

def decodeErc20Transfer (logFact : LogFact) : JsM (Option Erc20Transfer) :=
  match logFact.topics with
  | _ :: topicFrom :: topicTo :: _ =>
    if logFact.event_signature = some ERC20_TRANSFER_TOPIC then do
      let topic_from ← topicAddress topicFrom
      let topic_to ← topicAddress topicTo
      let raw_amount ← decodeUint256 logFact.data
      return some { token_contract := logFact.emitter_address, topic_from, topic_to, raw_amount }
    else return none
  | _ => return none

/-- The nodes of a log. -/
def logNodes (logFact : LogFact) : JsM (List GraphNode) := do
  match ← decodeErc20Transfer logFact with
  | some transfer => return [.log logFact, .erc20 logFact transfer]
  | none => return [.log logFact]

/-- The edges between the nodes of a log, and from the transaction. -/
def logEdges (txFact : TxFact) : List GraphNode → List (String × String)
  | [logNode, erc20Node] => [((GraphNode.tx txFact).id, logNode.id), (logNode.id, erc20Node.id)]
  | nodes => nodes.map fun logNode => ((GraphNode.tx txFact).id, logNode.id)

def revertNodes (txFact : TxFact) : List GraphNode :=
  if txFact.receipt_status = "0" then [.revert txFact] else []

structure FactGraph where
  txFact : TxFact
  logFacts : List LogFact
  nodes : List GraphNode
  edges : List (String × String)
  /-- The receipt came without its logs. -/
  logsMissing : Bool
  deriving DecidableEq, Repr

def FactGraph.value (graph : FactGraph) : Json :=
  .obj ([("schema_version", .str "simple-l1.evm_fact_graph.v1"), ("graph_type", .str "deterministic_sdga_fact_graph"),
    ("facts", .arr (graph.txFact.value :: graph.logFacts.map LogFact.value)),
    ("sdga_projection", .obj [("nodes", .arr (graph.nodes.map GraphNode.value)),
      ("edges", .arr (graph.edges.map fun edge =>
        .obj [("from", .str edge.1), ("to", .str edge.2), ("ordering", .str "after")]))])] ++
    if graph.logsMissing then
      [("observation", .obj [("logs_status", .str "missing"), ("evidence_completeness", .str "partial")])]
    else [])

def buildFactGraph (txFact : TxFact) (logFacts : List LogFact) (logsMissing : Bool) : JsM FactGraph := do
  let logs ← logFacts.mapM logNodes
  return { txFact, logFacts, nodes := .tx txFact :: revertNodes txFact ++ logs.flatten,
           edges := (revertNodes txFact).map (fun node => ((GraphNode.tx txFact).id, node.id)) ++
             logs.flatMap (logEdges txFact),
           logsMissing }

/-! ## Canonicalising -/

section
variable (p : Node.Platform)

def sha256 (value : String) : String := "sha256:" ++ p.sha256 value

/-- `v.k`, which throws on `null`. -/
def member (v : Raw) (k : String) : JsM (Option Raw) :=
  match v with
  | .null => throw (.typeError ("Cannot read properties of null (reading '" ++ k ++ "')"))
  | v => return v.prop k

/-- `log.topics || []`, on which `map` is called. -/
def topicsOf (log : Raw) : JsM (List Raw) :=
  match log.prop "topics" with
  | some (.arr topics) => return topics
  | some v => if v.truthy then throw (.typeError "(log.topics || []).map is not a function") else return []
  | none => return []

/-- `receipt.logs[index].k` -/
def logField (index : Nat) (k : String) : String := "receipt.logs[" ++ decimal index ++ "]." ++ k

def normalizeTopics (log : Raw) (index : Nat) : JsM (List String) := do
  let topics ← topicsOf log
  topics.zipIdx.mapM fun topic =>
    normalizeHash (some topic.1) (logField index ("topics[" ++ decimal topic.2 ++ "]"))

def LogFact.identified (fact : LogFact) : LogFact :=
  { fact with fact_id := sha256 p (Node.canonicalJson p fact.identity) }

def normalizeLog (txFact : TxFact) (log : Raw) (index : Nat) : JsM LogFact := do
  let logIndex ← member log "logIndex"
  let log_index ← quantityToDecimalString
    (firstDefined [logIndex, log.prop "log_index", some (.num (.int index))]) (logField index "logIndex")
  let topics ← normalizeTopics log index
  let tx_hash ← normalizeHash
    (firstDefined [log.prop "transactionHash", log.prop "transaction_hash", some (.str txFact.tx_hash)])
    (logField index "transactionHash")
  let emitter_address ← normalizeAddress (log.prop "address") (logField index "address")
  let data ← normalizeHex (firstDefined [log.prop "data", some (.str "0x")]) (logField index "data")
  return LogFact.identified p
    { fact_id := "", chain_id := txFact.chain_id, block_number := txFact.block_number,
      block_hash := txFact.block_hash, tx_hash, transaction_index := txFact.transaction_index,
      receipt_status := txFact.receipt_status, log_index, emitter_address, event_signature := topics.head?, topics,
      data, observed_at := txFact.observed_at, source := txFact.source, timestamp := txFact.timestamp }

def TxFact.identified (fact : TxFact) : TxFact :=
  { fact with fact_id := sha256 p (Node.canonicalJson p fact.identity) }

/-- `payload.block ? assertObject(payload.block) : {}` -/
def blockOf (block : Option Raw) : JsM (List (String × Raw)) :=
  if block.any Raw.truthy then assertObject block "raw_eth_receipt.block" else return []

def timestampOf (block : List (String × Raw)) : JsM (Option String) :=
  if given (block.lookup "timestamp") then
    some <$> quantityToDecimalString (block.lookup "timestamp") "block.timestamp"
  else return none

def txFactOf (payload receipt transaction block : List (String × Raw)) : JsM TxFact := do
  let chain_id ← quantityToDecimalString (payload.lookup "chain_id") "raw_eth_receipt.chain_id"
  let tx_hash ← normalizeHash (firstDefined [receipt.lookup "transactionHash", receipt.lookup "transaction_hash",
    transaction.lookup "hash"]) "receipt.transactionHash"
  let block_hash ← normalizeHash (firstDefined [receipt.lookup "blockHash", receipt.lookup "block_hash"])
    "receipt.blockHash"
  let block_number ← quantityToDecimalString
    (firstDefined [receipt.lookup "blockNumber", receipt.lookup "block_number"]) "receipt.blockNumber"
  let transaction_index ← quantityToDecimalString
    (firstDefined [receipt.lookup "transactionIndex", receipt.lookup "transaction_index"]) "receipt.transactionIndex"
  let receipt_status ← quantityToDecimalString (receipt.lookup "status") "receipt.status"
  let from_address ← normalizeAddress (firstDefined [transaction.lookup "from", receipt.lookup "from"])
    "transaction.from"
  let to_address ← normalizeAddress (firstDefined [transaction.lookup "to", receipt.lookup "to"]) "transaction.to"
  let effective_gas_price ← quantityToDecimalString
    (firstDefined [receipt.lookup "effectiveGasPrice", receipt.lookup "effective_gas_price"])
    "receipt.effectiveGasPrice"
  let gas_used ← quantityToDecimalString (firstDefined [receipt.lookup "gasUsed", receipt.lookup "gas_used"])
    "receipt.gasUsed"
  let input ← normalizeNullableHex
    (firstDefined [transaction.lookup "input", transaction.lookup "data", some (.str "0x")]) "transaction.input"
  let value ← quantityToDecimalString (transaction.lookup "value") "transaction.value"
  let observed_at ← requiredString (payload.lookup "observed_at") "raw_eth_receipt.observed_at"
  let source ← requiredString (payload.lookup "source") "raw_eth_receipt.source"
  let timestamp ← timestampOf block
  return TxFact.identified p
    { fact_id := "", chain_id, block_number, block_hash, tx_hash, transaction_index, receipt_status,
      raw_data := { effective_gas_price, from_address, gas_used, input, to_address, value },
      observed_at, source, timestamp }

/-- `Array.isArray(receipt.logs) ? receipt.logs : []` -/
def logsOf (receipt : List (String × Raw)) : List Raw :=
  match receipt.lookup "logs" with
  | some (.arr logs) => logs
  | _ => []

structure CanonicalReceipt where
  canonical_fact_json : String
  facts_json : List String
  graph : FactGraph
  graph_json : String
  deriving DecidableEq, Repr

def canonicalizeEthReceipt (input : Option Raw) : JsM CanonicalReceipt := do
  let payload ← assertObject input "raw_eth_receipt"
  let receipt ← assertObject (payload.lookup "receipt") "raw_eth_receipt.receipt"
  let transaction ← assertObject (payload.lookup "transaction") "raw_eth_receipt.transaction"
  let block ← blockOf (payload.lookup "block")
  let fact ← txFactOf p payload receipt transaction block
  let logs ← (logsOf receipt).zipIdx.mapM fun log => normalizeLog p fact log.1 log.2
  let graph ← buildFactGraph fact logs (receipt.lookup "logs").isNone
  let factsJson := Node.canonicalJson p fact.value :: logs.map fun log => Node.canonicalJson p log.value
  return { canonical_fact_json := Node.canonicalJson p fact.value, facts_json := factsJson, graph,
           graph_json := Node.canonicalJson p graph.value }

end

end SimpleL1.Evm
