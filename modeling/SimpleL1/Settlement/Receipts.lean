import SimpleL1.Settlement.Governance

/-!
# The receipt engine

A receipt records that an intent was fulfilled, or why it was rejected, and is
signed by the node. `issue` adds the constitution that is in force. A receipt that
is stored under the derived id is returned as it is.
-/

namespace SimpleL1.Settlement

open SimpleL1.Js SimpleL1.Lib SimpleL1.Lib.Effect

/-- The engine with the key pair it generates. It has none when a node key is passed in: that key is
kept under a name which nothing reads. -/
structure ReceiptEngine where
  platform : Node.Platform
  scheme : SignatureScheme
  nodeKeys : Option (String × String)
  /-- A governance engine on the same ledger is wired. -/
  governed : Bool

/-- The constitution a receipt is issued under. -/
structure ConstitutionalContext where
  constitutional_epoch : Json
  constitution_root : Json
  policy_version : Json
  state_root : Json

structure Verification where
  valid : Bool
  error : Option String
  deriving DecidableEq

/-- `v?.k`. -/
def optionalMember (v : Option Json) (k : String) : Option Json := v.bind (·.prop k)

/-! ## What the validators attest -/

/-- `attestationResult.attestations?.map(a => a.validator_id)`. -/
def attestingNodes (attestationResult : Json) : JsM (Option (List (Option Json))) :=
  match attestationResult.prop "attestations" with
  | none | some .null => return none
  | some (.arr attestations) =>
    some <$> attestations.mapM fun a => Node.member (some a) "validator_id"
  | some _ => throw (.typeError "attestationResult.attestations?.map is not a function")

/-- `xs.sort().join(', ')`: what is undefined comes last, and like `null` it is left blank. -/
def sortedJoin (xs : List (Option Json)) : JsM String := do
  let shown ← (xs.filterMap id).mapM fun x => do
    let text ← toStr (some x)
    return (text, match x with | .null => "" | _ => text)
  let sorted := shown.insertionSort fun a b => keyLe a.1 b.1
  return ", ".intercalate (sorted.map Prod.snd ++ List.replicate (xs.filter Option.isNone).length "")

/-- The lines about the quorum. -/
def attestationLines (attestationResult : Option Json) : JsM String :=
  match attestationResult with
  | some result =>
    if truthy (result.prop "quorum_met") then do
      let accepted ← toStr (result.prop "accepted")
      let required ← toStr (result.prop "required_threshold")
      let nodes ← sortedJoin ((← attestingNodes result).getD [])
      return "\nATTESTATION:\n" ++ "A verified quorum of " ++ accepted ++ "/" ++ required
        ++ " sovereign validators certified this execution.\n" ++ "ATTESTING NODES: [" ++ nodes ++ "]\n"
    else return "\nWARNING: Attestation Quorum was NOT met.\n"
  | none => return "\nWARNING: Attestation Quorum was NOT met.\n"

def generateSemanticStatement (intent : Json) (attestationResult : Option Json)
    (context : ConstitutionalContext) : JsM String := do
  let fulfillment := intent.prop "fulfillment"
  let firstOf (a b : Option Json) (default : String) : Option Json := Js.or (Js.or a b) (some (.str default))
  let intentType := Js.or (intent.prop "type") (some (.str "TRANSACTION"))
  let network ← toStr (firstOf (optionalMember fulfillment "network") (intent.prop "network") "unknown")
  let asset ← toStr (firstOf (optionalMember fulfillment "asset") (intent.prop "asset") "unknown")
  let amount ← toStr (firstOf (optionalMember fulfillment "amount") (intent.prop "expected_amount") "0")
  let epoch ← toStr (nullish (some context.constitutional_epoch) (some (.num (.int 0))))
  let policyVer ← toStr (nullish (some context.policy_version) (some (.str "1.0")))
  let typeText ← toStr intentType
  let judged :=
    if strictEq intentType (some (.str "CROSS_CHAIN_DEPOSIT")) then
      "the inbound settlement of " ++ amount ++ " " ++ asset ++ " on " ++ network
    else if strictEq intentType (some (.str "CROSS_CHAIN_WITHDRAWAL")) then
      "the outbound withdrawal of " ++ amount ++ " " ++ asset ++ " to " ++ network
    else "the state transition of type " ++ typeText
  let attested ← attestationLines attestationResult
  let anchor ← if truthy (some context.state_root) then do
      let root ← toStr (some context.state_root)
      pure ("\nANCHOR:\n" ++ "This judgment is immutably anchored in State Root: " ++ root ++ "\n")
    else pure ""
  return "STATEMENT OF CONSTITUTIONAL LEGITIMACY\n" ++ "======================================\n"
    ++ "The sovereign federation operating under Epoch " ++ epoch ++ " (Policy v" ++ policyVer ++ ")\n"
    ++ "HEREBY DECLARES " ++ judged ++ " to be CONSTITUTIONALLY ADMISSIBLE.\n" ++ attested ++ anchor

/-- What a receipt shows of the attestation. -/
def attestationSummary : Option Json → JsM Json
  | some result =>
    if truthy (some result) then do
      let nodes ← attestingNodes result
      return .obj (Fields.ofOptions [
        ("quorum_met", result.prop "quorum_met"),
        ("validator_count", result.prop "total_validators"),
        ("accepted", result.prop "accepted"),
        ("required", result.prop "required_threshold"),
        -- an array holds an `undefined` as `null` does
        ("validators", nodes.map fun ids => .arr (ids.map (·.getD .null)))])
    else return .null
  | none => return .null

namespace ReceiptEngine

variable (e : ReceiptEngine)

def nodePublicKey : Option Json := e.nodeKeys.map fun keys => .str keys.2

/-- `_getConstitutionalContext`. -/
def getConstitutionalContext (w : World) : ConstitutionalContext :=
  if e.governed then
    { constitutional_epoch := .num (.int w.governance.current_epoch)
      constitution_root := .str w.governance.constitution_root
      policy_version := (w.dslConstitution.prop "version").getD .null
      state_root := w.state_root.getD .null }
  else ⟨.null, .null, .null, .null⟩

def hashIntent (intent : Json) : String :=
  let committed := ["intent_id", "type", "sl1_address", "network", "asset", "expected_amount", "created_at"]
  e.platform.sha256 (String.ofList (Json.obj (Fields.ofOptions (committed.map fun k => (k, intent.prop k)))).text)

/-- `_sign`. -/
def signReceipt (receipt : Record) (m : Moment) : JsM String :=
  match e.nodeKeys with
  | some (privateKey, _) =>
    return e.scheme.sign privateKey (receipt.without ["receipt_signature"]).canonical m.salt
  | none => throw (.typeError "The \"key.key\" property must be of type string or an instance of Buffer")

/-- `receipt.receipt_signature = signature`. -/
def withSignature (receipt : Record) (signature : String) : Record :=
  receipt.map fun f => if f.1 = "receipt_signature" then (f.1, some (.str signature)) else f

/-! ## Issuing -/

def receiptId (seed : String) : String := "rcpt_" ++ Node.sliceTo 24 (e.platform.sha256 seed)

/-- The id of the receipt for the fulfilled intent. -/
def issueId (intent proof : Json) : JsM String := do
  let fulfillment ← Node.member (some intent) "fulfillment"
  let intent_id ← toStr (intent.prop "intent_id")
  throwUnless (truthy fulfillment)
    (.error ("[ReceiptEngine] Cannot issue receipt: intent " ++ intent_id ++ " is not fulfilled"))
  let fingerprint ← toStr (← Node.member (some proof) "proof_fingerprint")
  let fulfilledAt ← toStr (optionalMember fulfillment "fulfilled_at")
  return e.receiptId (intent_id ++ ":" ++ fingerprint ++ ":" ++ fulfilledAt)

/-- The receipt for the fulfilled intent before it is signed. -/
def finalized (w : World) (receipt_id : String) (intent proof : Json) (attestationResult : Option Json)
    (m : Moment) : JsM Record := do
  let fulfillment := intent.prop "fulfillment"
  let amount ← toStr (optionalMember fulfillment "amount")
  let attestation ← attestationSummary attestationResult
  let context := e.getConstitutionalContext w
  let statement ← generateSemanticStatement intent attestationResult context
  let settlement := Json.obj (Fields.ofOptions [
    ("network", optionalMember fulfillment "network"), ("asset", intent.prop "asset"),
    ("amount", some (.str amount)), ("tx_hash", optionalMember fulfillment "tx_hash"),
    ("block_number", optionalMember fulfillment "block_number"),
    ("confirmations", optionalMember fulfillment "confirmations"),
    ("explorer_url", optionalMember fulfillment "explorer_url")])
  let proofBundle := Json.obj (Fields.ofOptions [
    ("proof_type", proof.prop "proof_type"), ("proof_fingerprint", proof.prop "proof_fingerprint"),
    ("verified_at", optionalMember (proof.prop "verification") "confirmed_at")])
  return [
    ("receipt_id", some (.str receipt_id)), ("receipt_version", some (.str "1.0")),
    ("constitutional_status", some (.str "FINALIZED")),
    ("state_description",
      some (.str "The constitutional runtime accepted this settlement as legitimate.")),
    ("sl1_address", intent.prop "sl1_address"), ("intent_id", intent.prop "intent_id"),
    ("intent_type", intent.prop "type"), ("intent_hash", some (.str (e.hashIntent intent))),
    ("settlement", some settlement), ("proof", some proofBundle), ("attestation", some attestation),
    ("constitutional_epoch", some context.constitutional_epoch),
    ("constitution_root", some context.constitution_root),
    ("policy_version", some context.policy_version), ("state_root", some context.state_root),
    ("intent_created_at", intent.prop "created_at"),
    ("settlement_fulfilled_at", optionalMember fulfillment "fulfilled_at"),
    ("issued_at", some (.str (e.platform.isoDate m.now))), ("issuer_public_key", e.nodePublicKey),
    ("receipt_signature", some .null), ("semantic_hash", some (.str (e.platform.sha256 statement)))]

/-- The receipt for the rejected intent before it is signed. -/
def rejected (receipt_id : String) (intent : Json) (reason : Option Json) (m : Moment) : JsM Record := do
  let reasonText ← toStr reason
  return [
    ("receipt_id", some (.str receipt_id)), ("receipt_version", some (.str "1.0")),
    ("constitutional_status", some (.str "REJECTED")),
    ("state_description", some (.str ("Settlement rejected: " ++ reasonText))),
    ("sl1_address", intent.prop "sl1_address"), ("intent_id", intent.prop "intent_id"),
    ("intent_type", intent.prop "type"), ("intent_hash", some (.str (e.hashIntent intent))),
    ("rejection_reason", reason), ("intent_created_at", intent.prop "created_at"),
    ("issued_at", some (.str (e.platform.isoDate m.now))), ("issuer_public_key", e.nodePublicKey),
    ("receipt_signature", some .null)]

/-- What is logged of the intent when its receipt is stored: `intent.intent_id.slice(0, 8)`. -/
def logged (intent : Json) : JsM Unit :=
  match intent.prop "intent_id" with
  | some (.str _) => return ()
  | some (.arr xs) => (fun _ => ()) <$> toStr (some (.arr (xs.take 8)))
  | none => throw (.typeError "Cannot read properties of undefined (reading 'slice')")
  | some .null => throw (.typeError "Cannot read properties of null (reading 'slice')")
  | some _ => throw (.typeError "intent.intent_id.slice is not a function")

/-- Return the receipt that is stored under the id; else sign and store a new one. -/
def storeOnce (receipt_id : String) (m : Moment) (receipt : World → JsM Record) : GovernanceM Record := do
  match Assoc.find receipt_id (← get).receipts with
  | some stored => return stored
  | none =>
    let body ← reading receipt
    let signature ← liftM (e.signReceipt body m)
    let signed := withSignature body signature
    modify fun w => { w with receipts := Assoc.insert receipt_id signed w.receipts }
    return signed

def issue (intent proof : Json) (attestationResult : Option Json) (m : Moment) : GovernanceM Record := do
  let receipt_id ← liftM (e.issueId intent proof)
  let isNew := (Assoc.find receipt_id (← get).receipts).isNone
  let receipt ← e.storeOnce receipt_id m fun w => e.finalized w receipt_id intent proof attestationResult m
  if isNew then liftM (logged intent)
  return receipt

def issueRejection (intent : Json) (reason : Option Json) (m : Moment) : GovernanceM Record := do
  let intent_id ← liftM (Node.member (some intent) "intent_id")
  let intentText ← liftM (toStr intent_id)
  let reasonText ← liftM (toStr reason)
  let receipt_id := e.receiptId ("rejected:" ++ intentText ++ ":" ++ reasonText)
  e.storeOnce receipt_id m fun _ => e.rejected receipt_id intent reason m

/-! ## Verifying -/

def verify (receipt : Record) : Verification :=
  let body := receipt.without ["receipt_signature", "issuer_public_key"]
  match e.scheme.verify (receipt.get "issuer_public_key") (receipt.get "receipt_signature") body.canonical with
  | .ok valid => ⟨valid, none⟩
  | .error message => ⟨false, some message⟩

end ReceiptEngine

end SimpleL1.Settlement
