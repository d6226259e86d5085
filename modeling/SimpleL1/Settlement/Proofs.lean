import SimpleL1.Js.Replacer
import SimpleL1.Node.Platform

/-!
# Settlement proofs

The fingerprint of a proof is the digest of its canonical text, in which the names
of the top-level fields are listed as the ones to write. Below the top level only
fields of these names are written, so the text shows what is on the paths over
them and nothing else.
-/

namespace SimpleL1.Settlement

open SimpleL1.Js

structure ProofTypes where
  EVM_TX : String
  UTXO : String
  ACCOUNT : String
  ORACLE : String
  QUORUM : String

def PROOF_TYPES : ProofTypes :=
  ⟨"EVM_TX_PROOF", "UTXO_PROOF", "ACCOUNT_PROOF", "ORACLE_PROOF", "QUORUM_PROOF"⟩

/-- What can be read of a value that is taken apart; nothing can be read from `null`. -/
def asRecord : Json → Option Record
  | .null => none
  | v => some ((Node.spread (some v)).map fun f => (f.1, some f.2))

namespace SettlementProofFactory

/-! ## Fingerprints -/

/-- `const { proof_fingerprint, ...rest } = proof`. -/
def rest (proof : Record) : Record := proof.without ["proof_fingerprint"]

def fingerprint (host : Realm.Host) (proof : Record) : String :=
  Node.sliceTo 32 (host.sha256 (rest proof).canonical)

def verify (host : Realm.Host) (proof : Record) : Bool :=
  strictEq (proof.get "proof_fingerprint") (some (.str (fingerprint host proof)))

/-- `proof.proof_fingerprint = SettlementProofFactory.fingerprint(proof)`. -/
def sealed (host : Realm.Host) (proof : Record) : Record :=
  proof.map fun f =>
    if f.1 = "proof_fingerprint" then (f.1, some (.str (fingerprint host proof))) else f

/-! ## Building -/

/-- The proof of a verification; the two times are those of `new Date()`. -/
def fromEVMVerification (host : Realm.Host) (confirmedAt createdAt : String)
    (verificationResult : Fields) (intent_id : Option Json) : JsM Record := do
  let amount ← toStr (verificationResult.get "amount")
  let evidence := Fields.ofOptions [
    ("tx_hash", verificationResult.get "txHash"),
    ("block_number", verificationResult.get "blockNumber"),
    ("confirmations", verificationResult.get "confirmations"),
    ("explorer_url", verificationResult.get "explorerUrl"),
    ("asset", verificationResult.get "asset"),
    ("amount", some (.str amount)),
    ("recipient", verificationResult.get "recipient"),
    ("settled_at", verificationResult.get "settledAt")]
  let verification : Fields := [("method", .str "EVM_RPC_RECEIPT"), ("confirmed_at", .str confirmedAt),
    ("threshold_met", .bool true), ("proof_type", .str PROOF_TYPES.EVM_TX)]
  return sealed host [
    ("proof_type", some (.str PROOF_TYPES.EVM_TX)), ("proof_version", some (.str "1.0")),
    ("intent_id", intent_id), ("network", verificationResult.get "network"),
    ("evidence", some (.obj evidence)), ("verification", some (.obj verification)),
    ("proof_fingerprint", some .null), ("created_at", some (.str createdAt))]

def fromQuorum (host : Realm.Host) (confirmedAt createdAt : String) (attestations : List Json)
    (intent_id : Option Json) : JsM Record := do
  let validatorIds ← attestations.mapM fun a => Node.member (some a) "validator_id"
  let decisions ← attestations.mapM fun a => Node.member (some a) "decision"
  let count := attestations.length
  let evidence : Fields := [
    ("attestation_count", .num (.int count)),
    -- an array holds an `undefined` as `null` does
    ("validator_ids", .arr (validatorIds.map (·.getD .null))),
    ("quorum_threshold", .num (.int ((count * 2 + 2) / 3 + 1))),
    ("all_agree", .bool (decisions.all (strictEq · (some (.str "ACCEPT")))))]
  let verification : Fields := [("method", .str "VALIDATOR_QUORUM"), ("confirmed_at", .str confirmedAt),
    ("threshold_met", .bool (1 ≤ count)), ("proof_type", .str PROOF_TYPES.QUORUM)]
  return sealed host [
    ("proof_type", some (.str PROOF_TYPES.QUORUM)), ("proof_version", some (.str "1.0")),
    ("intent_id", intent_id), ("evidence", some (.obj evidence)),
    ("verification", some (.obj verification)), ("attestations", some (.arr attestations)),
    ("proof_fingerprint", some .null), ("created_at", some (.str createdAt))]

/-! ## Sending -/

def serialize (proof : Record) : String := String.ofList proof.value.text

structure Deserialized where
  ok : Bool
  proof : Option Json
  error : Option String

/-- `parse` is `JSON.parse`, with the message of its exception. -/
def deserialize (host : Realm.Host) (parse : String → Except String Json) (json : String) : Deserialized :=
  match parse json with
  | .error message => ⟨false, none, some ("Invalid proof JSON: " ++ message)⟩
  | .ok value =>
    match asRecord value with
    | none => ⟨false, none, some ("Invalid proof JSON: Cannot destructure property "
        ++ "'proof_fingerprint' of 'proof' as it is null.")⟩
    | some proof =>
      if verify host proof then ⟨true, some value, none⟩
      else ⟨false, none, some "Proof fingerprint mismatch — proof may have been tampered"⟩

/-! ## What the text shows -/

/-- The proofs are different in a field other than the fingerprint, at some depth. -/
def Differ (p q : Record) : Prop := ∃ path, (rest p).value.faceAt path ≠ (rest q).value.faceAt path

/-- They are different where the canonical text shows it. -/
def ShowDifference (p q : Record) : Prop := ∃ path, (rest p).shown path ≠ (rest q).shown path

theorem canonical_ne_iff {p q : Record} :
    (rest p).canonical ≠ (rest q).canonical ↔ ShowDifference p q := by
  rw [ne_eq, Record.canonical_eq_iff, ShowDifference]
  push Not
  rfl

variable {host : Realm.Host}

theorem verify_iff {proof : Record} :
    verify host proof = true ↔ proof.get "proof_fingerprint" = some (.str (fingerprint host proof)) :=
  strictEq_str_iff

/-- A proof that keeps the fingerprint of another is verified just when the text is the same. -/
theorem verify_kept_iff {p q : Record} (hfree : fingerprint host p = fingerprint host q →
    (rest p).canonical = (rest q).canonical) (hp : verify host p = true)
    (hkept : q.get "proof_fingerprint" = p.get "proof_fingerprint") :
    verify host q = true ↔ (rest p).canonical = (rest q).canonical := by
  rw [verify_iff, hkept, verify_iff.mp hp, Option.some.injEq, Json.str.injEq]
  exact ⟨hfree, fun h => by rw [fingerprint, h, fingerprint]⟩

theorem deserialize_ok {parse : String → Except String Json} {json : String} {value : Json}
    {q : Record} (hparse : parse json = .ok value) (hvalue : asRecord value = some q) :
    (deserialize host parse json).ok = verify host q := by
  rw [deserialize, hparse]
  simp only [hvalue]
  cases verify host q <;> rfl

/-- A payment of the amount, as the adapter verifies it. -/
def payment (amount : String) : Fields :=
  [("network", .str "ethereum"), ("txHash", .str "0xab"), ("asset", .str "USDC"),
    ("amount", .str amount), ("recipient", .str "0xcd"), ("confirmations", .num (.int 12)),
    ("blockNumber", .num (.int 100)), ("explorerUrl", .str "https://etherscan.io/tx/0xab"),
    ("settledAt", .str "2026-06-01")]

def plainHost : Realm.Host := .ofTable [] [] Realm.Host.no_digests

/-- The proof of the payment. -/
def paymentProof (amount : String) : Record :=
  match fromEVMVerification plainHost "2026-06-02" "2026-06-02" (payment amount) (some (.str "intent_1")) with
  | .ok proof => proof
  | .error _ => []

/-- Reads the text of the altered proof, and no other. -/
def parseAltered (json : String) : Except String Json :=
  if json = serialize (paymentProof "5000") then .ok (.obj (Fields.ofOptions (paymentProof "5000")))
  else .error "Unexpected token"

theorem canonical_paymentProof : (rest (paymentProof "5")).canonical = (rest (paymentProof "5000")).canonical := by
  decide +kernel

theorem verify_paymentProof :
    verify plainHost (paymentProof "5") = true ∧ verify plainHost (paymentProof "5000") = true :=
  ⟨verify_iff.mpr rfl, verify_iff.mpr rfl⟩

theorem storedFingerprint_paymentProof :
    (paymentProof "5000").get "proof_fingerprint" = (paymentProof "5").get "proof_fingerprint" := by
  rw [verify_iff.mp verify_paymentProof.1, verify_iff.mp verify_paymentProof.2, fingerprint,
    fingerprint, canonical_paymentProof]

end SettlementProofFactory

end SimpleL1.Settlement
