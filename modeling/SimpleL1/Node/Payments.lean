import SimpleL1.Lib.Register
import SimpleL1.Node.Lineage

/-!
# Runs of settlements

A settlement is refused when its idempotency key is used. The caller may choose
the key, and the ids of the records too: a payment settles once, and the records
of a settlement stay, in runs whose calls choose them apart.
-/

namespace SimpleL1.Node

open SimpleL1.Js SimpleL1.Lib SimpleL1.Lib.Effect

/-! ## Records under ids -/

/-- The records are one under `upsertById`. -/
def sameId (a b : Fields) : Bool := strictEq (a.get "id") (b.get "id")

theorem upsert_eq_put (x : Fields) (xs : List Fields) :
    upsert "id" x (fun _ => x) xs = put sameId x xs := by
  induction xs with
  | nil => rfl
  | cons y ys ih =>
    unfold upsert put
    rw [ih]
    rfl

/-- An id of the history comes again only with the record it was given to. -/
def IdsApart {ρ : Type} (record : ρ → Fields) (history : List ρ) (x : Fields) : Prop :=
  ∀ r ∈ history, sameId (record r) x = true → record r = x

/-! ## Calls and receipts -/

/-- A call with its input, and the time it is made. -/
structure Call where
  input : Fields
  now : Number

/-- A settlement that was returned, and the purchase intent it was asked for. -/
structure Receipt where
  purchase_intent_id : Option Json
  settlement : Settlement

/-- Purchase intent, external proof and authorization. -/
abbrev Payment := Option Json × Option Json × Option Json

def Receipt.payment (r : Receipt) : Payment :=
  (r.purchase_intent_id, r.settlement.transaction.get "external_proof_id",
    r.settlement.transaction.get "authorization_id")

def paymentOf (input : Fields) (g : Grounds) : Payment :=
  (input.get "purchase_intent_id", g.proof.prop "id", g.authorization.prop "id")

/-- The receipt of a call that settles. -/
def receipts (p : Platform) (ledger : Ledger) (call : Call) : List Receipt :=
  match settlementOf p ledger call.input call.now with
  | .ok (.ok settlement) => [⟨call.input.get "purchase_intent_id", settlement⟩]
  | _ => []

def settle (p : Platform) (ledger : Ledger) (call : Call) : Ledger :=
  after (executeMarketplaceSettlement p call.input call.now) ledger

/-- The runs of settlement calls from `l₀`, with the receipts of those that settle. -/
abbrev SettlementRun (p : Platform) (ok : List Receipt → Ledger → Call → Prop) (l₀ : Ledger) :
    List Receipt → Ledger → Prop :=
  Trace (settle p) (receipts p) ok l₀

/-- No payment settled twice, and what was returned is stored. -/
structure SettledOnce (history : List Receipt) (ledger : Ledger) : Prop where
  payments : history.Pairwise fun r r' => r.payment ≠ r'.payment
  transactions : ∀ r ∈ history, r.settlement.transaction ∈ ledger.stores .transactions
  operations : ∀ r ∈ history,
    r.settlement.settlementOperation ∈ ledger.stores .settlement_operations
  proofs : ∀ r ∈ history, r.settlement.settlementProof ∈ ledger.stores .settlement_proofs


/-- A call that passes its checks has a used key when its payment has settled, and when its key is
new, its records take no id of another record of the run. -/
structure Separate (p : Platform) (history : List Receipt) (ledger : Ledger) (call : Call) :
    Prop where
  key : ∀ g, Grounded p ledger call.input call.now g →
    ∀ r ∈ history, r.payment = paymentOf call.input g →
      isUsed ledger (idempotencyKeyOf p call.input g) = true
  ids : ∀ g, Grounded p ledger call.input call.now g →
    isUsed ledger (idempotencyKeyOf p call.input g) = false →
      let s := settlementFrom p call.input g
      IdsApart (·.settlement.transaction) history s.transaction ∧
      IdsApart (·.settlement.settlementOperation) history s.settlementOperation ∧
      IdsApart (·.settlement.settlementProof) history s.settlementProof

section
variable {p : Platform} {ledger : Ledger} {call : Call} {history : List Receipt}

theorem settle_eq : settle p ledger call =
    match settlementOf p ledger call.input call.now with
    | .ok (.ok s) => settled ledger s
    | _ => ledger := by
  unfold settle
  rw [after, executeMarketplaceSettlement_eq]
  rcases settlementOf p ledger call.input call.now with e | reason | s <;> rfl

/-- A call without a receipt leaves the ledger as it was. -/
theorem settle_refused (h : receipts p ledger call = []) : settle p ledger call = ledger := by
  rw [settle_eq]
  unfold receipts at h
  rcases hs : settlementOf p ledger call.input call.now with e | reason | s
  · rfl
  · rfl
  · rw [hs] at h
    cases h

theorem payment_settlementFrom (input : Fields) (g : Grounds) :
    (Receipt.mk (input.get "purchase_intent_id") (settlementFrom p input g)).payment =
      paymentOf input g := by
  simp [Receipt.payment, paymentOf, settlementFrom]

theorem settledOnce_settle (h : SettledOnce history ledger)
    (hsep : Separate p history ledger call) :
    SettledOnce (history ++ receipts p ledger call) (settle p ledger call) := by
  rcases hs : settlementOf p ledger call.input call.now with e | reason | s
  · rw [settle_eq, receipts, hs, List.append_nil]
    exact h
  · rw [settle_eq, receipts, hs, List.append_nil]
    exact h
  · obtain ⟨g, hg, hnew, rfl⟩ := settlementOf_eq_ok.mp hs
    obtain ⟨htx, hop, hproof⟩ := hsep.ids g hg hnew
    rw [settle_eq, receipts, hs]
    refine ⟨pairwise_snoc h.payments fun r hr hpay => ?_, ?_, ?_, ?_⟩
    · rw [payment_settlementFrom] at hpay
      rw [hsep.key g hg r hr hpay] at hnew
      cases hnew
    · rw [settled_transactions, upsert_eq_put]
      exact kept_put (fun r : Receipt => r.settlement.transaction) h.transactions htx
    · rw [settled_operations, upsert_eq_put]
      exact kept_put (fun r : Receipt => r.settlement.settlementOperation) h.operations hop
    · rw [settled_proofs, upsert_eq_put]
      exact kept_put (fun r : Receipt => r.settlement.settlementProof) h.proofs hproof

end

def payment (key : String) : Call where
  input := [("purchase_intent_id", .str "pi_1"), ("idempotency_key", .str key),
    ("authorization_id", .str "authz_1"), ("external_proof_id", .str "xproof_1")]
  now := .int 0

theorem payment_grounded (key : String) :
    Grounded plainPlatform paidLedger (payment key).input (.int 0) paymentGrounds :=
  ⟨rfl, rfl, rfl, rfl, rfl, rfl, rfl, rfl⟩

theorem separate_nil (p : Platform) (ledger : Ledger) (call : Call) : Separate p [] ledger call :=
  ⟨fun _ _ _ hr => (nomatch hr), fun _ _ _ =>
    ⟨fun _ hr => (nomatch hr), fun _ hr => (nomatch hr), fun _ hr => (nomatch hr)⟩⟩

theorem receipts_of_grounded {p : Platform} {ledger : Ledger} {call : Call} {g : Grounds}
    (hg : Grounded p ledger call.input call.now g)
    (hnew : isUsed ledger (idempotencyKeyOf p call.input g) = false) :
    receipts p ledger call =
        [⟨call.input.get "purchase_intent_id", settlementFrom p call.input g⟩] ∧
      settle p ledger call = settled ledger (settlementFrom p call.input g) := by
  have hs := settlementOf_of_grounded hg hnew
  exact ⟨by rw [receipts, hs], by rw [settle_eq, hs]⟩

end SimpleL1.Node
