import SimpleL1.Kernel.SettlementPacket

/-!
# The settlement tables

The ledger accounts, the journal and the postings, and the transaction by which `run`
settles a packet that was let through: a journal entry, a posting on each side and a new
balance on each. An exception inside the transaction rolls the tables back.
-/

namespace SimpleL1.Kernel.Settlement

open SimpleL1.Js

/-! ## Decimal arithmetic -/

def bcadd (a b : Decimal8) : Decimal8 := ⟨a.units + b.units⟩

def bcsub (a b : Decimal8) : Decimal8 := ⟨a.units - b.units⟩

/-- `str_starts_with($text, '-')` -/
def startsWithMinus (text : String) : Bool := text.toList.head? = some '-'

/-- The sign is read off the text of a balance. -/
theorem startsWithMinus_text (d : Decimal8) : startsWithMinus d.text = decide (d.units < 0) := by
  unfold startsWithMinus Decimal8.text
  rw [String.toList_ofList]
  by_cases hneg : d.units < 0
  · simp [hneg]
  · rw [if_neg hneg, List.nil_append]
    have hdigits : Number.digits (d.units.natAbs / 10 ^ 8) ≠ [] := Nat.toDigits_ne_nil
    obtain ⟨c, cs, hcs⟩ := List.exists_cons_of_ne_nil hdigits
    have hc : c.isDigit = true := Number.digits_all _ c (by rw [hcs]; exact List.mem_cons_self)
    have hne : c ≠ '-' := by
      rintro rfl
      exact absurd hc (by decide)
    rw [hcs]
    simp [hneg, hne]

/-! ## Tables -/

inductive Direction where
  | credit
  | debit
  deriving DecidableEq

structure Account where
  id : Nat
  ownerId : String
  currentBalance : Decimal8
  lastJournalEntryId : Option Nat

structure JournalEntry where
  id : Nat
  txHash : String
  entryHash : String
  type : String
  description : String

structure Posting where
  journalEntryId : Nat
  accountId : Nat
  amount : Decimal8
  direction : Direction
  currency : String

/-- `ssp_ledger_accounts` -/
structure AccountTable where
  rows : List Account
  primaryKey : (rows.map Account.id).Nodup

/-- An account after `UPDATE … SET current_balance, last_journal_entry_id WHERE id = ?`. -/
def Account.updated (id : Nat) (next : Decimal8) (journalId : Nat) (a : Account) : Account :=
  if a.id = id then { a with currentBalance := next, lastJournalEntryId := some journalId } else a

theorem Account.id_updated (id : Nat) (next : Decimal8) (journalId : Nat) (a : Account) :
    (a.updated id next journalId).id = a.id := by
  unfold updated
  split <;> rfl

theorem primaryKey_updated (t : AccountTable) (id : Nat) (next : Decimal8) (journalId : Nat) :
    ((t.rows.map (Account.updated id next journalId)).map Account.id).Nodup := by
  rw [List.map_map, show Account.id ∘ Account.updated id next journalId = Account.id from
    funext (Account.id_updated id next journalId)]
  exact t.primaryKey

def AccountTable.update (t : AccountTable) (id : Nat) (next : Decimal8) (journalId : Nat) :
    AccountTable :=
  ⟨t.rows.map (Account.updated id next journalId), primaryKey_updated t id next journalId⟩

structure Tables where
  accounts : AccountTable
  journal : List JournalEntry
  postings : List Posting

/-- The next value of the journal's key. -/
def Tables.nextJournalId (t : Tables) : Nat := (t.journal.map JournalEntry.id).foldr max 0 + 1

/-! ## The transaction -/

def journalExists (t : Tables) (txHash : String) : Bool := t.journal.any fun e => e.txHash == txHash

def toAmount8 (p : Platform) (val : Php) : Except String Decimal8 :=
  match numeric val with
  | none => .error "INTENT: amount_fiat must be numeric"
  | some x =>
    match p.numberFormat x with
    | none => .error "bccomp(): Argument #1 ($num1) is not well-formed"
    | some amount =>
      if amount.units ≤ 0 then .error "INTENT: amount_fiat must be > 0" else .ok amount

def ownerMerchant (merchantId : String) : String := "merchant-" ++ merchantId

def ownerCustomer (userId : String) : String := userId

/-- The rows come by id, and a later row of an owner takes the place of an earlier one. -/
def lockAccountsPair (t : AccountTable) (customerKey merchantKey : String) :
    Except String (Account × Account) :=
  let rows := (t.rows.filter fun r => r.ownerId = customerKey ∨ r.ownerId = merchantKey).insertionSort
    fun a b => a.id ≤ b.id
  if rows.length ≠ 2 then
    .error "LEDGER: missing customer or merchant account"
  else
    match rows.reverse.find? (fun r => r.ownerId = customerKey),
      rows.reverse.find? (fun r => r.ownerId = merchantKey) with
    | some customer, some merchant => .ok (customer, merchant)
    | _, _ => .error "LEDGER: missing customer or merchant account"

def applyBalanceDelta (t : AccountTable) (accountId journalId : Nat) (direction : Direction)
    (amount : Decimal8) : Except String AccountTable :=
  match t.rows.find? (fun r => r.id = accountId) with
  | none => .error ("LEDGER: account " ++ toString accountId ++ " missing")
  | some row =>
    let next := match direction with
      | .debit => bcadd row.currentBalance amount
      | .credit => bcsub row.currentBalance amount
    if startsWithMinus next.text then
      .error "LEDGER: insufficient funds (negative balance not allowed)"
    else
      .ok (t.update accountId next journalId)

inductive Status where
  | settled
  | alreadySettled
  deriving DecidableEq

structure Receipt where
  settlementId : String
  txHash : String
  status : Status

/-- What stands between `beginTransaction` and `commit`. -/
def transact (p : Platform) (r : Read) (t : Tables) : Except String (Tables × Status) := do
  if journalExists t (r.txHash p) then
    return (t, .alreadySettled)
  let amount ← toAmount8 p r.payload.amountFiat
  let merchantKey := ownerMerchant r.payload.merchantId
  let customerKey := ownerCustomer r.payload.userId
  let (customer, merchant) ← lockAccountsPair t.accounts customerKey merchantKey
  let journalId := t.nextJournalId
  let entry : JournalEntry := ⟨journalId, r.txHash p, r.settlementId p, "SETTLEMENT",
    "SETTLEMENT " ++ merchantKey ++ " " ++ amount.text ++ " " ++ r.payload.currency⟩
  -- The customer pays and the merchant receives: a credit lowers a balance, a debit raises it.
  let postings := t.postings ++
    [⟨journalId, customer.id, amount, .credit, r.payload.currency⟩,
      ⟨journalId, merchant.id, amount, .debit, r.payload.currency⟩]
  let accounts ← applyBalanceDelta t.accounts customer.id journalId .credit amount
  let accounts ← applyBalanceDelta accounts merchant.id journalId .debit amount
  return (⟨accounts, t.journal ++ [entry], postings⟩, .settled)

/-- `run`; where anything throws, the tables are as they were. -/
def run (p : Platform) (verify : Verify) (env : Environment) (packet : Entries) (t : Tables) :
    Tables × Except String Receipt :=
  match authorize p verify env packet with
  | .error e => (t, .error e)
  | .ok r =>
    match transact p r t with
    | .error e => (t, .error e)
    | .ok (t', status) => (t', .ok ⟨r.settlementId p, r.txHash p, status⟩)

/-! ## What each step does -/

/-- The row of an account after an amount has moved. -/
def Account.moved (id : Nat) (delta : Int) (journalId : Nat) (a : Account) : Account :=
  a.updated id ⟨a.currentBalance.units + delta⟩ journalId

def delta (direction : Direction) (amount : Decimal8) : Int :=
  match direction with
  | .debit => amount.units
  | .credit => -amount.units

section
variable {p : Platform} {t t' : Tables} {accounts accounts' : AccountTable} {r : Read} {status : Status}
  {amount : Decimal8} {direction : Direction} {id journalId : Nat} {a b : Account} {rows : List Account}

theorem eq_of_id (hrows : (rows.map Account.id).Nodup) (ha : a ∈ rows) (hb : b ∈ rows)
    (h : a.id = b.id) : a = b :=
  List.inj_on_of_nodup_map hrows ha hb h

/-- The row that is found by its key is the only one of that key, so that writing the text
computed from it moves the amount on every row. -/
theorem applyBalanceDelta_eq_ok (h : applyBalanceDelta accounts id journalId direction amount = .ok accounts') :
    accounts'.rows = accounts.rows.map (Account.moved id (delta direction amount) journalId) ∧
      ∃ row ∈ accounts.rows, row.id = id ∧ 0 ≤ row.currentBalance.units + delta direction amount := by
  unfold applyBalanceDelta at h
  cases hfind : accounts.rows.find? (fun r => r.id = id) with
  | none =>
    rw [hfind] at h
    cases h
  | some row =>
    have hmem := List.mem_of_find?_eq_some hfind
    have hid : row.id = id := by simpa using List.find?_some hfind
    rw [hfind] at h
    dsimp only at h
    have hnext : (match direction with
        | .debit => bcadd row.currentBalance amount
        | .credit => bcsub row.currentBalance amount) =
        ⟨row.currentBalance.units + delta direction amount⟩ := by
      cases direction with
      | credit => exact congrArg Decimal8.mk (Int.sub_eq_add_neg ..)
      | debit => rfl
    rw [hnext, startsWithMinus_text] at h
    split at h
    · cases h
    · rename_i hsign
      cases h
      refine ⟨List.map_congr_left fun a ha => ?_, row, hmem, hid, by simpa using hsign⟩
      unfold Account.moved Account.updated
      by_cases heq : a.id = id
      · rw [eq_of_id accounts.primaryKey ha hmem (heq.trans hid.symm)]
      · rw [if_neg heq, if_neg heq]

theorem lockAccountsPair_eq_ok {customerKey merchantKey : String}
    (h : lockAccountsPair accounts customerKey merchantKey = .ok (a, b)) :
    (a ∈ accounts.rows ∧ a.ownerId = customerKey) ∧ b ∈ accounts.rows ∧ b.ownerId = merchantKey := by
  unfold lockAccountsPair at h
  dsimp only at h
  split at h
  · cases h
  · split at h
    · rename_i hcustomer hmerchant
      cases h
      have hrow {x : Account} {key : String}
          (hfind : ((accounts.rows.filter fun r => r.ownerId = customerKey ∨ r.ownerId = merchantKey).insertionSort
            fun a b => a.id ≤ b.id).reverse.find? (fun r => r.ownerId = key) = some x) :
          x ∈ accounts.rows ∧ x.ownerId = key := by
        have hmem := List.mem_reverse.mp (List.mem_of_find?_eq_some hfind)
        rw [List.mem_insertionSort] at hmem
        exact ⟨List.mem_of_mem_filter hmem, by simpa using List.find?_some hfind⟩
      exact ⟨hrow hcustomer, hrow hmerchant⟩
    · cases h

theorem toAmount8_pos {val : Php} (h : toAmount8 p val = .ok amount) : 0 < amount.units := by
  unfold toAmount8 at h
  split at h
  · cases h
  · split at h
    · cases h
    · split at h
      · cases h
      · cases h
        omega

/-- What a packet that settles writes. -/
structure Entered (r : Read) (p : Platform) (t t' : Tables) where
  amount : Decimal8
  customer : Nat
  merchant : Nat
  entry : JournalEntry
  positive : 0 < amount.units
  fresh : r.txHash p ∉ t.journal.map JournalEntry.txHash
  txHash_entry : entry.txHash = r.txHash p
  id_entry : entry.id = t.nextJournalId
  journal : t'.journal = t.journal ++ [entry]
  postings : t'.postings = t.postings ++
    [⟨entry.id, customer, amount, .credit, r.payload.currency⟩,
      ⟨entry.id, merchant, amount, .debit, r.payload.currency⟩]
  rows : t'.accounts.rows = (t.accounts.rows.map (Account.moved customer (-amount.units) entry.id)).map
    (Account.moved merchant amount.units entry.id)
  covered : ∃ row ∈ t.accounts.rows, row.id = customer ∧ 0 ≤ row.currentBalance.units - amount.units
  received : ∃ row ∈ t.accounts.rows.map (Account.moved customer (-amount.units) entry.id),
    row.id = merchant ∧ 0 ≤ row.currentBalance.units + amount.units

theorem transact_cases (h : transact p r t = .ok (t', status)) :
    (status = .alreadySettled ∧ t' = t) ∨ (status = .settled ∧ Nonempty (Entered r p t t')) := by
  unfold transact at h
  cases hexists : journalExists t (r.txHash p) with
  | true =>
    rw [hexists] at h
    cases h
    exact .inl ⟨rfl, rfl⟩
  | false =>
    rw [hexists] at h
    cases hamount : toAmount8 p r.payload.amountFiat with
    | error e => rw [hamount] at h; cases h
    | ok amount =>
    rw [hamount] at h
    cases hpair : lockAccountsPair t.accounts (ownerCustomer r.payload.userId)
      (ownerMerchant r.payload.merchantId) with
    | error e =>
      change (lockAccountsPair t.accounts _ _ >>= _) = _ at h
      rw [hpair] at h
      cases h
    | ok pair =>
    obtain ⟨customer, merchant⟩ := pair
    change (lockAccountsPair t.accounts _ _ >>= _) = _ at h
    rw [hpair] at h
    change (applyBalanceDelta t.accounts customer.id t.nextJournalId .credit amount >>= _) = _ at h
    cases hcredit : applyBalanceDelta t.accounts customer.id t.nextJournalId .credit amount with
    | error e => rw [hcredit] at h; cases h
    | ok credited =>
    rw [hcredit] at h
    change (applyBalanceDelta credited merchant.id t.nextJournalId .debit amount >>= _) = _ at h
    cases hdebit : applyBalanceDelta credited merchant.id t.nextJournalId .debit amount with
    | error e => rw [hdebit] at h; cases h
    | ok debited =>
    rw [hdebit] at h
    cases h
    obtain ⟨hrows, hcovered⟩ := applyBalanceDelta_eq_ok hcredit
    obtain ⟨hrows', hreceived⟩ := applyBalanceDelta_eq_ok hdebit
    rw [hrows] at hrows' hreceived
    refine .inr ⟨rfl, ⟨{
      amount := amount
      customer := customer.id
      merchant := merchant.id
      entry := ⟨t.nextJournalId, r.txHash p, r.settlementId p, "SETTLEMENT", _⟩
      positive := toAmount8_pos hamount
      fresh := ?_
      txHash_entry := rfl
      id_entry := rfl
      journal := rfl
      postings := rfl
      rows := hrows'
      covered := hcovered
      received := hreceived }⟩⟩
    intro hmem
    obtain ⟨e, he, hhash⟩ := List.mem_map.mp hmem
    have hany : journalExists t (r.txHash p) = true :=
      List.any_eq_true.mpr ⟨e, he, beq_iff_eq.mpr hhash⟩
    exact Bool.false_ne_true (hexists.symm.trans hany)

/-- A call settles and writes what `Entered` says, or leaves the tables alone. -/
theorem run_cases (p : Platform) (verify : Verify) (env : Environment) (packet : Entries) (t : Tables) :
    (run p verify env packet t).1 = t ∨
      ∃ r receipt, (run p verify env packet t).2 = .ok receipt ∧ receipt.status = .settled ∧
        Nonempty (Entered r p t (run p verify env packet t).1) := by
  unfold run
  cases authorize p verify env packet with
  | error e => exact .inl rfl
  | ok r =>
    dsimp only
    cases htransact : transact p r t with
    | error e => exact .inl rfl
    | ok result =>
      obtain ⟨t', status⟩ := result
      rcases transact_cases htransact with ⟨-, rfl⟩ | ⟨rfl, hentered⟩
      · exact .inl rfl
      · exact .inr ⟨r, _, rfl, rfl, hentered⟩

end

end SimpleL1.Kernel.Settlement
