import SimpleL1.Kernel.SettlementLedger

/-!
# Settlements are double entry

The books of a run: what the journal, the postings and the balances say together,
whatever packets came and in whatever order.
-/

namespace SimpleL1.Kernel.Settlement

/-! ## Books -/

/-- What the postings of one direction on an account come to. -/
def sumOf (direction : Direction) (id : Nat) (postings : List Posting) : Int :=
  ((postings.filter fun x => x.accountId = id ∧ x.direction = direction).map (·.amount.units)).sum

def total (rows : List Account) : Int := (rows.map (·.currentBalance.units)).sum

/-- A row now, against the row the run began with. -/
structure Carried (postings : List Posting) (a b : Account) : Prop where
  id : b.id = a.id
  ownerId : b.ownerId = a.ownerId
  balance : b.currentBalance.units =
    a.currentBalance.units + sumOf .debit a.id postings - sumOf .credit a.id postings
  nonneg : 0 ≤ a.currentBalance.units → 0 ≤ b.currentBalance.units

/-- The two postings of a journal entry. -/
def Paired (postings : List Posting) (e : JournalEntry) : Prop :=
  ∃ customer merchant amount currency, 0 < amount.units ∧
    postings.filter (fun x => x.journalEntryId = e.id) =
      [⟨e.id, customer, amount, .credit, currency⟩, ⟨e.id, merchant, amount, .debit, currency⟩]

structure Books (accounts : AccountTable) (t : Tables) : Prop where
  once : (t.journal.map JournalEntry.txHash).Nodup
  paired : ∀ e ∈ t.journal, Paired t.postings e
  posted : ∀ x ∈ t.postings, ∃ e ∈ t.journal, e.id = x.journalEntryId
  balances : List.Forall₂ (Carried t.postings) accounts.rows t.accounts.rows
  conserved : total t.accounts.rows = total accounts.rows

/-- The tables before the first settlement. -/
def Tables.opened (accounts : AccountTable) : Tables := ⟨accounts, [], []⟩

section
variable {p : Platform} {verify : Verify} {accounts : AccountTable} {t t' : Tables} {r : Read}
  {rows : List Account} {id journalId : Nat} {delta : Int} {a : Account} {xs ys : List Posting}

@[simp] theorem id_moved : (a.moved id delta journalId).id = a.id := Account.id_updated ..

@[simp] theorem ownerId_moved : (a.moved id delta journalId).ownerId = a.ownerId := by
  unfold Account.moved Account.updated
  split <;> rfl

theorem units_moved : (a.moved id delta journalId).currentBalance.units =
    a.currentBalance.units + if a.id = id then delta else 0 := by
  unfold Account.moved Account.updated
  split
  · rfl
  · exact (Int.add_zero _).symm

theorem ids_moved : (rows.map (Account.moved id delta journalId)).map Account.id = rows.map Account.id := by
  rw [List.map_map]
  exact List.map_congr_left fun a _ => id_moved

/-- An amount moved on one row changes the total by that amount. -/
theorem total_moved (hrows : (rows.map Account.id).Nodup) (ha : a ∈ rows) :
    total (rows.map (Account.moved a.id delta journalId)) = total rows + delta := by
  unfold total
  induction rows with
  | nil => exact absurd ha List.not_mem_nil
  | cons b rows ih =>
    rw [List.map_cons, List.nodup_cons] at hrows
    simp only [List.map_cons, List.sum_cons, units_moved]
    by_cases hab : b.id = a.id
    · have hrest : rows.map (Account.moved a.id delta journalId) = rows.map fun x => x := by
        refine List.map_congr_left fun x hx => ?_
        unfold Account.moved Account.updated
        rw [if_neg]
        intro hxa
        exact hrows.1 (List.mem_map.mpr ⟨x, hx, hxa.trans hab.symm⟩)
      rw [hrest, List.map_id', if_pos hab]
      omega
    · have hin : a ∈ rows := by
        rcases List.mem_cons.mp ha with rfl | h
        · exact absurd rfl hab
        · exact h
      have hsum := ih hrows.2 hin
      rw [if_neg hab]
      omega

theorem sumOf_append (direction : Direction) :
    sumOf direction id (xs ++ ys) = sumOf direction id xs + sumOf direction id ys := by
  unfold sumOf
  rw [List.filter_append, List.map_append, List.sum_append]

theorem id_lt_next {e : JournalEntry} (he : e ∈ t.journal) : e.id < t.nextJournalId := by
  unfold Tables.nextJournalId
  refine Nat.lt_succ_of_le ?_
  generalize t.journal = l at he
  induction l with
  | nil => exact absurd he List.not_mem_nil
  | cons b l ih =>
    rw [List.map_cons, List.foldr_cons]
    rcases List.mem_cons.mp he with rfl | h
    · exact Nat.le_max_left ..
    · exact Nat.le_trans (ih h) (Nat.le_max_right ..)

/-! ## One settlement -/

theorem once_entered (h : Entered r p t t') (honce : (t.journal.map JournalEntry.txHash).Nodup) :
    (t'.journal.map JournalEntry.txHash).Nodup := by
  rw [h.journal, List.map_append, List.map_singleton, List.nodup_append]
  refine ⟨honce, List.nodup_singleton _, fun x hx y hy => ?_⟩
  rw [List.mem_singleton] at hy
  rintro rfl
  rw [hy, h.txHash_entry] at hx
  exact h.fresh hx

/-- The new entry has a key of its own, so that no posting is counted for two entries. -/
theorem paired_entered (h : Entered r p t t') (hpaired : ∀ e ∈ t.journal, Paired t.postings e)
    (hposted : ∀ x ∈ t.postings, ∃ e ∈ t.journal, e.id = x.journalEntryId) :
    ∀ e ∈ t'.journal, Paired t'.postings e := by
  intro e he
  rw [h.journal, List.mem_append, List.mem_singleton] at he
  unfold Paired
  rw [h.postings, List.filter_append]
  rcases he with he | rfl
  · obtain ⟨customer, merchant, amount, currency, hpos, hfilter⟩ := hpaired e he
    have hne : h.entry.id ≠ e.id := by
      have hlt := id_lt_next he
      rw [h.id_entry]
      omega
    refine ⟨customer, merchant, amount, currency, hpos, ?_⟩
    rw [hfilter]
    simp [hne]
  · refine ⟨h.customer, h.merchant, h.amount, r.payload.currency, h.positive, ?_⟩
    have hnone : t.postings.filter (fun x => x.journalEntryId = h.entry.id) = [] := by
      rw [List.filter_eq_nil_iff]
      intro x hx hid
      obtain ⟨e, he, heq⟩ := hposted x hx
      have hlt := id_lt_next he
      rw [heq, of_decide_eq_true hid, h.id_entry] at hlt
      omega
    rw [hnone]
    simp

theorem posted_entered (h : Entered r p t t')
    (hposted : ∀ x ∈ t.postings, ∃ e ∈ t.journal, e.id = x.journalEntryId) :
    ∀ x ∈ t'.postings, ∃ e ∈ t'.journal, e.id = x.journalEntryId := by
  intro x hx
  rw [h.journal]
  rw [h.postings, List.mem_append] at hx
  rcases hx with hx | hx
  · obtain ⟨e, he, heq⟩ := hposted x hx
    exact ⟨e, List.mem_append_left _ he, heq⟩
  · refine ⟨h.entry, List.mem_append_right _ (List.mem_singleton_self _), ?_⟩
    simp only [List.mem_cons, List.not_mem_nil, or_false] at hx
    rcases hx with rfl | rfl <;> rfl

/-- The row an amount came to rest on does not fall below zero. -/
theorem nonneg_moved (hrows : (rows.map Account.id).Nodup)
    (hrow : ∃ row ∈ rows, row.id = id ∧ 0 ≤ row.currentBalance.units + delta) (ha : a ∈ rows)
    (hnonneg : 0 ≤ a.currentBalance.units) :
    0 ≤ (a.moved id delta journalId).currentBalance.units := by
  rw [units_moved]
  split
  · rename_i hid
    obtain ⟨row, hmem, hrowid, hle⟩ := hrow
    obtain rfl := eq_of_id hrows ha hmem (hid.trans hrowid.symm)
    exact hle
  · omega

theorem sumOf_entered (h : Entered r p t t') (id : Nat) :
    sumOf .debit id t'.postings = sumOf .debit id t.postings + (if id = h.merchant then h.amount.units else 0) ∧
    sumOf .credit id t'.postings = sumOf .credit id t.postings + if id = h.customer then h.amount.units else 0 := by
  rw [h.postings, sumOf_append, sumOf_append]
  unfold sumOf
  constructor
  · by_cases hid : h.merchant = id
    · simp [hid]
    · simp [hid, Ne.symm hid]
  · by_cases hid : h.customer = id
    · simp [hid]
    · simp [hid, Ne.symm hid]

theorem balances_entered (h : Entered r p t t')
    (hbalances : List.Forall₂ (Carried t.postings) accounts.rows t.accounts.rows) :
    List.Forall₂ (Carried t'.postings) accounts.rows t'.accounts.rows := by
  have hrows : ((t.accounts.rows.map (Account.moved h.customer (-h.amount.units) h.entry.id)).map
      Account.id).Nodup := by
    rw [ids_moved]
    exact t.accounts.primaryKey
  rw [h.rows, List.forall₂_map_right_iff, List.forall₂_map_right_iff]
  rw [List.forall₂_iff_get] at hbalances ⊢
  refine ⟨hbalances.1, fun i hi hj => ?_⟩
  have hcarried := hbalances.2 i hi hj
  have hmem : t.accounts.rows.get ⟨i, hj⟩ ∈ t.accounts.rows := List.get_mem _ _
  generalize t.accounts.rows.get ⟨i, hj⟩ = b at hcarried hmem
  generalize accounts.rows.get ⟨i, hi⟩ = a at hcarried
  obtain ⟨hdebit, hcredit⟩ := sumOf_entered h a.id
  refine ⟨by simp [hcarried.id], by simp [hcarried.ownerId], ?_, fun hnonneg => ?_⟩
  · rw [units_moved, units_moved, id_moved, hcarried.id, hcarried.balance, hdebit, hcredit]
    split <;> split <;> omega
  · refine nonneg_moved hrows h.received (List.mem_map_of_mem hmem) ?_
    exact nonneg_moved t.accounts.primaryKey h.covered hmem (hcarried.nonneg hnonneg)

theorem total_entered (h : Entered r p t t') : total t'.accounts.rows = total t.accounts.rows := by
  have hrows : ((t.accounts.rows.map (Account.moved h.customer (-h.amount.units) h.entry.id)).map
      Account.id).Nodup := by
    rw [ids_moved]
    exact t.accounts.primaryKey
  obtain ⟨customer, hcustomer, hid, -⟩ := h.covered
  obtain ⟨merchant, hmerchant, hid', -⟩ := h.received
  have hpaid : total (t.accounts.rows.map (Account.moved h.customer (-h.amount.units) h.entry.id)) =
      total t.accounts.rows + -h.amount.units := by
    rw [← hid]
    exact total_moved t.accounts.primaryKey hcustomer
  have hgot := @total_moved _ h.entry.id h.amount.units merchant hrows hmerchant
  rw [h.rows, ← hid', hgot, hpaid]
  omega

theorem books_entered (h : Entered r p t t') (hbooks : Books accounts t) : Books accounts t' where
  once := once_entered h hbooks.once
  paired := paired_entered h hbooks.paired hbooks.posted
  posted := posted_entered h hbooks.posted
  balances := balances_entered h hbooks.balances
  conserved := (total_entered h).trans hbooks.conserved

/-! ## Runs -/

/-- A packet and the environment it is run in. -/
structure Call where
  env : Environment
  packet : Entries

def runAll (p : Platform) (verify : Verify) (t : Tables) (calls : List Call) : Tables :=
  calls.foldl (fun t call => (run p verify call.env call.packet t).1) t

theorem books_opened (accounts : AccountTable) : Books accounts (Tables.opened accounts) where
  once := List.nodup_nil
  paired := fun _ he => absurd he List.not_mem_nil
  posted := fun _ hx => absurd hx List.not_mem_nil
  balances := by
    refine List.forall₂_same.mpr fun a _ => ⟨rfl, rfl, ?_, id⟩
    show a.currentBalance.units = a.currentBalance.units + 0 - 0
    omega
  conserved := rfl

theorem books_run (hbooks : Books accounts t) (call : Call) :
    Books accounts (run p verify call.env call.packet t).1 := by
  rcases run_cases p verify call.env call.packet t with hsame | ⟨r, receipt, -, -, ⟨hentered⟩⟩
  · rw [hsame]
    exact hbooks
  · exact books_entered hentered hbooks

theorem books_runAll (hbooks : Books accounts t) (calls : List Call) :
    Books accounts (runAll p verify t calls) := by
  unfold runAll
  induction calls generalizing t with
  | nil => exact hbooks
  | cons call calls ih => exact ih (books_run hbooks call)

/-- The tables change only under a call that reports that it settled. -/
def ChangesWhenSettled (p : Platform) (verify : Verify) (t : Tables) (call : Call) : Prop :=
  (run p verify call.env call.packet t).1 = t ∨
    ∃ receipt, (run p verify call.env call.packet t).2 = .ok receipt ∧ receipt.status = .settled

end

/-- The books are in order after every run, and what does not settle changes nothing. -/
theorem settlements_double_entry (p : Platform) (verify : Verify) (accounts : AccountTable)
    (calls : List Call) :
    Books accounts (runAll p verify (.opened accounts) calls) ∧
      ∀ call, ChangesWhenSettled p verify (runAll p verify (.opened accounts) calls) call := by
  refine ⟨books_runAll (books_opened accounts) calls, fun call => ?_⟩
  unfold ChangesWhenSettled
  rcases run_cases p verify call.env call.packet (runAll p verify (.opened accounts) calls) with
    hsame | ⟨_, receipt, hok, hsettled, -⟩
  · exact .inl hsame
  · exact .inr ⟨receipt, hok, hsettled⟩

end SimpleL1.Kernel.Settlement
