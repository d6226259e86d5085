import SimpleL1.Kernel.State

/-!
# Value and nonces

An intent that is applied moves its amount from the signer to the recipient,
raises the nonce of the signer and the height by one, and changes nothing else.
An intent that is refused changes nothing.
-/

namespace SimpleL1.Kernel

open SimpleL1.Lib SimpleL1.Lib.Effect

/-! ## Accounts -/

def balanceOf (accounts : Accounts) (a : Address) : Nat :=
  ((accounts.find a).map (·.balance.toNat)).getD 0

def nonceOf (accounts : Accounts) (a : Address) : UInt64 :=
  ((accounts.find a).map AccountState.nonce).getD 0

/-- What all accounts hold. -/
def total (accounts : Accounts) : Nat := accounts.sum (·.balance.toNat)

section
variable {accounts accounts' : Accounts} {a b signer : Address} {args : TransferPayload}

theorem balanceOf_insert (account : AccountState) :
    balanceOf (accounts.insert a account) b =
      if a = b then account.balance.toNat else balanceOf accounts b := by
  unfold balanceOf
  rw [SortedMap.find_insert]
  split <;> rfl

theorem nonceOf_insert (account : AccountState) :
    nonceOf (accounts.insert a account) b = if a = b then account.nonce else nonceOf accounts b := by
  unfold nonceOf
  rw [SortedMap.find_insert]
  split <;> rfl

theorem total_insert (accounts : Accounts) (a : Address) (account : AccountState) :
    total (accounts.insert a account) + balanceOf accounts a =
      total accounts + account.balance.toNat :=
  SortedMap.sum_insert _ accounts a account

theorem nonceOf_getD : ((accounts.find a).getD ⟨0, 0⟩).nonce = nonceOf accounts a := by
  unfold nonceOf
  cases accounts.find a <;> rfl

theorem balanceOf_getD :
    ((accounts.find a).getD ⟨0, 0⟩).balance.toNat = balanceOf accounts a := by
  unfold balanceOf
  cases accounts.find a <;> rfl

theorem checkedSub_eq_some {x y z : UInt64} (h : checkedSub x y = some z) :
    z.toNat + y.toNat = x.toNat := by
  unfold checkedSub at h
  split at h
  · next hle =>
    cases h
    rw [UInt64.toNat_sub_of_le _ _ hle]
    have := UInt64.le_iff_toNat_le.mp hle
    omega
  · cases h

theorem checkedAdd_eq_some {x y z : UInt64} (h : checkedAdd x y = some z) :
    z.toNat = x.toNat + y.toNat := by
  unfold checkedAdd at h
  split at h
  · next hlt =>
    cases h
    rw [UInt64.toNat_add, Nat.mod_eq_of_lt hlt]
  · cases h

/-! ## Transfers -/

/-- The amount goes from the signer to the recipient; the balances are taken as numbers, so none of
them wraps around. -/
structure Moved (accounts accounts' : Accounts) (signer : Address) (args : TransferPayload) :
    Prop where
  total : total accounts' = total accounts
  balance : ∀ a, balanceOf accounts' a + (if a = signer then args.amount.toNat else 0) =
    balanceOf accounts a + (if a = args.toAddress then args.amount.toNat else 0)
  nonce : ∀ a, nonceOf accounts' a = nonceOf accounts a
  others : ∀ a, a ≠ signer → a ≠ args.toAddress → accounts'.find a = accounts.find a
  signer : (accounts'.find signer).isSome

theorem transfer_moves (h : transfer accounts signer args = .ok accounts') :
    Moved accounts accounts' signer args := by
  unfold transfer at h
  split at h
  · cases h
  next sender hsender =>
  split at h
  · cases h
  split at h
  · cases h
  next debited hdebited =>
  dsimp only at h
  split at h
  · cases h
  next credited hcredited =>
  cases h
  have hsub := checkedSub_eq_some hdebited
  have hadd := checkedAdd_eq_some hcredited
  have hbalance : balanceOf accounts signer = sender.balance.toNat := by
    unfold balanceOf
    rw [hsender]
    rfl
  have hnonce : nonceOf accounts signer = sender.nonce := by
    unfold nonceOf
    rw [hsender]
    rfl
  have htotal := total_insert accounts signer { sender with balance := debited }
  rw [balanceOf_getD] at hadd
  refine ⟨?_, fun a => ?_, fun a => ?_, fun a hsigner hto => ?_, ?_⟩
  · have htotal' := total_insert (accounts.insert signer { sender with balance := debited })
      args.toAddress
      { ((accounts.insert signer { sender with balance := debited }).find args.toAddress).getD ⟨0, 0⟩
          with balance := credited }
    dsimp only at htotal htotal' ⊢
    omega
  · simp only [balanceOf_insert, eq_comm (a := a)] at hadd ⊢
    split <;> split <;> simp_all
  · simp only [nonceOf_insert, nonceOf_getD]
    split
    · next hto =>
      split
      · next hself => rw [← hnonce, ← hto, hself]
      · rw [hto]
    · split
      · next hsigner => rw [← hnonce, hsigner]
      · rfl
  · rw [SortedMap.find_insert_of_ne _ (Ne.symm hto), SortedMap.find_insert_of_ne _ (Ne.symm hsigner)]
  · rw [SortedMap.find_insert]
    split
    · rfl
    · rw [SortedMap.find_insert_self]
      rfl

end

/-! ## Intents -/

/-- The intent of the signer was applied. -/
structure Applied (s s' : State) (signer : Address) (args : TransferPayload) : Prop where
  total : total s'.accounts = total s.accounts
  balance : ∀ a, balanceOf s'.accounts a + (if a = signer then args.amount.toNat else 0) =
    balanceOf s.accounts a + (if a = args.toAddress then args.amount.toNat else 0)
  others : ∀ a, a ≠ signer → a ≠ args.toAddress → s'.accounts.find a = s.accounts.find a
  nonce : (s'.getNonce signer).toNat = (s.getNonce signer).toNat + 1
  nonces : ∀ a, a ≠ signer → s'.getNonce a = s.getNonce a
  height : s'.ledgerHeight.toNat = s.ledgerHeight.toNat + 1

section
variable {p : Primitives} {s s' : State} {intent : Intent} {α β : Type}

theorem mapError_eq_ok {x : Except KernelError α} {a : α} :
    x.mapError Abort.err = .ok a ↔ x = .ok a := by
  cases x <;> simp [Except.mapError]

theorem attempt_bind_eq_ok {x : Except KernelError α} {f : α → KernelM β} {b : β} :
    (attempt x >>= f) s = .ok b s' ↔ ∃ a, x = .ok a ∧ f a s = .ok b s' := by
  unfold attempt
  simp only [lift_bind_eq_ok, mapError_eq_ok]

theorem attempt_bind_eq_error {x : Except KernelError α} {f : α → KernelM β} {e : Abort}
    (h : (attempt x >>= f) s = .error e s') : s' = s ∨ ∃ a, x = .ok a ∧ f a s = .error e s' := by
  unfold attempt at h
  simp only [lift_bind_eq_error, mapError_eq_ok] at h
  exact h.imp_left And.right

theorem increment_eq_ok {n m : UInt64} (h : increment n = .ok m) : m.toNat = n.toNat + 1 := by
  unfold increment at h
  split at h
  · next hlt =>
    cases h
    rw [UInt64.toNat_add]
    exact Nat.mod_eq_of_lt hlt
  · cases h

theorem increment_eq_error {n : UInt64} {e : Abort} (h : increment n = .error e) :
    ∃ message, e = .panic message := by
  unfold increment at h
  split at h
  · cases h
  · cases h
    exact ⟨_, rfl⟩

theorem routeAndExecute_moves {accounts : Accounts} (h : s.routeAndExecute intent = .ok accounts) :
    ∃ args, transferPayload intent.payload = .ok args ∧
      Moved s.accounts accounts intent.signer args := by
  unfold State.routeAndExecute executeSystemDomain at h
  split at h
  · split at h
    · cases hargs : transferPayload intent.payload with
      | error e => rw [hargs] at h; cases h
      | ok args =>
        rw [hargs] at h
        exact ⟨args, rfl, transfer_moves h⟩
    · cases h
  · cases h

/-- The accounts after `incrementNonce` of an account that exists. -/
theorem incrementNonce_eq_ok {signer : Address} {account : AccountState} {u : Unit}
    (hfind : s.accounts.find signer = some account) (h : incrementNonce signer s = .ok u s') :
    ∃ nonce, increment account.nonce = .ok nonce ∧
      s' = { s with accounts := s.accounts.insert signer { account with nonce } } := by
  unfold incrementNonce at h
  rw [get_bind_apply, hfind] at h
  obtain ⟨nonce, hnonce, h⟩ := lift_bind_eq_ok.mp h
  cases h
  exact ⟨nonce, hnonce, rfl⟩

theorem incrementHeight_eq_ok {u : Unit} (h : incrementHeight s = .ok u s') :
    ∃ ledgerHeight, increment s.ledgerHeight = .ok ledgerHeight ∧ s' = { s with ledgerHeight } := by
  unfold incrementHeight at h
  rw [get_bind_apply] at h
  obtain ⟨ledgerHeight, hheight, h⟩ := lift_bind_eq_ok.mp h
  cases h
  exact ⟨ledgerHeight, hheight, rfl⟩

/-- The counters go up after the transfer. -/
theorem Moved.applied {accounts : Accounts} {signer : Address} {args : TransferPayload}
    {account : AccountState} {nonce ledgerHeight : UInt64} (h : Moved s.accounts accounts signer args)
    (hfind : accounts.find signer = some account) (hnonce : nonce.toNat = account.nonce.toNat + 1)
    (hheight : ledgerHeight.toNat = s.ledgerHeight.toNat + 1) :
    Applied s ⟨accounts.insert signer { account with nonce }, ledgerHeight⟩ signer args := by
  have hbalance : balanceOf accounts signer = account.balance.toNat := by
    unfold balanceOf
    rw [hfind]
    rfl
  have hold : account.nonce = s.getNonce signer := by
    rw [show s.getNonce signer = nonceOf s.accounts signer from rfl, ← h.nonce]
    unfold nonceOf
    rw [hfind]
    rfl
  refine ⟨?_, fun a => ?_, fun a hsigner hto => ?_, ?_, fun a hsigner => ?_, hheight⟩
  · have htotal := total_insert accounts signer { account with nonce }
    rw [← h.total]
    dsimp only at htotal ⊢
    omega
  · rw [← h.balance a, balanceOf_insert]
    split
    · next heq => rw [← heq, hbalance]
    · rfl
  · rw [SortedMap.find_insert_of_ne _ (Ne.symm hsigner)]
    exact h.others a hsigner hto
  · show (nonceOf (accounts.insert signer { account with nonce }) signer).toNat = _
    rw [nonceOf_insert, if_pos rfl, hnonce, hold]
  · show nonceOf (accounts.insert signer { account with nonce }) a = _
    rw [nonceOf_insert, if_neg (Ne.symm hsigner), h.nonce a]
    rfl

/-- What `apply` has checked and done when it returns. -/
theorem apply_eq_ok {root : Hash} (h : apply p intent s = .ok root s') :
    verifyCryptography p intent = .ok () ∧ intent.nonce = s.getNonce intent.signer ∧
      ∃ args, transferPayload intent.payload = .ok args ∧ Applied s s' intent.signer args := by
  unfold apply at h
  obtain ⟨_, hverified, h⟩ := attempt_bind_eq_ok.mp h
  rw [get_bind_apply] at h
  by_cases hnonce : intent.nonce = s.getNonce intent.signer
  · rw [if_neg (not_not.mpr hnonce)] at h
    dsimp only at h
    rw [get_bind_apply] at h
    obtain ⟨accounts, hrouted, h⟩ := attempt_bind_eq_ok.mp h
    rw [modify_bind_apply] at h
    obtain ⟨_, s₁, hraised, h⟩ := run_bind_eq_ok.mp h
    obtain ⟨_, s₂, hheight, h⟩ := run_bind_eq_ok.mp h
    obtain ⟨-, rfl⟩ := lift_eq_ok.mp h
    obtain ⟨args, hargs, hmoved⟩ := routeAndExecute_moves hrouted
    obtain ⟨account, hfind⟩ := Option.isSome_iff_exists.mp hmoved.signer
    obtain ⟨nonce, hincrement, rfl⟩ := incrementNonce_eq_ok hfind hraised
    obtain ⟨ledgerHeight, hledgerHeight, rfl⟩ := incrementHeight_eq_ok hheight
    exact ⟨hverified, hnonce, args, hargs,
      hmoved.applied hfind (increment_eq_ok hincrement) (increment_eq_ok hledgerHeight)⟩
  · rw [if_pos hnonce] at h
    cases h

/-! ## Refusals -/

theorem incrementNonce_eq_error {signer : Address} {e : Abort} (h : incrementNonce signer s = .error e s') :
    ∃ message, e = .panic message := by
  unfold incrementNonce at h
  rw [get_bind_apply] at h
  cases hfind : s.accounts.find signer with
  | none => rw [hfind] at h; cases h
  | some account =>
    rw [hfind] at h
    rcases lift_bind_eq_error.mp h with ⟨hnonce, -⟩ | ⟨nonce, -, h⟩
    · exact increment_eq_error hnonce
    · cases h

theorem incrementHeight_eq_error {e : Abort} (h : incrementHeight s = .error e s') :
    ∃ message, e = .panic message := by
  unfold incrementHeight at h
  rw [get_bind_apply] at h
  rcases lift_bind_eq_error.mp h with ⟨hheight, -⟩ | ⟨height, -, h⟩
  · exact increment_eq_error hheight
  · cases h

theorem rootHash_eq_error {e : Abort} (h : s.rootHash p = .error e) :
    ∃ message, e = .panic message := by
  unfold State.rootHash at h
  split at h
  · cases h
    exact ⟨_, rfl⟩
  · cases h

/-- An error comes before the accounts are written. -/
theorem apply_eq_err {e : KernelError} (h : apply p intent s = .error (.err e) s') : s' = s := by
  unfold apply at h
  rcases attempt_bind_eq_error h with rfl | ⟨_, -, h⟩
  · rfl
  rw [get_bind_apply] at h
  dsimp only at h
  split at h
  · cases h
    rfl
  · rw [get_bind_apply] at h
    rcases attempt_bind_eq_error h with rfl | ⟨accounts, -, h⟩
    · rfl
    rw [modify_bind_apply] at h
    -- What is left can only panic.
    exfalso
    have hpanic : ∃ message, Abort.err e = .panic message := by
      rcases run_bind_eq_error.mp h with h | ⟨_, s₁, -, h⟩
      · exact incrementNonce_eq_error h
      rcases run_bind_eq_error.mp h with h | ⟨_, s₂, -, h⟩
      · exact incrementHeight_eq_error h
      · exact rootHash_eq_error (lift_eq_error.mp h).1
    obtain ⟨message, hpanic⟩ := hpanic
    cases hpanic

end

/-- An intent is applied as a whole or not at all. -/
theorem apply_conserves (p : Primitives) (s : State) (intent : Intent) :
    (∀ e s', apply p intent s = .error (.err e) s' → s' = s) ∧
      ∀ root s', apply p intent s = .ok root s' → ∃ args, transferPayload intent.payload = .ok args ∧
        Applied s s' intent.signer args :=
  ⟨fun _ _ h => apply_eq_err h, fun _ _ h => (apply_eq_ok h).2.2⟩

/-! ## A transfer -/

theorem length_padded (bytes : List Byte) :
    ((bytes ++ List.replicate 32 0).take 32).length = 32 := by
  rw [List.length_take, List.length_append, List.length_replicate]
  omega

theorem length_padded_address (bytes : List Byte) :
    ((bytes ++ List.replicate 20 0).take 20).length = 20 := by
  rw [List.length_take, List.length_append, List.length_replicate]
  omega

/-- A text is its own hash, and a key its own signature. -/
def plain : Primitives where
  blake3 bytes := ⟨(bytes ++ List.replicate 32 0).take 32, length_padded bytes⟩
  verifies pubkey _ signature := pubkey == signature

/-- The address of the key. -/
def plainAddress (pubkey : List Byte) : Address :=
  ⟨(pubkey ++ List.replicate 20 0).take 20, length_padded_address pubkey⟩

def aliceFunded : State := ⟨.insert .empty (plainAddress [1]) ⟨10, 0⟩, 0⟩

/-- Alice sends the amount to Bob. -/
def aliceToBob (nonce amount : UInt64) (signature : List Byte) : Intent where
  domain := "simple_l1::system"
  action := "transfer"
  payload := (plainAddress [2]).val ++ borshU64 amount
  nonce
  signer := plainAddress [1]
  pubkey := [1]
  signature

theorem aliceToBob_applies :
    (outcome (apply plain (aliceToBob 0 4 [1])) aliceFunded).isOk = true := by
  decide +kernel

theorem apply_conserves_transfer :
    ∃ root s', apply plain (aliceToBob 0 4 [1]) aliceFunded = .ok root s' ∧
      ∃ args, transferPayload (aliceToBob 0 4 [1]).payload = .ok args ∧
        Applied aliceFunded s' (plainAddress [1]) args := by
  have hok := aliceToBob_applies
  unfold outcome at hok
  split at hok
  · next root s' happly =>
    exact ⟨root, s', happly, (apply_conserves plain aliceFunded _).2 root s' happly⟩
  · cases hok

end SimpleL1.Kernel
