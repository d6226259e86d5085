import SimpleL1.Node.Verdict

/-!
# When the state root can be computed

The state root reads the balance and the nonce of every account, and an object
with its own `toString` in either place stops it. Few events decide whether an
account can be counted: a `GENESIS` puts a fresh account in place, an admission
puts one in as it comes, and no other event changes balance or nonce.
-/

namespace SimpleL1.Node

open SimpleL1.Js SimpleL1.Lib SimpleL1.Lib.Effect

/-- The balance and the nonce of the account are numbers and texts to JavaScript. -/
def Readable (account : Fields) : Prop :=
  (∃ balance, nativeBalance account = .ok balance) ∧
    ∃ nonce, toStr (or (account.get "nonce") zero) = .ok nonce

theorem accountLine_ok {a : String} {account : Fields} :
    (∃ line, accountLine a account = .ok line) ↔ Readable account := by
  unfold accountLine Readable
  cases nativeBalance account with
  | error e => exact ⟨nofun, nofun⟩
  | ok balance =>
    cases toStr (or (account.get "nonce") zero) with
    | error e => exact ⟨nofun, nofun⟩
    | ok nonce => exact ⟨fun _ => ⟨⟨_, rfl⟩, _, rfl⟩, fun _ => ⟨_, rfl⟩⟩

theorem accountLines_ok (accounts : List (String × Fields)) :
    (∃ lines, accountLines accounts = .ok lines) ↔ ∀ a ∈ accounts, Readable a.2 := by
  induction accounts with
  | nil => simp [accountLines]
  | cons a accounts ih =>
    obtain ⟨a, account⟩ := a
    rw [List.forall_mem_cons, ← ih, ← accountLine_ok (a := a), accountLines]
    cases accountLine a account with
    | error e => exact ⟨nofun, fun ⟨h, _⟩ => nomatch h⟩
    | ok line =>
      cases accountLines accounts with
      | error e => exact ⟨nofun, fun ⟨_, h⟩ => nomatch h⟩
      | ok lines => exact ⟨fun _ => ⟨⟨_, rfl⟩, _, rfl⟩, fun _ => ⟨_, rfl⟩⟩

/-- The account at the address `a`, if there is one, can be counted. -/
def Counts (ledger : Ledger) (a : String) : Prop :=
  ∀ account, ledger.account a = some account → Readable account

theorem calculateStateRoot_ok (p : Platform) (ledger : Ledger) :
    (∃ root, calculateStateRoot p ledger = .ok root) ↔ ∀ a, Counts ledger a := by
  have hroot : (∃ root, calculateStateRoot p ledger = .ok root) ↔
      ∃ lines, accountLines (sortFields ledger.accounts.entries) = .ok lines := by
    unfold calculateStateRoot stateText
    cases accountLines (sortFields ledger.accounts.entries) <;> simp
  rw [hroot, accountLines_ok]
  unfold Counts
  simp only [(perm_sortFields ledger.accounts.entries).mem_iff, Ledger.account,
    OrderedMap.find_eq_some, Prod.forall]

/-! ## One account after a write -/

section
variable {ledger : Ledger} {a b : String} {account : Fields}

theorem counts_congr {l l' : Ledger} (h : l'.account a = l.account a) : Counts l' a ↔ Counts l a := by
  unfold Counts
  rw [h]

theorem counts_setAccount :
    Counts (ledger.setAccount b account) a ↔ if b = a then Readable account else Counts ledger a := by
  unfold Counts
  split
  · next h => subst h; simp
  · next h => rw [account_setAccount_of_ne ledger h]

/-- The account is replaced by one that is as readable. -/
theorem counts_replace {old : Fields} (hold : ledger.account b = some old)
    (h : Readable account ↔ Readable old) :
    Counts (ledger.setAccount b account) a ↔ Counts ledger a := by
  rw [counts_setAccount]
  split
  · next heq =>
    subst heq
    unfold Counts
    simp [hold, h]
  · exact Iff.rfl

@[simp] theorem readable_set {k : String} {v : Json} (hb : k ≠ "balances") (hn : k ≠ "nonce") :
    Readable (account.set k v) ↔ Readable account := by
  unfold Readable nativeBalance
  rw [Fields.get_set, if_neg (Ne.symm hb), Fields.get_set, if_neg (Ne.symm hn)]

end

/-! ## The accounts the handlers write -/

section
variable (p : Platform) (ledger : Ledger) (event : Json) (a : String)

@[simp] theorem counts_setStore (s : Store) (xs : List Fields) :
    Counts (ledger.setStore s xs) a ↔ Counts ledger a := Iff.rfl

@[simp] theorem counts_rebind (others : List Fields) (id : JsM String) (binding : String → Fields) :
    Counts (after (rebind others id binding) ledger) a ↔ Counts ledger a := by
  unfold rebind
  cases id <;> simp [after_bind]

theorem addedPasskey_account {added : AddedPasskey} (h : addedPasskey p ledger event = .ok added) :
    ledger.account added.entityAddress = some added.account := by
  unfold addedPasskey at h
  obtain ⟨payload, _, h⟩ := bind_eq_ok.mp h
  obtain ⟨⟨entityAddress, account⟩, haccount, h⟩ := bind_eq_ok.mp h
  obtain ⟨keyAddress, _, h⟩ := bind_eq_ok.mp h
  obtain ⟨counter, _, h⟩ := bind_eq_ok.mp h
  obtain ⟨keys, _, h⟩ := bind_eq_ok.mp h
  obtain ⟨others, _, h⟩ := bind_eq_ok.mp h
  cases h
  exact (passkeyAccount_eq_ok.mp haccount).2

theorem counts_addPasskey :
    Counts (after (addPasskey p event) ledger) a ↔ Counts ledger a := by
  unfold addPasskey
  cases h : addedPasskey p ledger event with
  | error e => simp [after_bind, h]
  | ok added =>
    simp only [after_bind, outcome_reading, after_reading, h, outcome_writeAccount,
      after_writeAccount, outcome_readStore, after_readStore, counts_rebind]
    exact counts_replace (addedPasskey_account p ledger event h)
      (readable_set (by decide) (by decide))

/-- Only objects have properties. -/
theorem optional_of_falsy {v : Option Json} (h : truthy v = false) (k : String) :
    optional v k = none := by
  rcases v with _ | (_ | _ | _ | _ | _ | _) <;> first | rfl | cases h

theorem balance_kept (existing : Fields) :
    (∃ balance, toNumber
      (nullish (optional (some (orElse (existing.get "balances") initialBalances)) "SL")
        (nullish (optional (some (orElse (existing.get "balances") initialBalances)) "SL1") zero)) =
          .ok balance) ↔
      ∃ balance, toNumber (nullish (optional (existing.get "balances") "SL")
        (nullish (optional (existing.get "balances") "SL1") zero)) = .ok balance := by
  cases h : truthy (existing.get "balances") with
  | true => rw [orElse_of_truthy h]
  | false =>
    rw [orElse_of_falsy h, optional_of_falsy h, optional_of_falsy h]
    exact iff_of_true ⟨_, rfl⟩ ⟨_, rfl⟩

theorem nonce_kept (existing : Fields) :
    (∃ nonce, toStr (or (some (orElse (existing.get "nonce") (.num (.int 0)))) zero) = .ok nonce) ↔
      ∃ nonce, toStr (or (existing.get "nonce") zero) = .ok nonce := by
  cases h : truthy (existing.get "nonce") with
  | true => rw [orElse_of_truthy h]
  | false =>
    rw [orElse_of_falsy h, Js.or, Js.or, h]
    exact iff_of_true ⟨_, rfl⟩ ⟨_, rfl⟩

theorem readable_nil : Readable [] := ⟨⟨_, rfl⟩, _, rfl⟩

/-- The balance and the nonce of a new controller's account are the ones it had, or new ones. -/
theorem readable_native {native : NativeController}
    (h : nativeController p ledger event = .ok native) :
    Readable native.account ↔ Readable ((ledger.account native.entityAddress).getD []) := by
  unfold nativeController at h
  obtain ⟨payload, _, h⟩ := bind_eq_ok.mp h
  obtain ⟨entityAddress, _, h⟩ := bind_eq_ok.mp h
  obtain ⟨keyAddress, _, h⟩ := bind_eq_ok.mp h
  obtain ⟨publicKey, _, h⟩ := bind_eq_ok.mp h
  obtain ⟨label, _, h⟩ := bind_eq_ok.mp h
  obtain ⟨keys, _, h⟩ := bind_eq_ok.mp h
  obtain ⟨others, _, h⟩ := bind_eq_ok.mp h
  cases h
  dsimp only
  generalize (ledger.account entityAddress).getD [] = existing
  unfold Readable nativeBalance merge
  simp only [List.foldl_cons, List.foldl_nil, Fields.get_set, String.reduceEq, if_true, if_false]
  exact and_congr (balance_kept existing) (nonce_kept existing)

theorem counts_bootstrap :
    Counts (after (bootstrapNativeController p event) ledger) a ↔ Counts ledger a := by
  unfold bootstrapNativeController
  cases h : nativeController p ledger event with
  | error e => simp [after_bind, h]
  | ok native =>
    have hwrite : Counts (ledger.setAccount native.entityAddress native.account) a ↔
        Counts ledger a := by
      rw [counts_setAccount, readable_native p ledger event h]
      split
      · next heq =>
        subst heq
        unfold Counts
        cases ledger.account native.entityAddress with
        | none => simp [readable_nil]
        | some account => simp
      · exact Iff.rfl
    rw [← hwrite]
    cases h' : Js.filter (isOtherController native.entityAddress native.keyAddress)
        (ledger.stores .controller_bindings) with
    | error e => simp [after_bind, h, h']
    | ok others => simp [after_bind, h, h']

theorem counts_bindApproved (proposal : Fields) :
    Counts (after (bindApproved p event proposal) ledger) a ↔ Counts ledger a := by
  unfold bindApproved
  cases assertEntityAddress p (proposal.get "entity_l1_address") with
  | error e => simp [after_bind]
  | ok entityAddress =>
    cases assertKeyAddress p (proposal.get "proposed_controller_key_l1_address") with
    | error e => simp [after_bind]
    | ok keyAddress =>
      cases haccount : ledger.account entityAddress with
      | none => simp [after_bind, haccount]
      | some account =>
        cases haccount' : approvedAccount event proposal keyAddress account with
        | error e => simp [after_bind, haccount, haccount']
        | ok account' =>
          have hwrite : Counts (ledger.setAccount entityAddress account') a ↔ Counts ledger a := by
            unfold approvedAccount at haccount'
            obtain ⟨counter, _, haccount'⟩ := bind_eq_ok.mp haccount'
            obtain ⟨keys, _, haccount'⟩ := bind_eq_ok.mp haccount'
            obtain ⟨others, _, haccount'⟩ := bind_eq_ok.mp haccount'
            cases haccount'
            exact counts_replace haccount (readable_set (by decide) (by decide))
          rw [← hwrite]
          cases hothers : Js.filter (isOtherController entityAddress keyAddress)
              (ledger.stores .controller_bindings) with
          | error e => simp [after_bind, haccount, haccount', hothers]
          | ok others => simp [after_bind, haccount, haccount', hothers]

theorem counts_approve :
    Counts (after (approveController p event) ledger) a ↔ Counts ledger a := by
  unfold approveController
  rw [after_bind, outcome_readStore, after_readStore]
  dsimp only
  split
  · simp
  · rw [after_bind, outcome_lift, after_lift]
    cases payloadOf event with
    | error e => simp
    | ok payload =>
      dsimp only
      rw [after_bind, outcome_writeStore, after_writeStore]
      dsimp only
      split
      · simp
      · rw [counts_bindApproved, counts_setStore]

theorem revokedPasskey_account {passkey : RevokedPasskey}
    (h : revokedPasskey p ledger event = .ok passkey) :
    ledger.account passkey.entityAddress = some passkey.account := by
  unfold revokedPasskey at h
  obtain ⟨payload, _, h⟩ := bind_eq_ok.mp h
  obtain ⟨⟨entityAddress, account⟩, haccount, h⟩ := bind_eq_ok.mp h
  obtain ⟨credentialId, _, h⟩ := bind_eq_ok.mp h
  obtain ⟨keys, _, h⟩ := bind_eq_ok.mp h
  obtain ⟨keys', _, h⟩ := bind_eq_ok.mp h
  cases h
  exact (passkeyAccount_eq_ok.mp haccount).2

theorem counts_revokePasskey :
    Counts (after (revokePasskey p event) ledger) a ↔ Counts ledger a := by
  unfold revokePasskey
  cases h : revokedPasskey p ledger event with
  | error e => simp [after_bind, h]
  | ok passkey =>
    have haccount := revokedPasskey_account p ledger event h
    have hkeys : Counts (ledger.setAccount passkey.entityAddress
        (passkey.account.set "keys" (.arr passkey.keys))) a ↔ Counts ledger a :=
      counts_replace haccount (readable_set (by decide) (by decide))
    have hstatus : Counts ((ledger.setAccount passkey.entityAddress
        (passkey.account.set "keys" (.arr passkey.keys))).setAccount passkey.entityAddress
        ((passkey.account.set "keys" (.arr passkey.keys)).set "credential_status" (.str "revoked"))) a ↔
        Counts ledger a :=
      (counts_replace (account_setAccount _ _ _) (readable_set (by decide) (by decide))).trans hkeys
    simp only [after_bind, outcome_reading, after_reading, h, outcome_writeAccount,
      after_writeAccount, outcome_lift, after_lift]
    split
    · next primary _ =>
      have hprimary : Counts (after (revokePrimary passkey.entityAddress
          (passkey.account.set "keys" (.arr passkey.keys)) (primary == passkey.credentialId))
          (ledger.setAccount passkey.entityAddress
            (passkey.account.set "keys" (.arr passkey.keys)))) a ↔ Counts ledger a := by
        unfold revokePrimary
        split
        · exact hstatus
        · exact hkeys
      rw [outcome_revokePrimary, outcome_readStore, after_readStore]
      dsimp only
      split
      · exact hprimary
      · exact hprimary
    · exact hkeys

theorem readable_genesis {genesis : Genesis} (h : genesisOf p event = .ok genesis) :
    Readable genesis.account := by
  unfold genesisOf at h
  obtain ⟨payload, _, h⟩ := bind_eq_ok.mp h
  obtain ⟨counter, _, h⟩ := bind_eq_ok.mp h
  obtain ⟨entityAddress, _, h⟩ := bind_eq_ok.mp h
  obtain ⟨keyAddress, _, h⟩ := bind_eq_ok.mp h
  cases h
  unfold Readable nativeBalance
  simp only [List.cons_append, List.nil_append, Fields.get_ofOptions_cons, String.reduceEq,
    if_true, if_false]
  exact ⟨⟨_, rfl⟩, _, rfl⟩

theorem counts_applyGenesis :
    Counts (after (applyGenesis p event) ledger) a ↔
      (∃ genesis, genesisOf p event = .ok genesis ∧ genesis.entityAddress = a) ∨ Counts ledger a := by
  unfold applyGenesis
  cases h : genesisOf p event with
  | error e => simp [after_bind]
  | ok genesis =>
    have hwrite : Counts (ledger.setAccount genesis.entityAddress genesis.account) a ↔
        genesis.entityAddress = a ∨ Counts ledger a := by
      rw [counts_setAccount]
      split
      · next heq => exact iff_of_true (readable_genesis p event h) (.inl heq)
      · next heq => exact (or_iff_right heq).symm
    have hbind (l : Ledger) : Counts (after (bindGenesis p event genesis) l) a ↔ Counts l a := by
      unfold bindGenesis
      cases genesis.keyAddress with
      | none => exact Iff.rfl
      | some keyAddress =>
        dsimp only
        split
        · simp [after_bind]
        · exact Iff.rfl
    simp only [after_bind, outcome_lift, after_lift, outcome_writeAccount, after_writeAccount,
      after_modify, Except.ok.injEq, exists_eq_left']
    rw [← hwrite]
    split
    · exact hbind _
    · exact hbind _

theorem counts_admitAccount :
    Counts (after (admitAccount p event) ledger) a ↔
      (∀ account, admittedAccount p event = .ok (a, account) → ledger.account a = none →
        Readable account) ∧ Counts ledger a := by
  unfold admitAccount
  cases admittedAccount p event with
  | error e => simp [after_bind]
  | ok admitted =>
    obtain ⟨b, account⟩ := admitted
    simp only [after_bind, outcome_lift, after_lift, outcome_readAccount, after_readAccount]
    cases h : ledger.account b with
    | none =>
      simp only [after_writeAccount]
      rw [counts_setAccount]
      split
      · next heq =>
        subst heq
        simp [h, Counts]
      · next heq =>
        simp [heq]
    | some existing =>
      simp only [after_pure]
      refine (and_iff_right ?_).symm
      rintro account' ⟨⟩ hnone
      rw [h] at hnone
      cases hnone

/-- The account at `a` can be counted after the event. -/
def CountsAfter : Prop :=
  match ledgerEventType event with
  | some .genesis =>
    (∃ genesis, genesisOf p event = .ok genesis ∧ genesis.entityAddress = a) ∨ Counts ledger a
  | some .accountProvenanceAdmission =>
    (∀ account, admittedAccount p event = .ok (a, account) → ledger.account a = none →
      Readable account) ∧ Counts ledger a
  | _ => Counts ledger a

theorem counts_handleEvent :
    Counts (after (handleEvent p event) ledger) a ↔ CountsAfter p ledger event a := by
  have hframe := (local_handleEvent p event).frame ledger (.account a)
  unfold CountsAfter
  unfold handleEvent eventFootprint at *
  cases htype : ledgerEventType event with
  | none =>
    rw [htype] at hframe
    exact counts_congr (hframe nofun)
  | some t =>
    cases t with
    | genesis => exact counts_applyGenesis p ledger event a
    | passkeyAdded => exact counts_addPasskey p ledger event a
    | nativeControllerBootstrapped => exact counts_bootstrap p ledger event a
    | controllerBindingApproved => exact counts_approve p ledger event a
    | passkeyRevoked => exact counts_revokePasskey p ledger event a
    | accountProvenanceAdmission => exact counts_admitAccount p ledger event a
    | _ =>
      rw [htype] at hframe
      exact counts_congr (hframe (by simp [footprint]))

end

end SimpleL1.Node
