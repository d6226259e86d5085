import SimpleL1.Node.Order

/-!
# What an event does to accounts and bindings

The handlers of the key events, as equations: the account at an address and the
table of controller bindings after the handler, whether it returns or throws.
-/

namespace SimpleL1.Node

open SimpleL1.Js SimpleL1.Lib SimpleL1.Lib.Effect

section
variable (p : Platform) (ledger : Ledger) (event : Json) (a : String)

theorem account_setAccount_eq (ledger : Ledger) (address a : String) (account : Fields) :
    (ledger.setAccount address account).account a =
      if address = a then some account else ledger.account a :=
  OrderedMap.find_insert ledger.accounts address a account

@[simp] theorem stores_deposit (btc entityAddress : String) :
    (ledger.deposit btc entityAddress).stores = ledger.stores := rfl

/-! ## `GENESIS` and `PASSKEY_ADDED` -/

theorem account_applyGenesis :
    (after (applyGenesis p event) ledger).account a =
      match genesisOf p event with
      | .ok genesis => if genesis.entityAddress = a then some genesis.account else ledger.account a
      | .error _ => ledger.account a := by
  unfold applyGenesis
  cases genesisOf p event with
  | error e => simp [after_bind]
  | ok genesis =>
    simp only [after_bind, outcome_lift, after_lift, outcome_writeAccount, after_writeAccount,
      after_bindGenesis, after_modify, ← account_setAccount_eq]
    split <;> rfl

theorem bindings_applyGenesis :
    (after (applyGenesis p event) ledger).stores .controller_bindings =
      match genesisOf p event with
      | .ok genesis => genesisBindings p event genesis (ledger.stores .controller_bindings)
      | .error _ => ledger.stores .controller_bindings := by
  unfold applyGenesis
  cases genesisOf p event with
  | error e => simp [after_bind]
  | ok genesis =>
    simp only [after_bind, outcome_lift, after_lift, outcome_writeAccount, after_writeAccount,
      after_bindGenesis, after_modify]
    split <;> simp

/-- The bindings after a `PASSKEY_ADDED` event. -/
def addedBindings (added : AddedPasskey) (bindings : List Fields) : List Fields :=
  rebound (withoutCredential (some added.credentialId) bindings)
    (controllerBindingId p added.entityAddress added.keyAddress (some added.credentialId)) fun id =>
      passkeyBinding id added.entityAddress added.keyAddress (some added.credentialId)
        added.credentialPublicKey added.rpId "PASSKEY_ADDED" (event.prop "timestamp")

theorem account_addPasskey :
    (after (addPasskey p event) ledger).account a =
      match addedPasskey p ledger event with
      | .ok added => if added.entityAddress = a then some (added.account.set "keys" (.arr added.keys))
          else ledger.account a
      | .error _ => ledger.account a := by
  unfold addPasskey
  cases h : addedPasskey p ledger event with
  | error e => simp [after_bind, h]
  | ok added => simp [after_bind, h, after_rebind, account_setAccount_eq]

theorem bindings_addPasskey :
    (after (addPasskey p event) ledger).stores .controller_bindings =
      match addedPasskey p ledger event with
      | .ok added => addedBindings p event added (ledger.stores .controller_bindings)
      | .error _ => ledger.stores .controller_bindings := by
  unfold addPasskey
  cases h : addedPasskey p ledger event with
  | error e => simp [after_bind, h]
  | ok added => simp [after_bind, h, after_rebind, addedBindings]

/-! ## `NATIVE_CONTROLLER_BOOTSTRAPPED` -/

/-- The bindings `others` of other controllers, and a new one; they stay as they are when they
cannot be told apart. -/
def replaced (bindings : List Fields) (entityAddress keyAddress : String) (id : JsM String)
    (binding : String → Fields) : List Fields :=
  match Js.filter (isOtherController entityAddress keyAddress) bindings with
  | .ok others => rebound others id binding
  | .error _ => bindings

theorem account_bootstrap :
    (after (bootstrapNativeController p event) ledger).account a =
      match nativeController p ledger event with
      | .ok native => if native.entityAddress = a then some native.account else ledger.account a
      | .error _ => ledger.account a := by
  unfold bootstrapNativeController
  cases h : nativeController p ledger event with
  | error e => simp [after_bind, h]
  | ok native =>
    cases h' : Js.filter (isOtherController native.entityAddress native.keyAddress)
        (ledger.stores .controller_bindings) with
    | error e => simp [after_bind, h, h', account_setAccount_eq]
    | ok others => simp [after_bind, h, h', after_rebind, account_setAccount_eq]

theorem bindings_bootstrap :
    (after (bootstrapNativeController p event) ledger).stores .controller_bindings =
      match nativeController p ledger event with
      | .ok native => replaced (ledger.stores .controller_bindings) native.entityAddress
          native.keyAddress (controllerBindingId p native.entityAddress native.keyAddress
            (some (.str "native_macos_p256"))) (nativeBinding event native)
      | .error _ => ledger.stores .controller_bindings := by
  unfold bootstrapNativeController replaced
  cases h : nativeController p ledger event with
  | error e => simp [after_bind, h]
  | ok native =>
    cases h' : Js.filter (isOtherController native.entityAddress native.keyAddress)
        (ledger.stores .controller_bindings) with
    | error e => simp [after_bind, h, h']
    | ok others => simp [after_bind, h, h', after_rebind]

/-! ## `CONTROLLER_BINDING_APPROVED` -/

/-- What the approval of a stored proposal gives. -/
structure Approval where
  proposal : Fields
  entityAddress : String
  keyAddress : String
  account : Fields

/-- The approval of the proposal, when its entity has an account. -/
def approvalOf (proposal : Fields) : JsM (Option Approval) := do
  let entityAddress ← assertEntityAddress p (proposal.get "entity_l1_address")
  let keyAddress ← assertKeyAddress p (proposal.get "proposed_controller_key_l1_address")
  match ledger.account entityAddress with
  | none => return none
  | some account =>
    let account ← approvedAccount event proposal keyAddress account
    return some { proposal, entityAddress, keyAddress, account }

/-- The approval the event makes. -/
def eventApproval : JsM (Option Approval) := do
  match ← approvedProposal event (ledger.stores .controller_binding_proposals) with
  | none => return none
  | some proposal => approvalOf p ledger event proposal

/-- The bindings after an approval. -/
def approvedBindings (approval : Approval) (bindings : List Fields) : List Fields :=
  replaced bindings approval.entityAddress approval.keyAddress
    (controllerBindingId p approval.entityAddress approval.keyAddress
      (or (approval.proposal.get "credential_id") (approval.proposal.get "proposal_id")))
    (approvedBinding event approval.proposal approval.entityAddress approval.keyAddress)

theorem account_bindApproved (proposal : Fields) :
    (after (bindApproved p event proposal) ledger).account a =
      match approvalOf p ledger event proposal with
      | .ok (some approval) =>
        if approval.entityAddress = a then some approval.account else ledger.account a
      | _ => ledger.account a := by
  unfold bindApproved approvalOf
  cases assertEntityAddress p (proposal.get "entity_l1_address") with
  | error e => simp [after_bind]
  | ok entityAddress =>
    cases assertKeyAddress p (proposal.get "proposed_controller_key_l1_address") with
    | error e => simp [after_bind]
    | ok keyAddress =>
      cases haccount : ledger.account entityAddress with
      | none => simp [after_bind, haccount]
      | some account =>
        cases haccount' : approvedAccount event proposal keyAddress account with
        | error e => simp [after_bind, haccount, haccount']
        | ok account' =>
          cases hothers : Js.filter (isOtherController entityAddress keyAddress)
              (ledger.stores .controller_bindings) with
          | error e => simp [after_bind, haccount, haccount', hothers, account_setAccount_eq]
          | ok others =>
            simp [after_bind, haccount, haccount', hothers, after_rebind, account_setAccount_eq]

theorem bindings_bindApproved (proposal : Fields) :
    (after (bindApproved p event proposal) ledger).stores .controller_bindings =
      match approvalOf p ledger event proposal with
      | .ok (some approval) => approvedBindings p event approval (ledger.stores .controller_bindings)
      | _ => ledger.stores .controller_bindings := by
  unfold bindApproved approvalOf
  cases assertEntityAddress p (proposal.get "entity_l1_address") with
  | error e => simp [after_bind]
  | ok entityAddress =>
    cases assertKeyAddress p (proposal.get "proposed_controller_key_l1_address") with
    | error e => simp [after_bind]
    | ok keyAddress =>
      cases haccount : ledger.account entityAddress with
      | none => simp [after_bind, haccount]
      | some account =>
        cases haccount' : approvedAccount event proposal keyAddress account with
        | error e => simp [after_bind, haccount, haccount']
        | ok account' =>
          cases hothers : Js.filter (isOtherController entityAddress keyAddress)
              (ledger.stores .controller_bindings) with
          | error e => simp [after_bind, haccount, haccount', hothers, approvedBindings, replaced]
          | ok others =>
            simp [after_bind, haccount, haccount', hothers, after_rebind, approvedBindings, replaced]

/-- A change of the proposals does not concern the approval of one. -/
theorem approvalOf_setStore (s : Store) (xs : List Fields) (proposal : Fields) :
    approvalOf p (ledger.setStore s xs) event proposal = approvalOf p ledger event proposal := rfl

theorem account_approve :
    (after (approveController p event) ledger).account a =
      match eventApproval p ledger event with
      | .ok (some approval) =>
        if approval.entityAddress = a then some approval.account else ledger.account a
      | _ => ledger.account a := by
  unfold approveController eventApproval approvedProposal
  rw [after_bind, outcome_readStore, after_readStore]
  dsimp only
  cases (ledger.stores .controller_binding_proposals).isEmpty with
  | true => simp
  | false =>
    simp only [Bool.false_eq_true, if_false, after_bind, outcome_lift, after_lift,
      outcome_writeStore, after_writeStore]
    cases payloadOf event with
    | error e => simp
    | ok payload =>
      simp only [ok_bind, pure_eq_ok]
      generalize ((ledger.stores .controller_binding_proposals).filter
        (isProposal payload)).getLast? = last
      cases last with
      | none => simp
      | some proposal => simp [account_bindApproved, approvalOf_setStore]

theorem bindings_approve :
    (after (approveController p event) ledger).stores .controller_bindings =
      match eventApproval p ledger event with
      | .ok (some approval) => approvedBindings p event approval (ledger.stores .controller_bindings)
      | _ => ledger.stores .controller_bindings := by
  have hne : Store.controller_bindings ≠ .controller_binding_proposals := by decide
  unfold approveController eventApproval approvedProposal
  rw [after_bind, outcome_readStore, after_readStore]
  dsimp only
  cases (ledger.stores .controller_binding_proposals).isEmpty with
  | true => simp
  | false =>
    simp only [Bool.false_eq_true, if_false, after_bind, outcome_lift, after_lift,
      outcome_writeStore, after_writeStore]
    cases payloadOf event with
    | error e => simp
    | ok payload =>
      simp only [ok_bind, pure_eq_ok]
      generalize ((ledger.stores .controller_binding_proposals).filter
        (isProposal payload)).getLast? = last
      cases last with
      | none => simp [stores_setStore_of_ne ledger hne]
      | some proposal =>
        simp [bindings_bindApproved, approvalOf_setStore, stores_setStore_of_ne ledger hne]

/-! ## `PASSKEY_REVOKED` and `ACCOUNT_PROVENANCE_ADMISSION` -/

/-- The credential the account of the passkey itself carries. -/
def primaryCredential (passkey : RevokedPasskey) : JsM String :=
  let account := passkey.account.set "keys" (.arr passkey.keys)
  textOfEither (account.get "credentialId") (account.get "credential_id")

theorem account_revokePasskey :
    (after (revokePasskey p event) ledger).account a =
      match revokedPasskey p ledger event with
      | .ok passkey =>
        if passkey.entityAddress = a then
          match primaryCredential passkey with
          | .ok primary => some (revokedAccount passkey primary)
          | .error _ => some (passkey.account.set "keys" (.arr passkey.keys))
        else ledger.account a
      | .error _ => ledger.account a := by
  unfold revokePasskey primaryCredential
  cases h : revokedPasskey p ledger event with
  | error e => simp [after_bind, h]
  | ok passkey =>
    simp only [after_bind, outcome_reading, after_reading, h, outcome_writeAccount,
      after_writeAccount, outcome_lift, after_lift]
    cases hprimary : textOfEither
        ((passkey.account.set "keys" (.arr passkey.keys)).get "credentialId")
        ((passkey.account.set "keys" (.arr passkey.keys)).get "credential_id") with
    | error e => simp [account_setAccount_eq]
    | ok primary =>
      cases hbindings : revokedBindings event passkey.payload passkey.credentialId
          (ledger.stores .controller_bindings) <;>
        by_cases heq : primary = passkey.credentialId <;>
          by_cases ha : passkey.entityAddress = a <;>
            simp [hbindings, heq, ha, revokePrimary, revokedAccount, account_setAccount_eq]

theorem bindings_revokePasskey :
    (after (revokePasskey p event) ledger).stores .controller_bindings =
      match revokedPasskey p ledger event with
      | .ok passkey =>
        match primaryCredential passkey, revokedBindings event passkey.payload passkey.credentialId
            (ledger.stores .controller_bindings) with
        | .ok _, .ok bindings => bindings
        | _, _ => ledger.stores .controller_bindings
      | .error _ => ledger.stores .controller_bindings := by
  unfold revokePasskey primaryCredential
  cases h : revokedPasskey p ledger event with
  | error e => simp [after_bind, h]
  | ok passkey =>
    simp only [after_bind, outcome_reading, after_reading, h, outcome_writeAccount,
      after_writeAccount, outcome_lift, after_lift]
    cases hprimary : textOfEither
        ((passkey.account.set "keys" (.arr passkey.keys)).get "credentialId")
        ((passkey.account.set "keys" (.arr passkey.keys)).get "credential_id") with
    | error e => simp
    | ok primary =>
      cases hbindings : revokedBindings event passkey.payload passkey.credentialId
          (ledger.stores .controller_bindings) <;>
        by_cases heq : primary = passkey.credentialId <;>
          simp [hbindings, heq, revokePrimary]

theorem account_admitAccount :
    (after (admitAccount p event) ledger).account a =
      match admittedAccount p event with
      | .ok (entityAddress, account) =>
        if entityAddress = a then some ((ledger.account a).getD account) else ledger.account a
      | .error _ => ledger.account a := by
  unfold admitAccount
  cases admittedAccount p event with
  | error e => simp [after_bind]
  | ok admitted =>
    obtain ⟨entityAddress, account⟩ := admitted
    cases h : ledger.account entityAddress with
    | none =>
      by_cases ha : entityAddress = a
      · subst ha; simp [after_bind, h]
      · simp [after_bind, h, ha, account_setAccount_eq]
    | some existing =>
      by_cases ha : entityAddress = a
      · subst ha; simp [after_bind, h]
      · simp [after_bind, h, ha]

/-! ## `applyEvent` -/

/-- `applyEvent` does to the carried cells what the handler does, in every mode and role. -/
theorem agree_applyEvent (config : RealmConfig) (replay : Bool) (hlog : logLine event = .ok ()) :
    Agree view carried (after (applyEvent p config event replay) ledger)
      (after (handleEvent p event) ledger) := by
  have hcommit (l : Ledger) : Agree view carried (after (commitEvent p config event) l) l := by
    cases hrole : config.role with
    | primary => exact agree_commit hrole
    | standby =>
      rw [after_of_error (commitEvent_standby p l event hrole)]
      exact agree_refl
  refine Agree.trans ?_ agree_handle_born_carried
  unfold applyEvent
  simp only [after_bind, outcome_lift, after_lift, hlog, outcome_modify, after_modify,
    outcome_handle_born]
  cases verdict p ledger event with
  | error e => exact agree_refl
  | ok _ =>
    cases replay with
    | true => exact agree_refl
    | false => exact hcommit _

theorem account_applyEvent (config : RealmConfig) (replay : Bool) (hlog : logLine event = .ok ()) :
    (after (applyEvent p config event replay) ledger).account a =
      (after (handleEvent p event) ledger).account a :=
  agree_applyEvent p ledger event config replay hlog (.account a) rfl

theorem stores_applyEvent (config : RealmConfig) (replay : Bool) (hlog : logLine event = .ok ())
    (s : Store) :
    (after (applyEvent p config event replay) ledger).stores s =
      (after (handleEvent p event) ledger).stores s :=
  agree_applyEvent p ledger event config replay hlog (.store s) rfl

/-! ## What the key events give -/

variable {p ledger event}

theorem assertEntityAddress_eq_ok {v : Option Json} {a : String} :
    assertEntityAddress p v = .ok a ↔ normalizeEntityAddress p v = some a := by
  unfold assertEntityAddress
  cases normalizeEntityAddress p v <;> simp

theorem assertKeyAddress_eq_ok {v : Option Json} {a : String} :
    assertKeyAddress p v = .ok a ↔ normalizeKeyAddress p v = some a := by
  unfold assertKeyAddress
  cases normalizeKeyAddress p v <;> simp

/-- `account.keys || []`, where it is a list of key records. -/
def keysOf (account : Fields) : List Json :=
  match account.get "keys" with
  | some (.arr keys) => keys
  | _ => []

theorem keysOf_of_arrayOrEmpty {account : Fields} {method : String} {keys : List Json}
    (h : arrayOrEmpty (account.get "keys") method = .ok keys) : keysOf account = keys := by
  unfold keysOf
  generalize account.get "keys" = v at h ⊢
  unfold arrayOrEmpty at h
  cases v with
  | none => cases h; rfl
  | some v =>
    cases v with
    | arr xs => exact Except.ok.inj h
    | _ =>
      dsimp only at h
      split at h
      · cases h
      · cases h
        rfl

@[simp] theorem keysOf_set (account : Fields) (keys : List Json) :
    keysOf (account.set "keys" (.arr keys)) = keys := by
  simp [keysOf, Fields.get_set]

/-- The record of a key: its address and its credential. -/
structure IsRecord (key : Json) (keyAddress : String) (credentialId : Option Json) : Prop where
  address : key.prop "key_l1_address" = some (.str keyAddress)
  credentialId : key.prop "credentialId" = credentialId
  credential_id : key.prop "credential_id" = none
  member : ∀ k, member (some key) k = .ok (key.prop k)

theorem IsRecord.isOtherKey {key : Json} {keyAddress : String} {credentialId : Option Json}
    (h : IsRecord key keyAddress credentialId) (k : String) :
    isOtherKey k key = .ok (decide (keyAddress ≠ k)) := by
  unfold Node.isOtherKey
  rw [h.member, ok_bind, h.address]
  simp

/-- A `GENESIS` gives the initial balances, the nonce 0 and no key but its own. -/
structure GenesisGives (p : Platform) (event : Json) (genesis : Genesis) : Prop where
  entity : normalizeEntityAddress p
    (or (payloadField event "entity_l1_address") (payloadField event "address")) =
      some genesis.entityAddress
  key : (payloadOf event >>= genesisKeyAddress p) = .ok genesis.keyAddress
  credentialId : genesis.credentialId = payloadField event "credentialId"
  balances : genesis.account.get "balances" = some initialBalances
  nonce : genesis.account.get "nonce" = zero
  keys : ∀ key ∈ keysOf genesis.account, ∃ keyAddress, genesis.keyAddress = some keyAddress ∧
    IsRecord key keyAddress genesis.credentialId

theorem genesisOf_gives {genesis : Genesis} (h : genesisOf p event = .ok genesis) :
    GenesisGives p event genesis := by
  unfold genesisOf at h
  obtain ⟨payload, hpayload, h⟩ := bind_eq_ok.mp h
  obtain ⟨counter, _, h⟩ := bind_eq_ok.mp h
  obtain ⟨entityAddress, hentity, h⟩ := bind_eq_ok.mp h
  obtain ⟨keyAddress, hkey, h⟩ := bind_eq_ok.mp h
  cases h
  constructor
  · rw [← payloadOf_prop hpayload, ← payloadOf_prop hpayload]
    exact assertEntityAddress_eq_ok.mp hentity
  · rw [hpayload]
    exact hkey
  · exact payloadOf_prop hpayload _
  · simp only [List.cons_append, List.nil_append, Fields.get_ofOptions_cons,
      Fields.get_ofOptions_nil, String.reduceEq, if_true, if_false, Option.or_none]
  · simp only [List.cons_append, List.nil_append, Fields.get_ofOptions_cons,
      Fields.get_ofOptions_nil, String.reduceEq, if_true, if_false, Option.or_none]
  · simp only [keysOf, List.cons_append, List.nil_append, Fields.get_ofOptions_cons,
      String.reduceEq, if_true, if_false, Option.some_or]
    intro key hkey
    obtain ⟨k, hk, rfl⟩ := List.mem_map.mp hkey
    refine ⟨k, Option.mem_toList.mp hk, ?_, ?_, ?_, fun _ => rfl⟩
    · simp [Json.prop]
    · simp [Json.prop]
    · simp [Json.prop]

/-- A key of the account with another credential. -/
def isOtherCredential (credentialId : Json) (key : Json) : JsM Bool := do
  let theirs ← keyCredential key
  return theirs ≠ (← toStr (some credentialId))

/-- A `PASSKEY_ADDED` puts one record in the place of those of its credential. -/
structure AddedGives (p : Platform) (ledger : Ledger) (event : Json) (added : AddedPasskey) :
    Prop where
  entity : normalizeEntityAddress p (payloadField event "entity_l1_address") =
    some added.entityAddress
  account : ledger.account added.entityAddress = some added.account
  credentialId : added.credentialId =
    orNull (or (payloadField event "credentialId") (payloadField event "credential_id"))
  keys : ∃ others record, Js.filter (isOtherCredential added.credentialId) (keysOf added.account) =
    .ok others ∧ added.keys = others ++ [record] ∧
      IsRecord record added.keyAddress (some added.credentialId)

theorem addedPasskey_gives {added : AddedPasskey} (h : addedPasskey p ledger event = .ok added) :
    AddedGives p ledger event added := by
  have haccount := addedPasskey_account p ledger event h
  unfold addedPasskey at h
  obtain ⟨payload, hpayload, h⟩ := bind_eq_ok.mp h
  obtain ⟨⟨entityAddress, account⟩, hentity, h⟩ := bind_eq_ok.mp h
  obtain ⟨keyAddress, _, h⟩ := bind_eq_ok.mp h
  obtain ⟨counter, _, h⟩ := bind_eq_ok.mp h
  obtain ⟨keys, hkeys, h⟩ := bind_eq_ok.mp h
  obtain ⟨others, hothers, h⟩ := bind_eq_ok.mp h
  cases h
  refine ⟨?_, haccount, ?_, others, _, ?_, rfl, ?_⟩
  · rw [← payloadOf_prop hpayload]
    exact assertEntityAddress_eq_ok.mp (passkeyAccount_eq_ok.mp hentity).1
  · rw [← payloadOf_prop hpayload, ← payloadOf_prop hpayload]
  · rw [keysOf_of_arrayOrEmpty hkeys]
    exact hothers
  · exact ⟨by simp [Json.prop], by simp [Json.prop], by simp [Json.prop], fun _ => rfl⟩

/-- A new native controller puts one record in the place of those of its key, and fills in what the
account does not have. -/
structure NativeGives (p : Platform) (ledger : Ledger) (event : Json) (native : NativeController) :
    Prop where
  entity : normalizeEntityAddress p (payloadField event "entity_l1_address") =
    some native.entityAddress
  key : normalizeKeyAddress p (payloadField event "key_l1_address") = some native.keyAddress
  balances : native.account.get "balances" = some
    (orElse (((ledger.account native.entityAddress).getD []).get "balances") initialBalances)
  nonce : native.account.get "nonce" = some
    (orElse (((ledger.account native.entityAddress).getD []).get "nonce") (.num (.int 0)))
  keys : ∃ others record, Js.filter (isOtherKey native.keyAddress)
      (keysOf ((ledger.account native.entityAddress).getD [])) = .ok others ∧
    native.account.get "keys" = some (.arr (others ++ [record])) ∧
      IsRecord record native.keyAddress none

theorem nativeController_gives {native : NativeController}
    (h : nativeController p ledger event = .ok native) : NativeGives p ledger event native := by
  unfold nativeController at h
  obtain ⟨payload, hpayload, h⟩ := bind_eq_ok.mp h
  obtain ⟨entityAddress, hentity, h⟩ := bind_eq_ok.mp h
  obtain ⟨keyAddress, hkey, h⟩ := bind_eq_ok.mp h
  obtain ⟨publicKey, _, h⟩ := bind_eq_ok.mp h
  obtain ⟨label, _, h⟩ := bind_eq_ok.mp h
  obtain ⟨keys, hkeys, h⟩ := bind_eq_ok.mp h
  obtain ⟨others, hothers, h⟩ := bind_eq_ok.mp h
  cases h
  refine ⟨?_, ?_, ?_, ?_, others, ?record, ?_, ?keys, ?_⟩
  · rw [← payloadOf_prop hpayload]
    exact assertEntityAddress_eq_ok.mp hentity
  · rw [← payloadOf_prop hpayload]
    exact assertKeyAddress_eq_ok.mp hkey
  · simp only [merge, List.foldl_cons, List.foldl_nil, Fields.get_set, String.reduceEq, if_true,
      if_false]
  · simp only [merge, List.foldl_cons, List.foldl_nil, Fields.get_set, String.reduceEq, if_true,
      if_false]
  case keys =>
    simp only [merge, List.foldl_cons, List.foldl_nil, Fields.get_set, String.reduceEq, if_true,
      if_false]
    rfl
  · rw [keysOf_of_arrayOrEmpty hkeys]
    exact hothers
  · exact ⟨by simp [Json.prop], by simp [Json.prop], by simp [Json.prop], fun _ => rfl⟩

/-- An approval puts one record in the place of those of its key. -/
structure ApprovalGives (p : Platform) (ledger : Ledger) (approval : Approval) : Prop where
  entity : normalizeEntityAddress p (approval.proposal.get "entity_l1_address") =
    some approval.entityAddress
  key : normalizeKeyAddress p (approval.proposal.get "proposed_controller_key_l1_address") =
    some approval.keyAddress
  account : ∃ account others record, ledger.account approval.entityAddress = some account ∧
    Js.filter (isOtherKey approval.keyAddress) (keysOf account) = .ok others ∧
    approval.account = account.set "keys" (.arr (others ++ [record])) ∧
    IsRecord record approval.keyAddress (some (orNull (approval.proposal.get "credential_id")))

theorem approvalOf_gives {proposal : Fields} {approval : Approval}
    (h : approvalOf p ledger event proposal = .ok (some approval)) :
    approval.proposal = proposal ∧ ApprovalGives p ledger approval := by
  unfold approvalOf at h
  obtain ⟨entityAddress, hentity, h⟩ := bind_eq_ok.mp h
  obtain ⟨keyAddress, hkey, h⟩ := bind_eq_ok.mp h
  cases haccount : ledger.account entityAddress with
  | none => rw [haccount] at h; cases h
  | some account =>
    rw [haccount] at h
    obtain ⟨account', happroved, h⟩ := bind_eq_ok.mp h
    cases h
    unfold approvedAccount at happroved
    obtain ⟨counter, _, happroved⟩ := bind_eq_ok.mp happroved
    obtain ⟨keys, hkeys, happroved⟩ := bind_eq_ok.mp happroved
    obtain ⟨others, hothers, happroved⟩ := bind_eq_ok.mp happroved
    cases happroved
    refine ⟨rfl, assertEntityAddress_eq_ok.mp hentity, assertKeyAddress_eq_ok.mp hkey,
      account, others, _, haccount, ?_, rfl, ?_⟩
    · rw [keysOf_of_arrayOrEmpty hkeys]
      exact hothers
    · exact ⟨by simp [Json.prop], by simp [Json.prop], by simp [Json.prop], fun _ => rfl⟩

theorem eventApproval_gives {approval : Approval}
    (h : eventApproval p ledger event = .ok (some approval)) :
    approvedProposal event (ledger.stores .controller_binding_proposals) =
        .ok (some approval.proposal) ∧ ApprovalGives p ledger approval := by
  unfold eventApproval at h
  obtain ⟨proposal, hproposal, h⟩ := bind_eq_ok.mp h
  cases proposal with
  | none => cases h
  | some proposal =>
    obtain ⟨rfl, hgives⟩ := approvalOf_gives h
    exact ⟨hproposal, hgives⟩

/-- A revocation marks the records of its credential. -/
structure RevokedGives (p : Platform) (ledger : Ledger) (event : Json) (passkey : RevokedPasskey) :
    Prop where
  payload : payloadOf event = .ok passkey.payload
  entity : normalizeEntityAddress p (payloadField event "entity_l1_address") =
    some passkey.entityAddress
  account : ledger.account passkey.entityAddress = some passkey.account
  credentialId : textOfEither (payloadField event "credential_id")
    (payloadField event "credentialId") = .ok passkey.credentialId
  keys : revokedKeys event passkey.payload passkey.credentialId (keysOf passkey.account) =
    .ok passkey.keys

theorem revokedPasskey_gives {passkey : RevokedPasskey}
    (h : revokedPasskey p ledger event = .ok passkey) : RevokedGives p ledger event passkey := by
  have haccount := revokedPasskey_account p ledger event h
  unfold revokedPasskey at h
  obtain ⟨payload, hpayload, h⟩ := bind_eq_ok.mp h
  obtain ⟨⟨entityAddress, account⟩, hentity, h⟩ := bind_eq_ok.mp h
  obtain ⟨credentialId, hcredential, h⟩ := bind_eq_ok.mp h
  obtain ⟨keys, hkeys, h⟩ := bind_eq_ok.mp h
  obtain ⟨revoked, hrevoked, h⟩ := bind_eq_ok.mp h
  cases h
  refine ⟨hpayload, ?_, haccount, ?_, ?_⟩
  · rw [← payloadOf_prop hpayload]
    exact assertEntityAddress_eq_ok.mp (passkeyAccount_eq_ok.mp hentity).1
  · rw [← payloadOf_prop hpayload, ← payloadOf_prop hpayload]
    exact hcredential
  · rw [keysOf_of_arrayOrEmpty hkeys]
    exact hrevoked

end

end SimpleL1.Node
