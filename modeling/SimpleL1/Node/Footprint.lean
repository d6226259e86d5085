import SimpleL1.Node.ApplyEvent

/-!
# What an event touches

The cells of a ledger are its accounts, its stores, the authority projection and
the records around them. `footprint` lists, for every event type, the cells the
handler may look at or write; `local_applyTyped` says that it keeps to them, so
handlers with disjoint footprints can be exchanged.
-/

namespace SimpleL1.Node

open SimpleL1.Js SimpleL1.Lib SimpleL1.Lib.Effect

inductive Cell where
  | account (address : String)
  | store (s : Store)
  | keys (k : KeyStore)
  | projection
  | log
  | governance
  | root
  | birthday
  | deposits
  | disk

def Cell.Value : Cell → Type
  | account _ => Option Fields
  | store _ => List Fields
  | keys _ => List Json
  | projection => Realm.AuthorityState × Number
  | log => List Json
  | governance => Option Governance
  | root => Option String
  | birthday => Option Json
  | deposits => Fields
  | disk => Disk

def view : (c : Cell) → Ledger → c.Value
  | .account a, ledger => ledger.account a
  | .store s, ledger => ledger.stores s
  | .keys k, ledger => ledger.keyStores k
  | .projection, ledger => (ledger.current_authority_state, ledger.realm_canonical_sequence)
  | .log, ledger => ledger.event_log
  | .governance, ledger => ledger.governance
  | .root, ledger => ledger.state_root
  | .birthday, ledger => ledger.cluster_genesis
  | .deposits, ledger => ledger.btc_deposits
  | .disk, ledger => ledger.disk

abbrev LocalTo (C : Set Cell) {α : Type} (m : LedgerM α) : Prop := Local view C m

abbrev Sees (C : Set Cell) {α : Type} (f : Ledger → α) : Prop := DependsOn view C f

/-! ## One read or write -/

section
variable {C : Set Cell}

theorem local_readStore {s : Store} (h : .store s ∈ C) : LocalTo C (readStore s) where
  frame _ _ _ := rfl
  outcome_eq _ _ hst := congrArg Except.ok (hst _ h)
  agree _ _ hst := hst

theorem local_readAccount {a : String} (h : .account a ∈ C) : LocalTo C (readAccount a) where
  frame _ _ _ := rfl
  outcome_eq _ _ hst := congrArg Except.ok (hst _ h)
  agree _ _ hst := hst

theorem view_setStore (ledger : Ledger) (s : Store) (xs : List Fields) (c : Cell)
    (h : c ≠ .store s) : view c (ledger.setStore s xs) = view c ledger := by
  cases c with
  | store s' => exact Function.update_of_ne (fun heq => h (by rw [heq])) _ _
  | _ => rfl

@[simp] theorem stores_setStore (ledger : Ledger) (s : Store) (xs : List Fields) :
    (ledger.setStore s xs).stores s = xs := Function.update_self _ _ _

/-- A store is rewritten from what it held. -/
theorem local_modifyStore {s : Store} (h : .store s ∈ C) (f : List Fields → List Fields) :
    LocalTo C (modify fun ledger => ledger.setStore s (f (ledger.stores s))) := by
  refine Local.of_modify (fun ledger c hc => view_setStore ledger s _ c fun heq => hc (heq ▸ h)) ?_
  intro l l' hag c hc
  by_cases heq : c = .store s
  · subst heq
    show (l.setStore s _).stores s = (l'.setStore s _).stores s
    rw [stores_setStore, stores_setStore, show l.stores s = l'.stores s from hag _ h]
  · rw [view_setStore _ _ _ _ heq, view_setStore _ _ _ _ heq]
    exact hag c hc

theorem local_writeStore {s : Store} (h : .store s ∈ C) (xs : List Fields) :
    LocalTo C (writeStore s xs) :=
  local_modifyStore h fun _ => xs

theorem local_push {s : Store} (h : .store s ∈ C) (x : Fields) : LocalTo C (push s x) :=
  local_modifyStore h (· ++ [x])

theorem local_upsertById {s : Store} (h : .store s ∈ C) (x : Fields) : LocalTo C (upsertById s x) :=
  local_modifyStore h _

theorem local_upsertByKey {s : Store} (h : .store s ∈ C) (k : String) (x : Fields) :
    LocalTo C (upsertByKey s k x) :=
  local_modifyStore h _

theorem view_setKeys (ledger : Ledger) (k : KeyStore) (xs : List Json) (c : Cell) (h : c ≠ .keys k) :
    view c (ledger.setKeys k xs) = view c ledger := by
  cases c with
  | keys k' => exact Function.update_of_ne (fun heq => h (by rw [heq])) _ _
  | _ => rfl

@[simp] theorem keyStores_setKeys (ledger : Ledger) (k : KeyStore) (xs : List Json) :
    (ledger.setKeys k xs).keyStores k = xs := Function.update_self _ _ _

theorem local_pushKey {k : KeyStore} (h : .keys k ∈ C) (key : Json) : LocalTo C (pushKey k key) := by
  refine Local.of_modify (fun ledger c hc => view_setKeys ledger k _ c fun heq => hc (heq ▸ h)) ?_
  intro l l' hag c hc
  by_cases heq : c = .keys k
  · subst heq
    show (l.setKeys k _).keyStores k = (l'.setKeys k _).keyStores k
    rw [keyStores_setKeys, keyStores_setKeys, show l.keyStores k = l'.keyStores k from hag _ h]
  · rw [view_setKeys _ _ _ _ heq, view_setKeys _ _ _ _ heq]
    exact hag c hc

theorem view_setAccount (ledger : Ledger) (a : String) (account : Fields) (c : Cell)
    (h : c ≠ .account a) : view c (ledger.setAccount a account) = view c ledger := by
  cases c with
  | account a' => exact OrderedMap.find_insert_of_ne _ (fun heq => h (by rw [heq])) _
  | _ => rfl

@[simp] theorem account_setAccount (ledger : Ledger) (a : String) (account : Fields) :
    (ledger.setAccount a account).account a = some account := OrderedMap.find_insert_self _ _ _

theorem local_writeAccount {a : String} (h : .account a ∈ C) (account : Fields) :
    LocalTo C (writeAccount a account) := by
  refine Local.of_modify (fun ledger c hc => view_setAccount ledger a _ c fun heq => hc (heq ▸ h)) ?_
  intro l l' hag c hc
  by_cases heq : c = .account a
  · subst heq
    show (l.setAccount a _).account a = (l'.setAccount a _).account a
    rw [account_setAccount, account_setAccount]
  · rw [view_setAccount _ _ _ _ heq, view_setAccount _ _ _ _ heq]
    exact hag c hc

end

/-! ## The entity of an event -/

/-- The account the address `v` names. -/
def entityCells (p : Platform) (v : Option Json) : Set Cell :=
  { c | ∃ a, normalizeEntityAddress p v = some a ∧ c = .account a }

theorem mem_entityCells {p : Platform} {v : Option Json} {a : String}
    (h : assertEntityAddress p v = .ok a) : .account a ∈ entityCells p v := by
  unfold assertEntityAddress at h
  split at h
  · next normalized hn => cases h; exact ⟨_, hn, rfl⟩
  · cases h

/-- `event.payload?.k`. -/
def payloadField (event : Json) (k : String) : Option Json := optional (event.prop "payload") k

theorem payloadOf_prop {event payload : Json} (h : payloadOf event = .ok payload) (k : String) :
    payload.prop k = payloadField event k := by
  unfold payloadOf at h
  unfold payloadField optional
  split at h
  · cases h
  · cases h
  · next v hv => cases h; rw [hv]; rfl

section
variable {p : Platform} {C : Set Cell} {event : Json}

theorem sees_account {v : Option Json} (hC : entityCells p v ⊆ C) {l l' : Ledger}
    (h : Agree view C l l') {a : String} (ha : assertEntityAddress p v = .ok a) :
    l.account a = l'.account a :=
  h _ (hC (mem_entityCells ha))

/-- A passkey event sees the account of its entity. -/
theorem passkeyAccount_congr {payload : Json} {l l' : Ledger}
    (hC : entityCells p (payload.prop "entity_l1_address") ⊆ C) (h : Agree view C l l') :
    passkeyAccount p l payload = passkeyAccount p l' payload := by
  unfold passkeyAccount
  cases ha : assertEntityAddress p (payload.prop "entity_l1_address") with
  | error e => rfl
  | ok a => simp only [ok_bind, sees_account hC h ha]

/-! ## Accounts -/

theorem local_rebind (hb : .store .controller_bindings ∈ C) {others : List Fields}
    {id : JsM String} {binding : String → Fields} : LocalTo C (rebind others id binding) := by
  refine (local_writeStore hb _).bind fun _ _ => ?_
  exact Local.lift_bind fun id _ => local_push hb _

theorem local_applyGenesis
    (hC : entityCells p (or (payloadField event "entity_l1_address") (payloadField event "address"))
      ⊆ C)
    (hb : .store .controller_bindings ∈ C) (hd : .deposits ∈ C) :
    LocalTo C (applyGenesis p event) := by
  refine Local.lift_bind fun genesis hgenesis => ?_
  have haccount : .account genesis.entityAddress ∈ C := by
    unfold genesisOf at hgenesis
    obtain ⟨payload, hpayload, hgenesis⟩ := bind_eq_ok.mp hgenesis
    obtain ⟨counter, _, hgenesis⟩ := bind_eq_ok.mp hgenesis
    obtain ⟨a, ha, hgenesis⟩ := bind_eq_ok.mp hgenesis
    obtain ⟨key, _, hgenesis⟩ := bind_eq_ok.mp hgenesis
    cases hgenesis
    rw [payloadOf_prop hpayload, payloadOf_prop hpayload] at ha
    exact hC (mem_entityCells ha)
  refine (local_writeAccount haccount _).bind fun _ _ => ?_
  refine Local.bind ?_ fun _ _ => ?_
  · unfold bindGenesis
    cases genesis.keyAddress with
    | none => exact .of_pure _
    | some keyAddress =>
      dsimp only
      split
      · refine (local_readStore hb).bind fun bindings _ => ?_
        exact local_rebind hb
      · exact .of_pure _
  · refine Local.of_modify (fun ledger c hc => ?_) fun l l' hag c hc => ?_
    · cases c with
      | deposits => exact absurd hd hc
      | _ => rfl
    · cases c with
      | deposits =>
        show (l.deposit _ _).btc_deposits = (l'.deposit _ _).btc_deposits
        rw [Ledger.deposit, Ledger.deposit, show l.btc_deposits = l'.btc_deposits from hag _ hd]
      | _ => exact hag _ hc

theorem local_addPasskey (hC : entityCells p (payloadField event "entity_l1_address") ⊆ C)
    (hb : .store .controller_bindings ∈ C) : LocalTo C (addPasskey p event) := by
  refine Local.reading_bind ?_ fun ledger added hadded => ?_
  · intro l l' hag
    unfold addedPasskey
    cases hpayload : payloadOf event with
    | error e => rfl
    | ok payload =>
      have hsame : passkeyAccount p l payload = passkeyAccount p l' payload :=
        passkeyAccount_congr (by rwa [payloadOf_prop hpayload]) hag
      simp only [ok_bind, hsame]
  · have haccount : .account added.entityAddress ∈ C := by
      unfold addedPasskey at hadded
      obtain ⟨payload, hpayload, hadded⟩ := bind_eq_ok.mp hadded
      obtain ⟨⟨a, account⟩, ha, hadded⟩ := bind_eq_ok.mp hadded
      obtain ⟨key, _, hadded⟩ := bind_eq_ok.mp hadded
      obtain ⟨counter, _, hadded⟩ := bind_eq_ok.mp hadded
      obtain ⟨keys, _, hadded⟩ := bind_eq_ok.mp hadded
      obtain ⟨others, _, hadded⟩ := bind_eq_ok.mp hadded
      cases hadded
      have ha := (passkeyAccount_eq_ok.mp ha).1
      rw [payloadOf_prop hpayload] at ha
      exact hC (mem_entityCells ha)
    refine (local_writeAccount haccount _).bind fun _ _ => ?_
    exact (local_readStore hb).bind fun bindings _ => local_rebind hb

theorem local_bootstrap (hC : entityCells p (payloadField event "entity_l1_address") ⊆ C)
    (hb : .store .controller_bindings ∈ C) : LocalTo C (bootstrapNativeController p event) := by
  refine Local.reading_bind ?_ fun ledger native hnative => ?_
  · intro l l' hag
    unfold nativeController
    cases hpayload : payloadOf event with
    | error e => rfl
    | ok payload =>
      simp only [ok_bind]
      cases ha : assertEntityAddress p (payload.prop "entity_l1_address") with
      | error e => rfl
      | ok a =>
        have hsame := sees_account (by rwa [payloadOf_prop hpayload]) hag ha
        simp only [ok_bind, hsame]
  · have haccount : .account native.entityAddress ∈ C := by
      unfold nativeController at hnative
      obtain ⟨payload, hpayload, hnative⟩ := bind_eq_ok.mp hnative
      obtain ⟨a, ha, hnative⟩ := bind_eq_ok.mp hnative
      obtain ⟨key, _, hnative⟩ := bind_eq_ok.mp hnative
      obtain ⟨publicKey, _, hnative⟩ := bind_eq_ok.mp hnative
      obtain ⟨label, _, hnative⟩ := bind_eq_ok.mp hnative
      obtain ⟨keys, _, hnative⟩ := bind_eq_ok.mp hnative
      obtain ⟨others, _, hnative⟩ := bind_eq_ok.mp hnative
      cases hnative
      rw [payloadOf_prop hpayload] at ha
      exact hC (mem_entityCells ha)
    refine (local_writeAccount haccount _).bind fun _ _ => ?_
    refine (local_readStore hb).bind fun bindings _ => ?_
    exact Local.lift_bind fun others _ => local_rebind hb

theorem local_propose (hp : .store .controller_binding_proposals ∈ C) :
    LocalTo C (proposeController event) := by
  refine (local_readStore hp).bind fun proposals _ => ?_
  exact Local.lift_bind fun others _ => local_writeStore hp _

/-- An approval may bind a key to any account: the entity comes from the stored proposal. -/
theorem local_approve (hC : ∀ a, .account a ∈ C) (hb : .store .controller_bindings ∈ C)
    (hp : .store .controller_binding_proposals ∈ C) : LocalTo C (approveController p event) := by
  refine (local_readStore hp).bind fun proposals _ => ?_
  split
  · exact .of_pure _
  refine Local.lift_bind fun payload _ => ?_
  refine (local_writeStore hp _).bind fun _ _ => ?_
  cases (proposals.filter (isProposal payload)).getLast? with
  | none => exact .of_pure _
  | some proposal =>
    refine Local.lift_bind fun entityAddress _ => ?_
    refine Local.lift_bind fun keyAddress _ => ?_
    refine (local_readAccount (hC _)).bind fun account _ => ?_
    cases account with
    | none => exact .of_pure _
    | some account =>
      refine Local.lift_bind fun account' _ => ?_
      refine (local_writeAccount (hC _) _).bind fun _ _ => ?_
      refine (local_readStore hb).bind fun bindings _ => ?_
      exact Local.lift_bind fun others _ => local_rebind hb

theorem local_revokePasskey (hC : entityCells p (payloadField event "entity_l1_address") ⊆ C)
    (hb : .store .controller_bindings ∈ C) : LocalTo C (revokePasskey p event) := by
  refine Local.reading_bind ?_ fun ledger passkey hpasskey => ?_
  · intro l l' hag
    unfold revokedPasskey
    cases hpayload : payloadOf event with
    | error e => rfl
    | ok payload =>
      have hsame : passkeyAccount p l payload = passkeyAccount p l' payload :=
        passkeyAccount_congr (by rwa [payloadOf_prop hpayload]) hag
      simp only [ok_bind, hsame]
  · have haccount : .account passkey.entityAddress ∈ C := by
      unfold revokedPasskey at hpasskey
      obtain ⟨payload, hpayload, hpasskey⟩ := bind_eq_ok.mp hpasskey
      obtain ⟨⟨a, account⟩, ha, hpasskey⟩ := bind_eq_ok.mp hpasskey
      obtain ⟨credentialId, _, hpasskey⟩ := bind_eq_ok.mp hpasskey
      obtain ⟨keys, _, hpasskey⟩ := bind_eq_ok.mp hpasskey
      obtain ⟨keys', _, hpasskey⟩ := bind_eq_ok.mp hpasskey
      cases hpasskey
      have ha := (passkeyAccount_eq_ok.mp ha).1
      rw [payloadOf_prop hpayload] at ha
      exact hC (mem_entityCells ha)
    refine (local_writeAccount haccount _).bind fun _ _ => ?_
    refine Local.lift_bind fun primary _ => ?_
    refine Local.bind ?_ fun _ _ => ?_
    · unfold revokePrimary
      split
      · exact local_writeAccount haccount _
      · exact .of_pure _
    · refine (local_readStore hb).bind fun bindings _ => ?_
      exact Local.lift_bind fun bindings' _ => local_writeStore hb _

theorem local_admit
    (hC : entityCells p (or (payloadField event "account") (payloadField event "entity_l1_address"))
      ⊆ C) :
    LocalTo C (admitAccount p event) := by
  refine Local.lift_bind fun ⟨entityAddress, account⟩ hadmitted => ?_
  have haccount : .account entityAddress ∈ C := by
    unfold admittedAccount at hadmitted
    obtain ⟨payload, hpayload, hadmitted⟩ := bind_eq_ok.mp hadmitted
    obtain ⟨a, ha, hadmitted⟩ := bind_eq_ok.mp hadmitted
    obtain ⟨_, _, hadmitted⟩ := bind_eq_ok.mp hadmitted
    cases hadmitted
    rw [payloadOf_prop hpayload, payloadOf_prop hpayload] at ha
    exact hC (mem_entityCells ha)
  refine (local_readAccount haccount).bind fun existing _ => ?_
  cases existing with
  | none => exact local_writeAccount haccount _
  | some _ => exact .of_pure _

/-! ## Grants and authorizations -/

/-- The same store on both sides. -/
theorem Agree.stores {l l' : Ledger} (h : Agree view C l l') {s : Store} (hs : .store s ∈ C) :
    l.stores s = l'.stores s := h _ hs

theorem Agree.keyStores {l l' : Ledger} (h : Agree view C l l') {k : KeyStore} (hk : .keys k ∈ C) :
    l.keyStores k = l'.keyStores k := h _ hk

theorem local_createControlGrant {input : Fields} {now : Number} (hcap : .store .capabilities ∈ C)
    (hgrant : .store .control_grants ∈ C) (hcre : .store .capability_grants ∈ C) :
    LocalTo C (createControlGrant p input now) := by
  refine Local.lift_bind fun grant _ => ?_
  refine Local.bind ?_ fun _ _ => ?_
  · refine Local.lift_bind fun capability _ => ?_
    exact (local_upsertById hcap _).bind fun _ _ => .of_pure _
  · refine (local_upsertById hgrant _).bind fun _ _ => ?_
    exact (local_upsertById hcre _).bind fun _ _ => .of_pure _

theorem local_revokeControlGrant {input : Fields} {now : Number}
    (hgrant : .store .control_grants ∈ C) (hcre : .store .capability_grants ∈ C)
    (hrev : .store .revocations ∈ C) : LocalTo C (revokeControlGrant p input now) := by
  refine Local.reading_bind ?_ fun ledger ⟨grantId, revocation⟩ _ => ?_
  · intro l l' hag
    simp only [revocationOf, Agree.stores hag hgrant, Agree.stores hag hcre]
  · refine (local_readStore hgrant).bind fun grants _ => ?_
    refine (local_writeStore hgrant _).bind fun _ _ => ?_
    refine (local_readStore hcre).bind fun creGrants _ => ?_
    refine (local_writeStore hcre _).bind fun _ _ => ?_
    exact (local_upsertById hrev _).bind fun _ _ => .of_pure _

theorem verifyIntentApprovalBinding_congr {l l' : Ledger} (hag : Agree view C l l')
    (happ : .store .intent_approvals ∈ C) (input : Fields) (entityAddress : String)
    (proofKeyAddress : Json) (now : Number) :
    verifyIntentApprovalBinding p l input entityAddress proofKeyAddress now =
      verifyIntentApprovalBinding p l' input entityAddress proofKeyAddress now := by
  unfold verifyIntentApprovalBinding resolveIntentApproval
  rw [Agree.stores hag happ]

theorem local_buildAuthorization {input : Fields} {now : Number}
    (hgrant : .store .control_grants ∈ C) (hcre : .store .capability_grants ∈ C)
    (hpol : .store .policy_decisions ∈ C) (happ : .store .intent_approvals ∈ C)
    (hauth : .store .authorizations ∈ C) : LocalTo C (buildAuthorization p input now) := by
  refine Local.reading_bind ?_ fun ledger authorization _ => ?_
  · intro l l' hag
    have hgrants : activeControlGrants l = activeControlGrants l' := by
      simp only [activeControlGrants, Agree.stores hag hgrant, Agree.stores hag hcre]
    have hpolicy (id : Option Json) : policyDecisionAllows l id = policyDecisionAllows l' id := by
      simp only [policyDecisionAllows, Agree.stores hag hpol]
    simp only [authorizationOf, hgrants, hpolicy, verifyIntentApprovalBinding_congr hag happ]
  · exact (local_upsertById hauth _).bind fun _ _ => .of_pure _

/-! ## Policies, proofs and settlements -/

theorem local_recordPolicyArtifacts {input result : Option Json} {now : Number}
    (heval : .store .policy_evaluations ∈ C) (hpol : .store .policy_decisions ∈ C) :
    LocalTo C (recordPolicyArtifacts p input result now) := by
  refine Local.lift_bind fun ⟨evaluation, decision⟩ _ => ?_
  exact (local_upsertById heval _).bind fun _ _ => local_upsertById hpol _

theorem local_createExternalProof {input : Fields} {now : Number}
    (hkeys : .keys .external_proof_replay_keys ∈ C) (hpath : .store .verification_paths ∈ C)
    (hfin : .store .finality_claims ∈ C) (hfact : .store .normalized_facts ∈ C)
    (hproof : .store .external_proofs ∈ C) : LocalTo C (createExternalProof p input now) := by
  refine Local.reading_bind ?_ fun ledger proof _ => ?_
  · intro l l' hag
    simp only [externalProofOf, Agree.keyStores hag hkeys]
  · refine (local_upsertById hpath _).bind fun _ _ => ?_
    refine (local_upsertById hfin _).bind fun _ _ => ?_
    refine (local_upsertById hfact _).bind fun _ _ => ?_
    refine (local_upsertById hproof _).bind fun _ _ => ?_
    exact (local_pushKey hkeys _).bind fun _ _ => .of_pure _

theorem verifyAuthorization_congr {l l' : Ledger} (hag : Agree view C l l')
    (hgrant : .store .control_grants ∈ C) (hcre : .store .capability_grants ∈ C)
    (hauth : .store .authorizations ∈ C) (authorizationOrId : Option Json) (now : Number) :
    verifyAuthorization p l authorizationOrId now = verifyAuthorization p l' authorizationOrId now := by
  simp only [verifyAuthorization, Agree.stores hag hgrant, Agree.stores hag hcre,
    Agree.stores hag hauth]

theorem verifyExternalProof_congr {l l' : Ledger} (hag : Agree view C l l')
    (hpath : .store .verification_paths ∈ C) (hfin : .store .finality_claims ∈ C)
    (hfact : .store .normalized_facts ∈ C) (hproof : .store .external_proofs ∈ C)
    (proofOrId : Option Json) : verifyExternalProof l proofOrId = verifyExternalProof l' proofOrId := by
  simp only [verifyExternalProof, Agree.stores hag hpath, Agree.stores hag hfin,
    Agree.stores hag hfact, Agree.stores hag hproof]

theorem local_executeMarketplaceSettlement {input : Fields} {now : Number}
    (hgrant : .store .control_grants ∈ C) (hcre : .store .capability_grants ∈ C)
    (hauth : .store .authorizations ∈ C) (hpath : .store .verification_paths ∈ C)
    (hfin : .store .finality_claims ∈ C) (hfact : .store .normalized_facts ∈ C)
    (hproof : .store .external_proofs ∈ C) (hpol : .store .policy_decisions ∈ C)
    (hkeys : .keys .settlement_idempotency_keys ∈ C) (htx : .store .transactions ∈ C)
    (hop : .store .settlement_operations ∈ C) (hsp : .store .settlement_proofs ∈ C) :
    LocalTo C (executeMarketplaceSettlement p input now) := by
  refine Local.reading_bind ?_ fun ledger settlement _ => ?_
  · intro l l' hag
    simp only [settlementOf, verifyAuthorization_congr hag hgrant hcre hauth,
      verifyExternalProof_congr hag hpath hfin hfact hproof, Agree.stores hag hpol,
      Agree.keyStores hag hkeys]
  · cases settlement with
    | error reason => exact .of_pure _
    | ok settlement =>
      refine (local_upsertById htx _).bind fun _ _ => ?_
      refine (local_upsertById hop _).bind fun _ _ => ?_
      refine (local_upsertById hsp _).bind fun _ _ => ?_
      exact (local_pushKey hkeys _).bind fun _ _ => .of_pure _

/-! ## Sellers -/

theorem local_refresh {sellerId : Option Json} {now : Number}
    (hsell : .store .marketplace_sellers ∈ C) (hlist : .store .marketplace_listings ∈ C) :
    LocalTo C (refreshSellerActivation p sellerId now) := by
  refine Local.reading_bind ?_ fun ledger seller _ => ?_
  · intro l l' hag
    simp only [refreshOf, listingsOf, Agree.stores hag hsell, Agree.stores hag hlist]
  · cases seller with
    | none => exact .of_pure _
    | some seller =>
      refine Local.bind ?_ fun _ _ => .of_pure _
      exact (local_readStore hsell).bind fun sellers _ => local_writeStore hsell _

theorem local_activateSeller {sellerId : Option Json} {now : Number}
    (hsell : .store .marketplace_sellers ∈ C) (hlist : .store .marketplace_listings ∈ C) :
    LocalTo C (activateSeller p sellerId now) := by
  refine (local_refresh hsell hlist).bind fun seller _ => ?_
  cases seller with
  | none => exact .of_throw _
  | some seller =>
    dsimp only
    split
    · exact .of_throw _
    · refine Local.lift_bind fun activated_at _ => ?_
      exact (local_readStore hsell).bind fun sellers _ => local_writeStore hsell _

theorem local_upsertSeller {input : Fields} {now : Number}
    (hsell : .store .marketplace_sellers ∈ C) (hlist : .store .marketplace_listings ∈ C) :
    LocalTo C (upsertSeller p input now) := by
  refine Local.lift_bind fun seller _ => ?_
  refine (local_upsertByKey hsell _ _).bind fun _ _ => ?_
  exact (local_refresh hsell hlist).bind fun _ _ => .of_pure _

theorem local_upsertListing {input : Fields} {now : Number}
    (hsell : .store .marketplace_sellers ∈ C) (hlist : .store .marketplace_listings ∈ C) :
    LocalTo C (upsertListing p input now) := by
  refine Local.lift_bind fun listing _ => ?_
  refine (local_readStore hsell).bind fun sellers _ => ?_
  split
  · refine (local_upsertByKey hlist _ _).bind fun _ _ => ?_
    exact (local_refresh hsell hlist).bind fun _ _ => .of_pure _
  · exact .of_throw _

/-! ## Realm events -/

theorem local_projectRealmEvent (h : .projection ∈ C) : LocalTo C (projectRealmEvent event) := by
  have hview (ledger : Ledger) (state : Realm.AuthorityState) (sequence : Number) (c : Cell)
      (hc : c ≠ .projection) : view c (ledger.withState state sequence) = view c ledger := by
    cases c with
    | projection => exact absurd rfl hc
    | _ => rfl
  have hsees {l l' : Ledger} (hag : Agree view C l l') :
      projectionOf l.current_authority_state l.realm_canonical_sequence event =
        projectionOf l'.current_authority_state l'.realm_canonical_sequence event := by
    have hp : (l.current_authority_state, l.realm_canonical_sequence) =
      (l'.current_authority_state, l'.realm_canonical_sequence) := hag _ h
    rw [(Prod.mk.inj hp).1, (Prod.mk.inj hp).2]
  refine ⟨fun l c hc => ?_, fun l l' hag => ?_, fun l l' hag c hc => ?_⟩
  · unfold after
    rw [projectRealmEvent_apply]
    cases projectionOf l.current_authority_state l.realm_canonical_sequence event with
    | error e => rfl
    | ok next => exact hview l _ _ c fun heq => hc (heq ▸ h)
  · unfold outcome
    rw [projectRealmEvent_apply, projectRealmEvent_apply, hsees hag]
    cases projectionOf l'.current_authority_state l'.realm_canonical_sequence event <;> rfl
  · unfold after
    rw [projectRealmEvent_apply, projectRealmEvent_apply, hsees hag]
    cases projectionOf l'.current_authority_state l'.realm_canonical_sequence event with
    | error e => exact hag c hc
    | ok next =>
      by_cases heq : c = .projection
      · subst heq; rfl
      · exact (hview l _ _ c heq).trans ((hag c hc).trans (hview l' _ _ c heq).symm)

end

/-! ## All handlers -/

/-- The cells the handler of a type looks at or writes. -/
def footprint (p : Platform) (event : Json) : LedgerEventType → Set Cell
  | .genesis => entityCells p (or (payloadField event "entity_l1_address")
      (payloadField event "address")) ∪ {.store .controller_bindings, .deposits}
  | .passkeyAdded | .nativeControllerBootstrapped | .passkeyRevoked =>
    entityCells p (payloadField event "entity_l1_address") ∪ {.store .controller_bindings}
  | .controllerBindingProposed => {.store .controller_binding_proposals}
  | .controllerBindingApproved => { c | ∃ a, c = .account a } ∪
      {.store .controller_bindings, .store .controller_binding_proposals}
  | .transfer => ∅
  | .capabilityGrantCreated | .controlGrantCreated =>
    {.store .capabilities, .store .control_grants, .store .capability_grants}
  | .controlGrantRevoked =>
    {.store .control_grants, .store .capability_grants, .store .revocations}
  | .policyArtifactRecorded => {.store .policy_evaluations, .store .policy_decisions}
  | .authorizationCreated => {.store .control_grants, .store .capability_grants,
      .store .policy_decisions, .store .intent_approvals, .store .authorizations}
  | .externalProofRecorded => {.keys .external_proof_replay_keys, .store .verification_paths,
      .store .finality_claims, .store .normalized_facts, .store .external_proofs}
  | .marketplaceSettlementRecorded => {.store .control_grants, .store .capability_grants,
      .store .authorizations, .store .verification_paths, .store .finality_claims,
      .store .normalized_facts, .store .external_proofs, .store .policy_decisions,
      .keys .settlement_idempotency_keys, .store .transactions, .store .settlement_operations,
      .store .settlement_proofs}
  | .marketplaceSellerUpserted | .marketplaceListingUpserted | .marketplaceSellerActivated =>
    {.store .marketplace_sellers, .store .marketplace_listings}
  | .accountProvenanceAdmission => entityCells p (or (payloadField event "account")
      (payloadField event "entity_l1_address"))

theorem local_applyTyped (p : Platform) (event : Json) (t : LedgerEventType) :
    LocalTo (footprint p event t) (applyTyped p event t) := by
  cases t with
  | genesis =>
    exact local_applyGenesis Set.subset_union_left (by simp [footprint]) (by simp [footprint])
  | passkeyAdded => exact local_addPasskey Set.subset_union_left (by simp [footprint])
  | nativeControllerBootstrapped => exact local_bootstrap Set.subset_union_left (by simp [footprint])
  | controllerBindingProposed => exact local_propose (by simp [footprint])
  | controllerBindingApproved =>
    exact local_approve (fun a => .inl ⟨a, rfl⟩) (by simp [footprint]) (by simp [footprint])
  | passkeyRevoked => exact local_revokePasskey Set.subset_union_left (by simp [footprint])
  | transfer => exact .of_throw _
  | capabilityGrantCreated | controlGrantCreated =>
    refine Local.lift_bind fun input _ => Local.lift_bind fun now _ => ?_
    refine Local.bind ?_ fun _ _ => .of_pure _
    apply local_createControlGrant <;> simp [footprint]
  | controlGrantRevoked =>
    refine Local.lift_bind fun input _ => Local.lift_bind fun now _ => ?_
    refine Local.bind ?_ fun _ _ => .of_pure _
    apply local_revokeControlGrant <;> simp [footprint]
  | policyArtifactRecorded =>
    refine Local.lift_bind fun payload _ => Local.lift_bind fun now _ => ?_
    apply local_recordPolicyArtifacts <;> simp [footprint]
  | authorizationCreated =>
    refine Local.lift_bind fun input _ => Local.lift_bind fun now _ => ?_
    refine Local.bind ?_ fun _ _ => .of_pure _
    apply local_buildAuthorization <;> simp [footprint]
  | externalProofRecorded =>
    refine Local.lift_bind fun input _ => Local.lift_bind fun now _ => ?_
    refine Local.bind ?_ fun _ _ => .of_pure _
    apply local_createExternalProof <;> simp [footprint]
  | marketplaceSettlementRecorded =>
    refine Local.lift_bind fun input _ => Local.lift_bind fun now _ => ?_
    refine Local.bind ?_ fun settlement _ => ?_
    · apply local_executeMarketplaceSettlement <;> simp [footprint]
    · cases settlement with
      | ok settlement => exact .of_pure _
      | error reason => exact .of_throw _
  | marketplaceSellerUpserted =>
    refine Local.lift_bind fun input _ => Local.lift_bind fun now _ => ?_
    apply local_upsertSeller <;> simp [footprint]
  | marketplaceListingUpserted =>
    refine Local.lift_bind fun input _ => Local.lift_bind fun now _ => ?_
    apply local_upsertListing <;> simp [footprint]
  | marketplaceSellerActivated =>
    refine Local.lift_bind fun payload _ => Local.lift_bind fun now _ => ?_
    apply local_activateSeller <;> simp [footprint]
  | accountProvenanceAdmission => exact local_admit (subset_refl _)

/-- The cells an event may look at or write; other types only concern the projection. -/
def eventFootprint (p : Platform) (event : Json) : Set Cell :=
  match ledgerEventType event with
  | some t => footprint p event t
  | none => {.projection}

theorem local_handleEvent (p : Platform) (event : Json) :
    LocalTo (eventFootprint p event) (handleEvent p event) := by
  unfold eventFootprint handleEvent
  cases ledgerEventType event with
  | some t => exact local_applyTyped p event t
  | none =>
    refine Local.lift_bind fun canonical _ => ?_
    cases canonical with
    | true => exact local_projectRealmEvent (Set.mem_singleton _)
    | false => exact .of_pure _

/-! ## What no handler touches -/

/-- The cells around the stores, which only `applyEvent` itself and the start write. -/
def Cell.outer : Cell → Bool
  | log | governance | root | birthday | disk => true
  | _ => false

theorem not_mem_entityCells {p : Platform} {v : Option Json} {c : Cell}
    (h : ∀ a, c ≠ .account a) : c ∉ entityCells p v :=
  fun ⟨a, _, ha⟩ => h a ha

theorem not_mem_eventFootprint (p : Platform) (event : Json) {c : Cell} (h : c.outer = true) :
    c ∉ eventFootprint p event := by
  have hno (v : Option Json) : c ∉ entityCells p v :=
    not_mem_entityCells fun a heq => by rw [heq] at h; cases h
  unfold eventFootprint
  cases ledgerEventType event with
  | none => rintro rfl; cases h
  | some t => cases t <;> cases c <;> simp_all [footprint, Cell.outer]

end SimpleL1.Node
