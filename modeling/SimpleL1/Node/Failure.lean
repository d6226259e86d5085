import SimpleL1.Node.StateRoot

/-!
# An event that fails

An exception of `applyEvent` leaves accounts, stores, projection and event log as
they were exactly when nothing new was written before it.
-/

namespace SimpleL1.Node

open SimpleL1.Js SimpleL1.Lib SimpleL1.Lib.Effect

/-! ## What an exception has to leave alone -/

/-- The accounts, the stores, the authority projection and the event log. -/
@[simp] def Cell.core : Cell → Bool
  | account _ | store _ | keys _ | projection | log => true
  | governance | root | birthday | deposits | disk => false

def core : Set Cell := { c | c.core = true }

@[simp] theorem mem_core (c : Cell) : c ∈ core ↔ c.core = true := Iff.rfl

abbrev Unchanged (l l' : Ledger) : Prop := Agree view core l l'

section
variable {C : Set Cell} {l l' : Ledger}

@[simp] theorem agree_refl : Agree view C l l := fun _ _ => rfl

theorem agree_write {c : Cell} {m : Ledger} (hframe : ∀ c' ≠ c, view c' m = view c' l') :
    Agree view C l m ↔ (c ∈ C → view c l = view c m) ∧ Agree view (C \ {c}) l l' := by
  refine ⟨fun h => ⟨h c, fun c' hc' => (h c' hc'.1).trans (hframe c' hc'.2)⟩, fun ⟨h, h'⟩ c' hc' => ?_⟩
  by_cases heq : c' = c
  · subst heq
    exact h hc'
  · exact (h' c' ⟨hc', heq⟩).trans (hframe c' heq).symm

@[simp] theorem agree_setStore {s : Store} {xs : List Fields} :
    Agree view C l (l'.setStore s xs) ↔
      (.store s ∈ C → l.stores s = xs) ∧ Agree view (C \ {.store s}) l l' := by
  rw [agree_write (view_setStore l' s xs)]
  show (_ → _ = (l'.setStore s xs).stores s) ∧ _ ↔ _
  rw [stores_setStore]
  rfl

@[simp] theorem agree_setKeys {k : KeyStore} {xs : List Json} :
    Agree view C l (l'.setKeys k xs) ↔
      (.keys k ∈ C → l.keyStores k = xs) ∧ Agree view (C \ {.keys k}) l l' := by
  rw [agree_write (view_setKeys l' k xs)]
  show (_ → _ = (l'.setKeys k xs).keyStores k) ∧ _ ↔ _
  rw [keyStores_setKeys]
  rfl

@[simp] theorem agree_setAccount {a : String} {account : Fields} :
    Agree view C l (l'.setAccount a account) ↔
      (.account a ∈ C → l.account a = some account) ∧ Agree view (C \ {.account a}) l l' := by
  rw [agree_write (view_setAccount l' a account)]
  show (_ → _ = (l'.setAccount a account).account a) ∧ _ ↔ _
  rw [account_setAccount]
  rfl

theorem agree_deposit {btc entityAddress : String} (h : .deposits ∉ C) :
    Agree view C l (l'.deposit btc entityAddress) ↔ Agree view C l l' := by
  have hframe (c : Cell) (hc : c ∈ C) : view c (l'.deposit btc entityAddress) = view c l' := by
    cases c with
    | deposits => exact absurd hc h
    | _ => rfl
  exact ⟨fun h c hc => (h c hc).trans (hframe c hc), fun h c hc => (h c hc).trans (hframe c hc).symm⟩

end

section
variable (p : Platform) (ledger : Ledger) (event : Json)

/-! ## What is there already -/

/-- The artifact stands in the store as it is. -/
def Recorded (s : Store) (artifact : Fields) : Prop :=
  ledger.stores s = upsert "id" artifact (fun _ => artifact) (ledger.stores s)

/-- `others` and the new binding, which is missing when its id cannot be computed. -/
def rebound (others : List Fields) (id : JsM String) (binding : String → Fields) : List Fields :=
  match id with
  | .ok id => others ++ [binding id]
  | .error _ => others

theorem after_rebind (others : List Fields) (id : JsM String) (binding : String → Fields) :
    after (rebind others id binding) ledger =
      ledger.setStore .controller_bindings (rebound others id binding) := by
  unfold rebind rebound
  cases id with
  | error e => simp [after_bind]
  | ok id => simp [after_bind, Ledger.setStore]

/-- The bindings after a `GENESIS` event. -/
def genesisBindings (genesis : Genesis) (bindings : List Fields) : List Fields :=
  match genesis.keyAddress with
  | none => bindings
  | some keyAddress =>
    if truthy genesis.credentialId && genesis.credentialPublicKey.truthy then
      rebound (withoutCredential genesis.credentialId bindings)
        (controllerBindingId p genesis.entityAddress keyAddress genesis.credentialId) fun id =>
          passkeyBinding id genesis.entityAddress keyAddress genesis.credentialId
            genesis.credentialPublicKey genesis.rpId "GENESIS" (event.prop "timestamp")
    else bindings

theorem after_bindGenesis (genesis : Genesis) :
    after (bindGenesis p event genesis) ledger = ledger.setStore .controller_bindings
      (genesisBindings p event genesis (ledger.stores .controller_bindings)) := by
  unfold bindGenesis genesisBindings
  cases genesis.keyAddress with
  | none => simp
  | some keyAddress =>
    dsimp only
    split
    · simp [after_bind, after_rebind]
    · simp

def GenesisThere : Prop :=
  ∀ genesis, genesisOf p event = .ok genesis →
    ledger.account genesis.entityAddress = some genesis.account ∧
    ledger.stores .controller_bindings =
      genesisBindings p event genesis (ledger.stores .controller_bindings)

theorem unchanged_applyGenesis :
    Unchanged ledger (after (applyGenesis p event) ledger) ↔ GenesisThere p ledger event := by
  unfold applyGenesis GenesisThere
  cases genesisOf p event with
  | error e => simp [after_bind]
  | ok genesis =>
    simp only [after_bind, outcome_lift, after_lift, outcome_writeAccount, after_writeAccount,
      after_bindGenesis, after_modify]
    split <;> simp [agree_deposit, and_comm]

def AddedThere : Prop :=
  ∀ added, addedPasskey p ledger event = .ok added →
    ledger.account added.entityAddress = some (added.account.set "keys" (.arr added.keys)) ∧
    ledger.stores .controller_bindings =
      rebound (withoutCredential (some added.credentialId) (ledger.stores .controller_bindings))
        (controllerBindingId p added.entityAddress added.keyAddress (some added.credentialId))
        fun id => passkeyBinding id added.entityAddress added.keyAddress (some added.credentialId)
          added.credentialPublicKey added.rpId "PASSKEY_ADDED" (event.prop "timestamp")

theorem unchanged_addPasskey :
    Unchanged ledger (after (addPasskey p event) ledger) ↔ AddedThere p ledger event := by
  unfold addPasskey AddedThere
  cases h : addedPasskey p ledger event with
  | error e => simp [after_bind, h]
  | ok added => simp [after_bind, after_rebind, h, and_comm]

def NativeThere : Prop :=
  ∀ native, nativeController p ledger event = .ok native →
    ledger.account native.entityAddress = some native.account ∧
    ∀ others, Js.filter (isOtherController native.entityAddress native.keyAddress)
        (ledger.stores .controller_bindings) = .ok others →
      ledger.stores .controller_bindings =
        rebound others (controllerBindingId p native.entityAddress native.keyAddress
          (some (.str "native_macos_p256"))) (nativeBinding event native)

theorem unchanged_bootstrap :
    Unchanged ledger (after (bootstrapNativeController p event) ledger) ↔
      NativeThere p ledger event := by
  unfold bootstrapNativeController NativeThere
  cases h : nativeController p ledger event with
  | error e => simp [after_bind, h]
  | ok native =>
    cases h' : Js.filter (isOtherController native.entityAddress native.keyAddress)
        (ledger.stores .controller_bindings) with
    | error e => simp [after_bind, h, h']
    | ok others => simp [after_bind, h, h', after_rebind, and_comm]

def ProposalThere : Prop :=
  ∀ others, otherProposals event (ledger.stores .controller_binding_proposals) = .ok others →
    ledger.stores .controller_binding_proposals = others ++ [pendingProposal event]

theorem unchanged_propose :
    Unchanged ledger (after (proposeController event) ledger) ↔ ProposalThere ledger event := by
  unfold proposeController ProposalThere
  cases h : otherProposals event (ledger.stores .controller_binding_proposals) with
  | error e => simp [after_bind, h]
  | ok others => simp [after_bind, h]

def BindingThere (proposal : Fields) : Prop :=
  ∀ entityAddress, assertEntityAddress p (proposal.get "entity_l1_address") = .ok entityAddress →
  ∀ keyAddress,
    assertKeyAddress p (proposal.get "proposed_controller_key_l1_address") = .ok keyAddress →
  ∀ account, ledger.account entityAddress = some account →
  ∀ account', approvedAccount event proposal keyAddress account = .ok account' →
    account = account' ∧
    ∀ others, Js.filter (isOtherController entityAddress keyAddress)
        (ledger.stores .controller_bindings) = .ok others →
      ledger.stores .controller_bindings =
        rebound others (controllerBindingId p entityAddress keyAddress
          (or (proposal.get "credential_id") (proposal.get "proposal_id")))
          (approvedBinding event proposal entityAddress keyAddress)

/-- After a change of the proposals `xs`. -/
theorem unchanged_bindApproved (proposal : Fields) (xs : List Fields) :
    Unchanged ledger (after (bindApproved p event proposal)
        (ledger.setStore .controller_binding_proposals xs)) ↔
      ledger.stores .controller_binding_proposals = xs ∧ BindingThere p ledger event proposal := by
  have hbindings : (ledger.setStore .controller_binding_proposals xs).stores .controller_bindings =
    ledger.stores .controller_bindings := stores_setStore_of_ne ledger (by decide) xs
  unfold bindApproved BindingThere
  cases assertEntityAddress p (proposal.get "entity_l1_address") with
  | error e => simp [after_bind]
  | ok entityAddress =>
    cases assertKeyAddress p (proposal.get "proposed_controller_key_l1_address") with
    | error e => simp [after_bind]
    | ok keyAddress =>
      cases haccount : ledger.account entityAddress with
      | none => simp [after_bind, haccount]
      | some account =>
        cases haccount' : approvedAccount event proposal keyAddress account with
        | error e => simp [after_bind, haccount, haccount']
        | ok account' =>
          cases hothers : Js.filter (isOtherController entityAddress keyAddress)
            (ledger.stores .controller_bindings) with
          | error e => simp [after_bind, haccount, haccount', hbindings, hothers, and_comm]
          | ok others =>
            simp [after_bind, after_rebind, haccount, haccount', hbindings, hothers]
            tauto

/-- The proposals after the approval of the event. -/
def approvedProposals (payload : Json) (proposals : List Fields) : List Fields :=
  proposals.map fun proposal =>
    if isProposal payload proposal then approved event payload proposal else proposal

def ApprovalThere : Prop :=
  let proposals := ledger.stores .controller_binding_proposals
  proposals.isEmpty = false → ∀ payload, payloadOf event = .ok payload →
    proposals = approvedProposals event payload proposals ∧
    ∀ proposal, (proposals.filter (isProposal payload)).getLast? = some proposal →
      BindingThere p ledger event proposal

theorem unchanged_approve :
    Unchanged ledger (after (approveController p event) ledger) ↔ ApprovalThere p ledger event := by
  unfold approveController ApprovalThere
  rw [after_bind, outcome_readStore, after_readStore]
  dsimp only
  cases (ledger.stores .controller_binding_proposals).isEmpty with
  | true => simp
  | false =>
    simp only [Bool.false_eq_true, if_false, after_bind, outcome_lift, after_lift,
      outcome_writeStore, after_writeStore]
    cases payloadOf event with
    | error e => simp
    | ok payload =>
      simp only [Except.ok.injEq, forall_eq', forall_true_left]
      generalize ((ledger.stores .controller_binding_proposals).filter
        (isProposal payload)).getLast? = last
      cases last with
      | none => simp [approvedProposals]
      | some proposal => simp [unchanged_bindApproved, approvedProposals]

/-- The account after the revocation, when its own credential is `primary`. -/
def revokedAccount (passkey : RevokedPasskey) (primary : String) : Fields :=
  let account := passkey.account.set "keys" (.arr passkey.keys)
  if primary = passkey.credentialId then account.set "credential_status" (.str "revoked")
  else account

def RevocationThere : Prop :=
  ∀ passkey, revokedPasskey p ledger event = .ok passkey →
    let account := passkey.account.set "keys" (.arr passkey.keys)
    match textOfEither (account.get "credentialId") (account.get "credential_id") with
    | .error _ => ledger.account passkey.entityAddress = some account
    | .ok primary =>
      ledger.account passkey.entityAddress = some (revokedAccount passkey primary) ∧
      ∀ bindings, revokedBindings event passkey.payload passkey.credentialId
          (ledger.stores .controller_bindings) = .ok bindings →
        ledger.stores .controller_bindings = bindings

theorem unchanged_revokePasskey :
    Unchanged ledger (after (revokePasskey p event) ledger) ↔ RevocationThere p ledger event := by
  unfold revokePasskey RevocationThere
  cases h : revokedPasskey p ledger event with
  | error e => simp [after_bind, h]
  | ok passkey =>
    simp only [after_bind, outcome_reading, after_reading, h]
    cases hprimary : textOfEither
        ((passkey.account.set "keys" (.arr passkey.keys)).get "credentialId")
        ((passkey.account.set "keys" (.arr passkey.keys)).get "credential_id") with
    | error e => simp [hprimary]
    | ok primary =>
      cases hbindings : revokedBindings event passkey.payload passkey.credentialId
          (ledger.stores .controller_bindings) with
      | error e =>
        by_cases heq : primary = passkey.credentialId <;>
          simp [hprimary, hbindings, heq, revokePrimary, revokedAccount]
      | ok bindings =>
        by_cases heq : primary = passkey.credentialId <;>
          simp [hprimary, hbindings, heq, revokePrimary, revokedAccount, and_comm]

def AdmissionThere : Prop :=
  ∀ admitted, admittedAccount p event = .ok admitted → ledger.account admitted.1 ≠ none

theorem unchanged_admitAccount :
    Unchanged ledger (after (admitAccount p event) ledger) ↔ AdmissionThere p ledger event := by
  unfold admitAccount AdmissionThere
  cases admittedAccount p event with
  | error e => simp [after_bind]
  | ok admitted =>
    cases h : ledger.account admitted.1 <;> simp [after_bind, h]

/-! ## Grants, policies and proofs -/

/-- `P` holds of the input and the time of the event, when it has both. -/
def Stamped (k : String) (P : Fields → Number → Prop) : Prop :=
  ∀ input, stampedInput event k = .ok input → ∀ now, eventTime p event = .ok now → P input now

theorem unchanged_stamped {k : String} {handler : Fields → Number → LedgerM Unit}
    {P : Fields → Number → Prop}
    (h : ∀ input now, Unchanged ledger (after (handler input now) ledger) ↔ P input now) :
    Unchanged ledger (after (do
      let input ← stampedInput event k
      let now ← eventTime p event
      handler input now : LedgerM Unit) ledger) ↔ Stamped p event k P := by
  unfold Stamped
  cases stampedInput event k with
  | error e => simp [after_bind]
  | ok input =>
    cases eventTime p event with
    | error e => simp [after_bind]
    | ok now => simp [after_bind, h]

def GrantThere : Prop := Stamped p event "granted_at" fun input now =>
  ∀ grant, buildControlGrant p input now = .ok grant →
  ∀ capability, buildCapability p (Fields.ofOptions [("id", grant.get "capability_id"),
      ("capability", grant.get "capability"), ("scope", grant.get "scope"),
      ("created_at", grant.get "granted_at")]) now = .ok capability →
    Recorded ledger .capabilities capability ∧ Recorded ledger .control_grants grant ∧
    Recorded ledger .capability_grants (grantToCreGrant grant)

theorem unchanged_grantControl :
    Unchanged ledger (after (grantControl p event) ledger) ↔ GrantThere p ledger event := by
  refine unchanged_stamped p ledger event fun input now => ?_
  unfold createControlGrant registerCapability
  cases buildControlGrant p input now with
  | error e => simp [after_bind]
  | ok grant =>
    cases hcapability : buildCapability p (Fields.ofOptions [("id", grant.get "capability_id"),
        ("capability", grant.get "capability"), ("scope", grant.get "scope"),
        ("created_at", grant.get "granted_at")]) now with
    | error e => simp [after_bind, hcapability]
    | ok capability =>
      simp [after_bind, hcapability, Recorded, stores_setStore_of_ne]
      tauto

def GrantRevocationThere : Prop := Stamped p event "revoked_at" fun input now =>
  ∀ grantId revocation, revocationOf p ledger input now = .ok (grantId, revocation) →
    ledger.stores .control_grants =
      markRevoked grantId revocation (ledger.stores .control_grants) ∧
    ledger.stores .capability_grants =
      markRevoked grantId revocation (ledger.stores .capability_grants) ∧
    Recorded ledger .revocations revocation

theorem unchanged_revokeControl :
    Unchanged ledger (after (revokeControl p event) ledger) ↔ GrantRevocationThere p ledger event := by
  refine unchanged_stamped p ledger event fun input now => ?_
  unfold revokeControlGrant
  cases h : revocationOf p ledger input now with
  | error e => simp [after_bind, h]
  | ok revoked =>
    obtain ⟨grantId, revocation⟩ := revoked
    simp [after_bind, h, Recorded, stores_setStore_of_ne]
    tauto

def PolicyThere : Prop :=
  ∀ payload, payloadOf event = .ok payload → ∀ now, eventTime p event = .ok now →
  ∀ evaluation decision, policyArtifacts p (payload.prop "input") (payload.prop "result") now =
      .ok (evaluation, decision) →
    Recorded ledger .policy_evaluations evaluation ∧ Recorded ledger .policy_decisions decision

theorem unchanged_recordPolicy :
    Unchanged ledger (after (recordPolicy p event) ledger) ↔ PolicyThere p ledger event := by
  unfold recordPolicy recordPolicyArtifacts PolicyThere
  cases payloadOf event with
  | error e => simp [after_bind]
  | ok payload =>
    cases eventTime p event with
    | error e => simp [after_bind]
    | ok now =>
      cases h : policyArtifacts p (payload.prop "input") (payload.prop "result") now with
      | error e => simp [after_bind, h]
      | ok artifacts =>
        obtain ⟨evaluation, decision⟩ := artifacts
        simp [after_bind, h, Recorded, stores_setStore_of_ne, and_comm]

def AuthorizationThere : Prop := Stamped p event "authorized_at" fun input now =>
  ∀ authorization, authorizationOf p ledger input now = .ok authorization →
    Recorded ledger .authorizations authorization

theorem unchanged_authorize :
    Unchanged ledger (after (authorize p event) ledger) ↔ AuthorizationThere p ledger event := by
  refine unchanged_stamped p ledger event fun input now => ?_
  unfold buildAuthorization
  cases h : authorizationOf p ledger input now with
  | error e => simp [after_bind, h]
  | ok authorization => simp [after_bind, h, Recorded]

/-- A new replay key is always new. -/
def ProofThere : Prop := Stamped p event "observed_at" fun input now =>
  ∀ proof, externalProofOf p ledger input now ≠ .ok proof

theorem unchanged_recordExternalProof :
    Unchanged ledger (after (recordExternalProof p event) ledger) ↔ ProofThere p ledger event := by
  refine unchanged_stamped p ledger event fun input now => ?_
  unfold createExternalProof
  cases h : externalProofOf p ledger input now with
  | error e => simp [after_bind, h]
  | ok proof => simp [after_bind, h]

def SettlementThere : Prop := Stamped p event "applied_at" fun input now =>
  ∀ settlement, settlementOf p ledger input now ≠ .ok (.ok settlement)

theorem unchanged_recordSettlement :
    Unchanged ledger (after (recordSettlement p event) ledger) ↔ SettlementThere p ledger event := by
  refine unchanged_stamped p ledger event fun input now => ?_
  unfold executeMarketplaceSettlement
  cases h : settlementOf p ledger input now with
  | error e => simp [after_bind, h]
  | ok settlement =>
    cases settlement with
    | error reason => simp [after_bind, h]
    | ok settlement => simp [after_bind, h]

/-! ## Sellers -/

/-- The sellers after a seller was put in and its activation refreshed. -/
def SellerThere : Prop := Stamped p event "created_at" fun input now =>
  ∀ seller, normalizeSeller p input now = .ok seller →
    let upserted := ledger.setStore .marketplace_sellers
      (upsert "seller_id" seller (merge · seller) (ledger.stores .marketplace_sellers))
    ledger.stores .marketplace_sellers = refreshedSellers p upserted (seller.get "seller_id") now

theorem unchanged_recordSeller :
    Unchanged ledger (after (recordSeller p event) ledger) ↔ SellerThere p ledger event := by
  refine unchanged_stamped p ledger event fun input now => ?_
  unfold upsertSeller
  cases h : normalizeSeller p input now with
  | error e => simp [after_bind]
  | ok seller => simp [after_bind]

def ListingThere : Prop := Stamped p event "created_at" fun input now =>
  ∀ listing, normalizeListing p input now = .ok listing →
    ((ledger.stores .marketplace_sellers).find? (isSeller (listing.get "seller_id"))).isSome →
    let listings := upsert "listing_id" listing (merge · listing)
      (ledger.stores .marketplace_listings)
    ledger.stores .marketplace_listings = listings ∧
    ledger.stores .marketplace_sellers = refreshedSellers p
      (ledger.setStore .marketplace_listings listings) (listing.get "seller_id") now

theorem unchanged_recordListing :
    Unchanged ledger (after (recordListing p event) ledger) ↔ ListingThere p ledger event := by
  refine unchanged_stamped p ledger event fun input now => ?_
  unfold upsertListing
  cases normalizeListing p input now with
  | error e => simp [after_bind]
  | ok listing =>
    simp only [after_bind, outcome_lift, after_lift, outcome_readStore, after_readStore,
      Except.ok.injEq, forall_eq']
    generalize ((ledger.stores .marketplace_sellers).find?
      (isSeller (listing.get "seller_id"))).isSome = found
    cases found <;> simp [after_bind, and_comm]

/-- The sellers after the launch of a seller that is ready. -/
def LaunchThere : Prop :=
  ∀ payload, payloadOf event = .ok payload → ∀ now, eventTime p event = .ok now →
  ∀ seller, refreshOf p ledger (payload.prop "seller_id") now = .ok (some seller) →
  let refreshed := refreshedSellers p ledger (payload.prop "seller_id") now
  if strictEq (activationState seller) (some (.str "ready_to_launch")) then
    ∀ activated_at, toISOString p now = .ok activated_at →
      ledger.stores .marketplace_sellers = updateFirst (isSeller (payload.prop "seller_id"))
        (fun _ => launched seller activated_at) refreshed
  else ledger.stores .marketplace_sellers = refreshed

theorem unchanged_launchSeller :
    Unchanged ledger (after (launchSeller p event) ledger) ↔ LaunchThere p ledger event := by
  unfold launchSeller LaunchThere activateSeller putSeller
  cases payloadOf event with
  | error e => simp [after_bind]
  | ok payload =>
    cases eventTime p event with
    | error e => simp [after_bind]
    | ok now =>
      cases h : refreshOf p ledger (payload.prop "seller_id") now with
      | error e => simp [after_bind, h, refreshedSellers]
      | ok seller =>
        cases seller with
        | none => simp [after_bind, h, refreshedSellers]
        | some seller =>
          obtain ⟨activated_at, htime⟩ := refreshOf_time p ledger h
          cases h' : strictEq (activationState seller) (some (.str "ready_to_launch")) with
          | false => simp [after_bind, h, h']
          | true => simp [after_bind, h, h', htime]

/-! ## All handlers -/

def TypedThere : LedgerEventType → Prop
  | .genesis => GenesisThere p ledger event
  | .passkeyAdded => AddedThere p ledger event
  | .nativeControllerBootstrapped => NativeThere p ledger event
  | .controllerBindingProposed => ProposalThere ledger event
  | .controllerBindingApproved => ApprovalThere p ledger event
  | .passkeyRevoked => RevocationThere p ledger event
  | .transfer => True
  | .capabilityGrantCreated => GrantThere p ledger event
  | .controlGrantCreated => GrantThere p ledger event
  | .controlGrantRevoked => GrantRevocationThere p ledger event
  | .policyArtifactRecorded => PolicyThere p ledger event
  | .authorizationCreated => AuthorizationThere p ledger event
  | .externalProofRecorded => ProofThere p ledger event
  | .marketplaceSettlementRecorded => SettlementThere p ledger event
  | .marketplaceSellerUpserted => SellerThere p ledger event
  | .marketplaceListingUpserted => ListingThere p ledger event
  | .marketplaceSellerActivated => LaunchThere p ledger event
  | .accountProvenanceAdmission => AdmissionThere p ledger event

theorem unchanged_applyTyped (t : LedgerEventType) :
    Unchanged ledger (after (applyTyped p event t) ledger) ↔ TypedThere p ledger event t := by
  cases t with
  | genesis => exact unchanged_applyGenesis p ledger event
  | passkeyAdded => exact unchanged_addPasskey p ledger event
  | nativeControllerBootstrapped => exact unchanged_bootstrap p ledger event
  | controllerBindingProposed => exact unchanged_propose ledger event
  | controllerBindingApproved => exact unchanged_approve p ledger event
  | passkeyRevoked => exact unchanged_revokePasskey p ledger event
  | transfer => exact iff_of_true agree_refl trivial
  | capabilityGrantCreated | controlGrantCreated => exact unchanged_grantControl p ledger event
  | controlGrantRevoked => exact unchanged_revokeControl p ledger event
  | policyArtifactRecorded => exact unchanged_recordPolicy p ledger event
  | authorizationCreated => exact unchanged_authorize p ledger event
  | externalProofRecorded => exact unchanged_recordExternalProof p ledger event
  | marketplaceSettlementRecorded => exact unchanged_recordSettlement p ledger event
  | marketplaceSellerUpserted => exact unchanged_recordSeller p ledger event
  | marketplaceListingUpserted => exact unchanged_recordListing p ledger event
  | marketplaceSellerActivated => exact unchanged_launchSeller p ledger event
  | accountProvenanceAdmission => exact unchanged_admitAccount p ledger event

/-- A realm event leaves the projection and the counter as they are. -/
def ProjectionThere : Prop :=
  ∀ state sequence,
    projectionOf ledger.current_authority_state ledger.realm_canonical_sequence event =
      .ok (state, sequence) →
    ledger.current_authority_state = state ∧ ledger.realm_canonical_sequence = sequence

theorem unchanged_withState (state : Realm.AuthorityState) (sequence : Number) :
    Unchanged ledger (ledger.withState state sequence) ↔
      ledger.current_authority_state = state ∧ ledger.realm_canonical_sequence = sequence := by
  refine ⟨fun h => ?_, ?_⟩
  · exact Prod.mk.inj (h .projection rfl)
  · rintro ⟨rfl, rfl⟩
    exact agree_refl

theorem after_projectRealmEvent :
    after (projectRealmEvent event) ledger =
      match projectionOf ledger.current_authority_state ledger.realm_canonical_sequence event with
      | .ok (state, sequence) => ledger.withState state sequence
      | .error _ => ledger := by
  unfold after
  rw [projectRealmEvent_apply]
  cases projectionOf ledger.current_authority_state ledger.realm_canonical_sequence event <;> rfl

theorem unchanged_projectRealmEvent :
    Unchanged ledger (after (projectRealmEvent event) ledger) ↔ ProjectionThere ledger event := by
  rw [after_projectRealmEvent]
  unfold ProjectionThere
  cases projectionOf ledger.current_authority_state ledger.realm_canonical_sequence event with
  | error e => simp
  | ok next =>
    obtain ⟨state, sequence⟩ := next
    simp [unchanged_withState]

/-- What the event would write is there already. -/
def AlreadyThere : Prop :=
  match ledgerEventType event with
  | some t => TypedThere p ledger event t
  | none => ProjectionThere ledger event

theorem unchanged_handleEvent :
    Unchanged ledger (after (handleEvent p event) ledger) ↔ AlreadyThere p ledger event := by
  unfold handleEvent AlreadyThere
  cases ledgerEventType event with
  | some t => exact unchanged_applyTyped p ledger event t
  | none =>
    cases hcanonical : Realm.isCanonicalRealmEvent event with
    | error e => simp [after_bind, ProjectionThere, projectionOf, hcanonical]
    | ok canonical =>
      cases canonical with
      | false => simp [after_bind, ProjectionThere, projectionOf, hcanonical]
      | true => simpa [after_bind] using unchanged_projectRealmEvent ledger event

/-! ## `applyEvent` -/

section
variable {p} {ledger} {event}

/-- The event dates the network and changes nothing else. -/
theorem agree_born (event : Json) : Agree view {.birthday}ᶜ ledger (ledger.born event) := by
  intro c hc
  unfold Ledger.born
  split
  · cases c with
    | birthday => exact absurd rfl hc
    | _ => rfl
  · rfl

theorem local_handleEvent_birthday : LocalTo {.birthday}ᶜ (handleEvent p event) :=
  (local_handleEvent p event).mono fun c hc heq => by
    rw [show c = .birthday from heq] at hc
    exact not_mem_eventFootprint p event rfl hc

theorem outcome_handle_born :
    outcome (handleEvent p event) (ledger.born event) = verdict p ledger event := by
  rw [← outcome_handleEvent]
  exact (local_handleEvent_birthday.outcome_eq _ _ (agree_born event)).symm

/-- The ledger as the handler leaves it, in the cells that no exception may change. -/
theorem agree_handle_born : Unchanged (after (handleEvent p event) ledger)
    (after (handleEvent p event) (ledger.born event)) :=
  (local_handleEvent_birthday.agree _ _ (agree_born event)).mono fun c hc heq => by
    rw [show c = .birthday from heq] at hc
    cases hc

theorem event_log_handle_born :
    (after (handleEvent p event) (ledger.born event)).event_log = ledger.event_log :=
  ((local_handleEvent p event).frame _ .log (not_mem_eventFootprint p event rfl)).trans
    (agree_born event .log nofun).symm

theorem unchanged_handle_born :
    Unchanged ledger (after (handleEvent p event) (ledger.born event)) ↔
      AlreadyThere p ledger event := by
  rw [← unchanged_handleEvent]
  exact ⟨fun h => h.trans agree_handle_born.symm, fun h => h.trans agree_handle_born⟩

theorem counts_handle_born (a : String) :
    Counts (after (handleEvent p event) (ledger.born event)) a ↔ CountsAfter p ledger event a := by
  rw [← counts_handleEvent]
  exact counts_congr (agree_handle_born (.account a) rfl).symm

end

theorem assertWritable_primary {config : RealmConfig} (hrole : config.role = .primary) :
    assertWritable config = .ok () := by
  unfold assertWritable
  rw [hrole]
  rfl

theorem assertWritable_standby {config : RealmConfig} (hrole : config.role = .standby) :
    assertWritable config = .error writeForbidden := by
  unfold assertWritable
  rw [hrole]
  rfl

theorem commitEvent_standby {config : RealmConfig} (hrole : config.role = .standby) :
    commitEvent p config event ledger = .error writeForbidden ledger := by
  unfold commitEvent
  rw [assertWritable_standby hrole]
  rfl

theorem commitEvent_primary {config : RealmConfig} (hrole : config.role = .primary) :
    outcome (commitEvent p config event) ledger =
      calculateStateRoot p ledger >>= fun _ => pure () := by
  have hroot : calculateStateRoot p (ledger.append event) = calculateStateRoot p ledger := rfl
  unfold commitEvent updateStateRoot saveLedger
  simp only [outcome_bind, after_bind, outcome_lift, after_lift, assertWritable_primary hrole,
    outcome_modify, after_modify, outcome_reading, after_reading, ok_bind, hroot]
  cases calculateStateRoot p ledger <;> rfl

/-- The event stands in the log when the state root cannot be computed. -/
theorem commitEvent_after {config : RealmConfig} (hrole : config.role = .primary) {e : Error}
    (hroot : calculateStateRoot p ledger = .error e) :
    after (commitEvent p config event) ledger = ledger.append event := by
  have hroot' : calculateStateRoot p (ledger.append event) = .error e := hroot
  unfold commitEvent updateStateRoot
  simp only [outcome_bind, after_bind, outcome_lift, after_lift, assertWritable_primary hrole,
    outcome_modify, after_modify, outcome_reading, after_reading, hroot']
  rfl

/-- An exception leaves the ledger as it was. -/
def FailsClean (config : RealmConfig) : Prop :=
  Throws (applyEvent p config event) ledger →
    Unchanged ledger (after (applyEvent p config event) ledger)

/-- The type and the id of the event can be logged, and then the event is one a primary node has no
reason to refuse and whose accounts can all be counted, or what it would write is there already. -/
def NothingToUndo (config : RealmConfig) : Prop :=
  logLine event = .ok () →
    if config.role = .primary ∧ verdict p ledger event = .ok () then
      ∀ a, CountsAfter p ledger event a
    else AlreadyThere p ledger event

theorem after_applyEvent (config : RealmConfig) (hlog : logLine event = .ok ()) :
    after (applyEvent p config event) ledger =
      match verdict p ledger event with
      | .ok _ => after (commitEvent p config event) (after (handleEvent p event) (ledger.born event))
      | .error _ => after (handleEvent p event) (ledger.born event) := by
  unfold applyEvent
  simp only [after_bind, outcome_lift, after_lift, hlog, outcome_modify, after_modify,
    outcome_handle_born, Bool.false_eq_true, if_false]
  cases verdict p ledger event <;> rfl

theorem outcome_applyEvent (config : RealmConfig) (hlog : logLine event = .ok ()) :
    outcome (applyEvent p config event) ledger = verdict p ledger event >>= fun _ =>
      outcome (commitEvent p config event) (after (handleEvent p event) (ledger.born event)) := by
  unfold applyEvent
  simp only [outcome_bind, outcome_lift, after_lift, hlog, outcome_modify, after_modify,
    outcome_handle_born, Bool.false_eq_true, if_false, ok_bind]

/-- A platform for lower-case ASCII texts, without digests or dates. -/
def plainPlatform : Platform where
  toHost := .ofTable [] [] nofun
  lower s := s
  upper s := s
  nfc s := s
  parseDate _ := .nan
  isoDate _ := "1970-01-01T00:00:00.000Z"
  lower_lower _ := rfl
  isoDate_ne_empty _ := by decide

def standbyConfig : RealmConfig := ⟨.standby, .file⟩

def newProposal : Json :=
  .obj [("id", .str "evt_1"), ("type", .str "CONTROLLER_BINDING_PROPOSED"),
    ("payload", .obj [("proposal_id", .str "cbp_1")])]

end

end SimpleL1.Node
