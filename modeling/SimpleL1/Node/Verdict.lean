import SimpleL1.Node.Footprint

/-!
# What an event is answered

`verdict` is what the handler of an event returns or throws, computed from the
ledger before it without writing anything. The checks a handler makes after its
first write are in it too, in the order they are made.
-/

namespace SimpleL1.Node

open SimpleL1.Js SimpleL1.Lib SimpleL1.Lib.Effect

/-! ## One read or write -/

section
variable (ledger : Ledger)

@[simp] theorem after_readStore (s : Store) : after (readStore s) ledger = ledger := rfl

@[simp] theorem outcome_readStore (s : Store) : outcome (readStore s) ledger = .ok (ledger.stores s) :=
  rfl

@[simp] theorem after_readAccount (a : String) : after (readAccount a) ledger = ledger := rfl

@[simp] theorem outcome_readAccount (a : String) :
    outcome (readAccount a) ledger = .ok (ledger.account a) := rfl

@[simp] theorem after_writeStore (s : Store) (xs : List Fields) :
    after (writeStore s xs) ledger = ledger.setStore s xs := rfl

@[simp] theorem outcome_writeStore (s : Store) (xs : List Fields) :
    outcome (writeStore s xs) ledger = .ok () := rfl

@[simp] theorem after_writeAccount (a : String) (account : Fields) :
    after (writeAccount a account) ledger = ledger.setAccount a account := rfl

@[simp] theorem outcome_writeAccount (a : String) (account : Fields) :
    outcome (writeAccount a account) ledger = .ok () := rfl

@[simp] theorem after_push (s : Store) (x : Fields) :
    after (push s x) ledger = ledger.setStore s (ledger.stores s ++ [x]) := rfl

@[simp] theorem outcome_push (s : Store) (x : Fields) : outcome (push s x) ledger = .ok () := rfl

@[simp] theorem after_upsertById (s : Store) (x : Fields) :
    after (upsertById s x) ledger =
      ledger.setStore s (upsert "id" x (fun _ => x) (ledger.stores s)) := rfl

@[simp] theorem outcome_upsertById (s : Store) (x : Fields) :
    outcome (upsertById s x) ledger = .ok () := rfl

@[simp] theorem after_upsertByKey (s : Store) (k : String) (x : Fields) :
    after (upsertByKey s k x) ledger =
      ledger.setStore s (upsert k x (merge · x) (ledger.stores s)) := rfl

@[simp] theorem outcome_upsertByKey (s : Store) (k : String) (x : Fields) :
    outcome (upsertByKey s k x) ledger = .ok () := rfl

@[simp] theorem after_pushKey (k : KeyStore) (key : Json) :
    after (pushKey k key) ledger = ledger.setKeys k (ledger.keyStores k ++ [key]) := rfl

@[simp] theorem outcome_pushKey (k : KeyStore) (key : Json) :
    outcome (pushKey k key) ledger = .ok () := rfl

/-! ## What a write leaves alone -/

theorem stores_setStore_of_ne {s s' : Store} (h : s' ≠ s) (xs : List Fields) :
    (ledger.setStore s xs).stores s' = ledger.stores s' := Function.update_of_ne h _ _

@[simp] theorem stores_setAccount (a : String) (account : Fields) :
    (ledger.setAccount a account).stores = ledger.stores := rfl

@[simp] theorem account_setStore (s : Store) (xs : List Fields) (a : String) :
    (ledger.setStore s xs).account a = ledger.account a := rfl

@[simp] theorem account_setKeys (k : KeyStore) (xs : List Json) (a : String) :
    (ledger.setKeys k xs).account a = ledger.account a := rfl

@[simp] theorem keyStores_setStore (s : Store) (xs : List Fields) :
    (ledger.setStore s xs).keyStores = ledger.keyStores := rfl

@[simp] theorem account_deposit (btc entityAddress a : String) :
    (ledger.deposit btc entityAddress).account a = ledger.account a := rfl

theorem account_setAccount_of_ne {a b : String} (h : a ≠ b) (account : Fields) :
    (ledger.setAccount a account).account b = ledger.account b :=
  OrderedMap.find_insert_of_ne _ h _

end

section
variable (p : Platform) (ledger : Ledger) (event : Json)

/-! ## Accounts -/

/-- The id of the binding of a `GENESIS` event, if it makes one. -/
def genesisBindingId (genesis : Genesis) : Option (JsM String) :=
  match genesis.keyAddress with
  | none => none
  | some keyAddress =>
    if truthy genesis.credentialId && genesis.credentialPublicKey.truthy then
      some (controllerBindingId p genesis.entityAddress keyAddress genesis.credentialId)
    else none

def genesisVerdict : JsM Unit := do
  let genesis ← genesisOf p event
  match genesisBindingId p genesis with
  | none => return
  | some id =>
    let _ ← id

def addedVerdict : JsM Unit := do
  let added ← addedPasskey p ledger event
  let _ ← controllerBindingId p added.entityAddress added.keyAddress (some added.credentialId)

def bootstrapVerdict : JsM Unit := do
  let native ← nativeController p ledger event
  let _ ← Js.filter (isOtherController native.entityAddress native.keyAddress)
    (ledger.stores .controller_bindings)
  let _ ← controllerBindingId p native.entityAddress native.keyAddress
    (some (.str "native_macos_p256"))

def bindVerdict (proposal : Fields) : JsM Unit := do
  let entityAddress ← assertEntityAddress p (proposal.get "entity_l1_address")
  let keyAddress ← assertKeyAddress p (proposal.get "proposed_controller_key_l1_address")
  match ledger.account entityAddress with
  | none => return
  | some account =>
    let _ ← approvedAccount event proposal keyAddress account
    let _ ← Js.filter (isOtherController entityAddress keyAddress)
      (ledger.stores .controller_bindings)
    let _ ← controllerBindingId p entityAddress keyAddress
      (or (proposal.get "credential_id") (proposal.get "proposal_id"))

def proposeVerdict : JsM Unit := do
  let _ ← otherProposals event (ledger.stores .controller_binding_proposals)

/-- The last proposal with the id of the event, and its payload, if there is any proposal. -/
def approvedProposal (proposals : List Fields) : JsM (Option Fields) :=
  if proposals.isEmpty then return none
  else do
    let payload ← payloadOf event
    return (proposals.filter (isProposal payload)).getLast?

def approveVerdict : JsM Unit := do
  match ← approvedProposal event (ledger.stores .controller_binding_proposals) with
  | none => return
  | some proposal => bindVerdict p ledger event proposal

def revokeVerdict : JsM Unit := do
  let passkey ← revokedPasskey p ledger event
  let account := passkey.account.set "keys" (.arr passkey.keys)
  let _ ← textOfEither (account.get "credentialId") (account.get "credential_id")
  let _ ← revokedBindings event passkey.payload passkey.credentialId
    (ledger.stores .controller_bindings)

/-! ## The other handlers -/

def grantVerdict : JsM Unit := do
  let input ← stampedInput event "granted_at"
  let now ← eventTime p event
  let grant ← buildControlGrant p input now
  let _ ← buildCapability p (Fields.ofOptions [("id", grant.get "capability_id"),
    ("capability", grant.get "capability"), ("scope", grant.get "scope"),
    ("created_at", grant.get "granted_at")]) now

def revocationVerdict : JsM Unit := do
  let input ← stampedInput event "revoked_at"
  let now ← eventTime p event
  let _ ← revocationOf p ledger input now

def policyVerdict : JsM Unit := do
  let payload ← payloadOf event
  let now ← eventTime p event
  let _ ← policyArtifacts p (payload.prop "input") (payload.prop "result") now

def authorizationVerdict : JsM Unit := do
  let input ← stampedInput event "authorized_at"
  let now ← eventTime p event
  let _ ← authorizationOf p ledger input now

def proofVerdict : JsM Unit := do
  let input ← stampedInput event "observed_at"
  let now ← eventTime p event
  let _ ← externalProofOf p ledger input now

def settlementVerdict : JsM Unit := do
  let input ← stampedInput event "applied_at"
  let now ← eventTime p event
  match ← settlementOf p ledger input now with
  | .error reason => throw (.error reason)
  | .ok _ => return

def sellerVerdict : JsM Unit := do
  let input ← stampedInput event "created_at"
  let now ← eventTime p event
  let _ ← normalizeSeller p input now

def listingVerdict : JsM Unit := do
  let input ← stampedInput event "created_at"
  let now ← eventTime p event
  let listing ← normalizeListing p input now
  throwUnless ((ledger.stores .marketplace_sellers).find?
    (isSeller (listing.get "seller_id"))).isSome (.error "seller_not_found")

def launchVerdict : JsM Unit := do
  let payload ← payloadOf event
  let now ← eventTime p event
  match ← refreshOf p ledger (payload.prop "seller_id") now with
  | none => throw (.error "seller_not_found")
  | some seller =>
    throwUnless (strictEq (activationState seller) (some (.str "ready_to_launch")))
      (.error "seller_not_ready")

def admissionVerdict : JsM Unit := do
  let _ ← admittedAccount p event

def applyVerdict : LedgerEventType → JsM Unit
  | .genesis => genesisVerdict p event
  | .passkeyAdded => addedVerdict p ledger event
  | .nativeControllerBootstrapped => bootstrapVerdict p ledger event
  | .controllerBindingProposed => proposeVerdict ledger event
  | .controllerBindingApproved => approveVerdict p ledger event
  | .passkeyRevoked => revokeVerdict p ledger event
  | .transfer => throw transferDisabled
  | .capabilityGrantCreated => grantVerdict p event
  | .controlGrantCreated => grantVerdict p event
  | .controlGrantRevoked => revocationVerdict p ledger event
  | .policyArtifactRecorded => policyVerdict p event
  | .authorizationCreated => authorizationVerdict p ledger event
  | .externalProofRecorded => proofVerdict p ledger event
  | .marketplaceSettlementRecorded => settlementVerdict p ledger event
  | .marketplaceSellerUpserted => sellerVerdict p event
  | .marketplaceListingUpserted => listingVerdict p ledger event
  | .marketplaceSellerActivated => launchVerdict p ledger event
  | .accountProvenanceAdmission => admissionVerdict p event

def realmVerdict : JsM Unit := do
  let _ ← projectionOf ledger.current_authority_state ledger.realm_canonical_sequence event

def verdict : JsM Unit :=
  match ledgerEventType event with
  | some t => applyVerdict p ledger event t
  | none => realmVerdict ledger event

/-! ## The handlers return their verdict -/

@[simp] theorem outcome_revokePrimary (a : String) (account : Fields) (isPrimary : Bool) :
    outcome (revokePrimary a account isPrimary) ledger = .ok () := by
  cases isPrimary <;> rfl

@[simp] theorem stores_revokePrimary (a : String) (account : Fields) (isPrimary : Bool) :
    (after (revokePrimary a account isPrimary) ledger).stores = ledger.stores := by
  cases isPrimary <;> rfl

theorem outcome_applyGenesis : outcome (applyGenesis p event) ledger = genesisVerdict p event := by
  unfold applyGenesis genesisVerdict bindGenesis genesisBindingId rebind
  simp only [outcome_bind, outcome_lift, after_lift]
  refine bind_congr fun genesis => ?_
  cases genesis.keyAddress with
  | none => rfl
  | some keyAddress =>
    dsimp only
    split <;> simp [outcome_bind]

theorem outcome_addPasskey : outcome (addPasskey p event) ledger = addedVerdict p ledger event := by
  unfold addPasskey addedVerdict rebind
  simp [outcome_bind]

theorem outcome_bootstrap :
    outcome (bootstrapNativeController p event) ledger = bootstrapVerdict p ledger event := by
  unfold bootstrapNativeController bootstrapVerdict rebind
  simp [outcome_bind]

theorem outcome_propose : outcome (proposeController event) ledger = proposeVerdict ledger event := by
  unfold proposeController proposeVerdict
  simp [outcome_bind]

theorem outcome_bindApproved (proposal : Fields) :
    outcome (bindApproved p event proposal) ledger = bindVerdict p ledger event proposal := by
  unfold bindApproved bindVerdict rebind
  simp only [outcome_bind, outcome_lift, after_lift, outcome_readAccount, after_readAccount]
  refine bind_congr fun entityAddress => bind_congr fun keyAddress => ?_
  simp only [ok_bind]
  cases ledger.account entityAddress <;> simp [outcome_bind]

theorem bindVerdict_setStore (s : Store) (h : s ≠ .controller_bindings) (xs : List Fields)
    (proposal : Fields) :
    bindVerdict p (ledger.setStore s xs) event proposal = bindVerdict p ledger event proposal := by
  unfold bindVerdict
  simp only [account_setStore, stores_setStore_of_ne ledger h.symm]

theorem outcome_approve :
    outcome (approveController p event) ledger = approveVerdict p ledger event := by
  unfold approveController approveVerdict approvedProposal
  rw [outcome_bind, outcome_readStore, after_readStore, ok_bind]
  split
  · rfl
  · rw [outcome_bind, outcome_lift, after_lift, bind_assoc]
    refine bind_congr fun payload => ?_
    rw [outcome_bind, outcome_writeStore, after_writeStore, ok_bind]
    show _ = (match _ with | none => pure () | some proposal => bindVerdict p ledger event proposal)
    cases ((ledger.stores .controller_binding_proposals).filter (isProposal payload)).getLast? with
    | none => rfl
    | some proposal =>
      exact (outcome_bindApproved p _ event proposal).trans
        (bindVerdict_setStore p ledger event _ (by decide) _ proposal)

theorem outcome_revokePasskey :
    outcome (revokePasskey p event) ledger = revokeVerdict p ledger event := by
  unfold revokePasskey revokeVerdict
  simp [outcome_bind]

theorem outcome_grantControl : outcome (grantControl p event) ledger = grantVerdict p event := by
  unfold grantControl grantVerdict createControlGrant registerCapability
  simp [outcome_bind]

theorem outcome_revokeControl :
    outcome (revokeControl p event) ledger = revocationVerdict p ledger event := by
  unfold revokeControl revocationVerdict revokeControlGrant
  simp [outcome_bind]

theorem outcome_recordPolicy : outcome (recordPolicy p event) ledger = policyVerdict p event := by
  unfold recordPolicy policyVerdict recordPolicyArtifacts
  simp [outcome_bind]

theorem outcome_authorize :
    outcome (authorize p event) ledger = authorizationVerdict p ledger event := by
  unfold authorize authorizationVerdict buildAuthorization
  simp [outcome_bind]

theorem outcome_recordExternalProof :
    outcome (recordExternalProof p event) ledger = proofVerdict p ledger event := by
  unfold recordExternalProof proofVerdict createExternalProof
  simp [outcome_bind]

theorem outcome_recordSettlement :
    outcome (recordSettlement p event) ledger = settlementVerdict p ledger event := by
  unfold recordSettlement settlementVerdict executeMarketplaceSettlement
  simp only [outcome_bind, outcome_lift, after_lift, outcome_reading, after_reading, bind_assoc]
  refine bind_congr fun input => bind_congr fun now => bind_congr fun settlement => ?_
  cases settlement with
  | error reason => rfl
  | ok settlement => simp [outcome_bind]

/-! ## Sellers -/

/-- The sellers after the activation of one was refreshed. -/
def refreshedSellers (sellerId : Option Json) (now : Number) : List Fields :=
  match refreshOf p ledger sellerId now with
  | .ok (some seller) =>
    updateFirst (isSeller sellerId) (fun _ => seller) (ledger.stores .marketplace_sellers)
  | _ => ledger.stores .marketplace_sellers

@[simp] theorem setStore_stores (s : Store) : ledger.setStore s (ledger.stores s) = ledger := by
  simp [Ledger.setStore]

@[simp] theorem outcome_refresh (sellerId : Option Json) (now : Number) :
    outcome (refreshSellerActivation p sellerId now) ledger = refreshOf p ledger sellerId now := by
  unfold refreshSellerActivation putSeller
  rw [outcome_bind, outcome_reading, after_reading]
  cases refreshOf p ledger sellerId now with
  | error e => rfl
  | ok seller => cases seller <;> rfl

@[simp] theorem after_refresh (sellerId : Option Json) (now : Number) :
    after (refreshSellerActivation p sellerId now) ledger =
      ledger.setStore .marketplace_sellers (refreshedSellers p ledger sellerId now) := by
  unfold refreshSellerActivation putSeller refreshedSellers
  rw [after_bind, outcome_reading, after_reading]
  cases refreshOf p ledger sellerId now with
  | error e => simp
  | ok seller => cases seller <;> simp [after_bind]

/-- Only the time can stop a refresh. -/
theorem refreshOf_ok {now : Number} {s : String} (h : toISOString p now = .ok s)
    (sellerId : Option Json) : ∃ seller, refreshOf p ledger sellerId now = .ok seller := by
  unfold refreshOf
  split
  · exact ⟨_, rfl⟩
  · rw [h]
    exact ⟨_, rfl⟩

theorem normalizeSeller_time {input seller : Fields} {now : Number}
    (h : normalizeSeller p input now = .ok seller) : ∃ s, toISOString p now = .ok s := by
  unfold normalizeSeller at h
  obtain ⟨displayName, _, h⟩ := bind_eq_ok.mp h
  obtain ⟨_, _, h⟩ := bind_eq_ok.mp h
  obtain ⟨identity, _, h⟩ := bind_eq_ok.mp h
  obtain ⟨slug, _, h⟩ := bind_eq_ok.mp h
  obtain ⟨contact, _, h⟩ := bind_eq_ok.mp h
  obtain ⟨payout_hint, _, h⟩ := bind_eq_ok.mp h
  dsimp only at h
  split at h
  all_goals
    obtain ⟨categories, _, h⟩ := bind_eq_ok.mp h
    obtain ⟨status, _, h⟩ := bind_eq_ok.mp h
    obtain ⟨created_at, _, h⟩ := bind_eq_ok.mp h
    obtain ⟨updated_at, htime, _⟩ := bind_eq_ok.mp h
    exact ⟨updated_at, htime⟩

theorem normalizeListing_time {input listing : Fields} {now : Number}
    (h : normalizeListing p input now = .ok listing) : ∃ s, toISOString p now = .ok s := by
  unfold normalizeListing at h
  obtain ⟨sellerId, _, h⟩ := bind_eq_ok.mp h
  obtain ⟨title, _, h⟩ := bind_eq_ok.mp h
  obtain ⟨_, _, h⟩ := bind_eq_ok.mp h
  obtain ⟨price, _, h⟩ := bind_eq_ok.mp h
  obtain ⟨currency, _, h⟩ := bind_eq_ok.mp h
  obtain ⟨description, _, h⟩ := bind_eq_ok.mp h
  obtain ⟨category, _, h⟩ := bind_eq_ok.mp h
  obtain ⟨delivery_mode, _, h⟩ := bind_eq_ok.mp h
  obtain ⟨status, _, h⟩ := bind_eq_ok.mp h
  obtain ⟨created_at, _, h⟩ := bind_eq_ok.mp h
  obtain ⟨updated_at, htime, _⟩ := bind_eq_ok.mp h
  exact ⟨updated_at, htime⟩

theorem refreshOf_time {sellerId : Option Json} {now : Number} {seller : Fields}
    (h : refreshOf p ledger sellerId now = .ok (some seller)) : ∃ s, toISOString p now = .ok s := by
  unfold refreshOf at h
  split at h
  · cases h
  · obtain ⟨checked_at, htime, _⟩ := bind_eq_ok.mp h
    exact ⟨checked_at, htime⟩

theorem outcome_recordSeller : outcome (recordSeller p event) ledger = sellerVerdict p event := by
  unfold recordSeller sellerVerdict upsertSeller
  simp only [outcome_bind, outcome_lift, after_lift]
  refine bind_congr fun input => bind_congr fun now => ?_
  cases hseller : normalizeSeller p input now with
  | error e => rfl
  | ok seller =>
    obtain ⟨_, htime⟩ := normalizeSeller_time p hseller
    obtain ⟨_, hrefresh⟩ := refreshOf_ok p
      (after (upsertByKey .marketplace_sellers "seller_id" seller) ledger) htime
      (seller.get "seller_id")
    rw [ok_bind, ok_bind, outcome_upsertByKey, ok_bind, outcome_refresh, hrefresh]
    rfl

theorem outcome_recordListing :
    outcome (recordListing p event) ledger = listingVerdict p ledger event := by
  unfold recordListing listingVerdict upsertListing
  simp only [outcome_bind, outcome_lift, after_lift, outcome_readStore, after_readStore]
  refine bind_congr fun input => bind_congr fun now => ?_
  cases hlisting : normalizeListing p input now with
  | error e => rfl
  | ok listing =>
    obtain ⟨_, htime⟩ := normalizeListing_time p hlisting
    obtain ⟨_, hrefresh⟩ := refreshOf_ok p
      (after (upsertByKey .marketplace_listings "listing_id" listing) ledger) htime
      (listing.get "seller_id")
    simp only [ok_bind]
    split
    · next h =>
      rw [h, outcome_bind, outcome_upsertByKey, ok_bind, outcome_bind, outcome_refresh, hrefresh]
      rfl
    · next h =>
      rw [Bool.not_eq_true] at h
      rw [h]
      rfl

theorem outcome_launchSeller :
    outcome (launchSeller p event) ledger = launchVerdict p ledger event := by
  unfold launchSeller launchVerdict activateSeller
  simp only [outcome_bind, outcome_lift, after_lift, outcome_refresh, after_refresh]
  refine bind_congr fun payload => bind_congr fun now => ?_
  cases hseller : refreshOf p ledger (payload.prop "seller_id") now with
  | error e => rfl
  | ok seller =>
    cases seller with
    | none => rfl
    | some seller =>
      obtain ⟨_, htime⟩ := refreshOf_time p ledger hseller
      simp only [ok_bind]
      cases strictEq (activationState seller) (some (.str "ready_to_launch")) with
      | false => rfl
      | true => simp [outcome_bind, htime, putSeller, throwUnless]

theorem outcome_admitAccount :
    outcome (admitAccount p event) ledger = admissionVerdict p event := by
  unfold admitAccount admissionVerdict
  simp only [outcome_bind, outcome_lift, after_lift, outcome_readAccount, after_readAccount]
  refine bind_congr fun admitted => ?_
  simp only [ok_bind]
  cases ledger.account admitted.1 <;> rfl

theorem outcome_applyTyped (t : LedgerEventType) :
    outcome (applyTyped p event t) ledger = applyVerdict p ledger event t := by
  cases t with
  | genesis => exact outcome_applyGenesis p ledger event
  | passkeyAdded => exact outcome_addPasskey p ledger event
  | nativeControllerBootstrapped => exact outcome_bootstrap p ledger event
  | controllerBindingProposed => exact outcome_propose ledger event
  | controllerBindingApproved => exact outcome_approve p ledger event
  | passkeyRevoked => exact outcome_revokePasskey p ledger event
  | transfer => rfl
  | capabilityGrantCreated | controlGrantCreated => exact outcome_grantControl p ledger event
  | controlGrantRevoked => exact outcome_revokeControl p ledger event
  | policyArtifactRecorded => exact outcome_recordPolicy p ledger event
  | authorizationCreated => exact outcome_authorize p ledger event
  | externalProofRecorded => exact outcome_recordExternalProof p ledger event
  | marketplaceSettlementRecorded => exact outcome_recordSettlement p ledger event
  | marketplaceSellerUpserted => exact outcome_recordSeller p ledger event
  | marketplaceListingUpserted => exact outcome_recordListing p ledger event
  | marketplaceSellerActivated => exact outcome_launchSeller p ledger event
  | accountProvenanceAdmission => exact outcome_admitAccount p ledger event

theorem outcome_projectRealmEvent :
    outcome (projectRealmEvent event) ledger = realmVerdict ledger event := by
  unfold outcome realmVerdict
  rw [projectRealmEvent_apply]
  cases projectionOf ledger.current_authority_state ledger.realm_canonical_sequence event <;> rfl

theorem outcome_handleEvent : outcome (handleEvent p event) ledger = verdict p ledger event := by
  unfold handleEvent verdict
  cases ledgerEventType event with
  | some t => exact outcome_applyTyped p ledger event t
  | none =>
    simp only [outcome_bind, outcome_lift, after_lift]
    cases hcanonical : Realm.isCanonicalRealmEvent event with
    | error e => unfold realmVerdict projectionOf; rw [hcanonical]; rfl
    | ok canonical =>
      cases canonical with
      | false => unfold realmVerdict projectionOf; rw [hcanonical]; rfl
      | true => exact outcome_projectRealmEvent ledger event

end

end SimpleL1.Node
