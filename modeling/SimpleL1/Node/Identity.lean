import SimpleL1.Node.Keys

/-!
# Whose account an event changes

An event that creates an identity may meet one that is there already, and key
events of one entity stand in one table with those of all others.
-/

namespace SimpleL1.Node

open SimpleL1.Js SimpleL1.Lib SimpleL1.Lib.Effect

section
variable (p : Platform) (ledger : Ledger) (event : Json)

/-! ## Creating over an identity -/

/-- The entity a creating event names. -/
def createdEntity : Option String :=
  match ledgerEventType event with
  | some .genesis => normalizeEntityAddress p
      (or (payloadField event "entity_l1_address") (payloadField event "address"))
  | some .nativeControllerBootstrapped =>
    normalizeEntityAddress p (payloadField event "entity_l1_address")
  | some .accountProvenanceAdmission => normalizeEntityAddress p
      (or (payloadField event "account") (payloadField event "entity_l1_address"))
  | _ => none

/-- The key address the event brings, if it brings one. -/
def createdKey : Option String :=
  match ledgerEventType event with
  | some .genesis => ((payloadOf event >>= genesisKeyAddress p).toOption).join
  | some .nativeControllerBootstrapped =>
    normalizeKeyAddress p (payloadField event "key_l1_address")
  | _ => none

/-- The key records of the account with another key address. -/
def otherKeys (key : Option String) (account : Fields) : JsM (List Json) :=
  match account.get "keys", key with
  | some (.arr keys), some k => Js.filter (isOtherKey k) keys
  | some (.arr keys), none => return keys
  | _, _ => return []

/-- Balances, nonce and the records of other keys are the same. -/
structure SameHoldings (key : Option String) (account account' : Fields) : Prop where
  balances : account'.get "balances" = account.get "balances"
  nonce : account'.get "nonce" = account.get "nonce"
  keys : otherKeys key account' = otherKeys key account

/-- The event leaves what an existing account of its entity holds. -/
def KeepsIdentity (config : RealmConfig) (replay : Bool) : Prop :=
  ∀ a, createdEntity p event = some a → ∀ account, ledger.account a = some account →
    ∃ account', (after (applyEvent p config event replay) ledger).account a = some account' ∧
      SameHoldings (createdKey p event) account account'

/-- The account is as a `GENESIS` makes one, but for the records of the key `key`. -/
structure LikeNew (key : Option String) (account : Fields) : Prop where
  balances : account.get "balances" = some initialBalances
  nonce : account.get "nonce" = zero
  keys : otherKeys key account = .ok []

/-- The account has balances and a nonce of its own. -/
structure Filled (account : Fields) : Prop where
  balances : truthy (account.get "balances")
  nonce : truthy (account.get "nonce") ∨ account.get "nonce" = zero

/-- A `GENESIS` meets an account like new, a `NATIVE_CONTROLLER_BOOTSTRAPPED` a filled one, if they
come to write. -/
def NothingLost : Prop :=
  logLine event = .ok () →
    match ledgerEventType event with
    | some .genesis => ∀ genesis, genesisOf p event = .ok genesis →
        ∀ account, ledger.account genesis.entityAddress = some account →
          LikeNew genesis.keyAddress account
    | some .nativeControllerBootstrapped => ∀ native, nativeController p ledger event = .ok native →
        ∀ account, ledger.account native.entityAddress = some account → Filled account
    | _ => True

variable {p ledger event}

theorem sameHoldings_refl (key : Option String) (account : Fields) :
    SameHoldings key account account := ⟨rfl, rfl, rfl⟩

theorem otherKeys_some (key : String) (account : Fields) :
    otherKeys (some key) account = Js.filter (isOtherKey key) (keysOf account) := by
  unfold otherKeys keysOf
  cases account.get "keys" with
  | none => rfl
  | some v => cases v <;> rfl

theorem otherKeys_none (account : Fields) : otherKeys none account = .ok (keysOf account) := by
  unfold otherKeys keysOf
  cases account.get "keys" with
  | none => rfl
  | some v => cases v <;> rfl

theorem createdEntity_genesis {genesis : Genesis} (htype : ledgerEventType event = some .genesis)
    (h : GenesisGives p event genesis) :
    createdEntity p event = some genesis.entityAddress ∧ createdKey p event = genesis.keyAddress := by
  unfold createdEntity createdKey
  rw [htype]
  refine ⟨h.entity, ?_⟩
  dsimp only
  rw [h.key]
  rfl

theorem likeNew_genesis {genesis : Genesis} (h : GenesisGives p event genesis) :
    LikeNew genesis.keyAddress genesis.account where
  balances := h.balances
  nonce := h.nonce
  keys := by
    cases hkey : genesis.keyAddress with
    | none =>
      have hnil : keysOf genesis.account = [] := by
        rw [List.eq_nil_iff_forall_not_mem]
        intro key hmem
        obtain ⟨keyAddress, hsome, _⟩ := h.keys key hmem
        rw [hkey] at hsome
        cases hsome
      rw [otherKeys_none, hnil]
    | some k =>
      rw [otherKeys_some, Js.filter_eq (q := fun _ => false)]
      · simp
      · intro key hmem
        obtain ⟨keyAddress, hsome, hrecord⟩ := h.keys key hmem
        rw [hkey] at hsome
        cases hsome
        rw [hrecord.isOtherKey]
        simp

/-- The new record of the key is none of the others. -/
theorem filter_others {key : String} {keys others : List Json} {record : Json}
    {credentialId : Option Json} (hothers : Js.filter (isOtherKey key) keys = .ok others)
    (hrecord : IsRecord record key credentialId) :
    Js.filter (isOtherKey key) (others ++ [record]) = .ok others := by
  have hself : Js.filter (isOtherKey key) [record] = .ok [] := by
    rw [Js.filter, hrecord.isOtherKey]
    simp [Js.filter]
  rw [Js.filter_append (Js.filter_filter hothers) hself, List.append_nil]

theorem sameHoldings_native {native : NativeController} {account : Fields}
    (h : NativeGives p ledger event native) (haccount : ledger.account native.entityAddress = some account) :
    SameHoldings (some native.keyAddress) account native.account ↔ Filled account := by
  obtain ⟨others, record, hothers, hkeys, hrecord⟩ := h.keys
  have hbalances := h.balances
  have hnonce := h.nonce
  rw [haccount, Option.getD_some] at hothers hbalances hnonce
  have hsame : otherKeys (some native.keyAddress) native.account =
      otherKeys (some native.keyAddress) account := by
    have hkeysOf : keysOf native.account = others ++ [record] := by
      unfold keysOf
      rw [hkeys]
    rw [otherKeys_some, otherKeys_some, hothers, hkeysOf, filter_others hothers hrecord]
  have hfilled : native.account.get "balances" = account.get "balances" ↔
      truthy (account.get "balances") := by
    rw [hbalances]
    cases ht : truthy (account.get "balances") with
    | true => exact iff_of_true (orElse_of_truthy ht _) rfl
    | false =>
      refine iff_of_false (fun heq => ?_) nofun
      rw [orElse_of_falsy ht] at heq
      rw [← heq] at ht
      cases ht
  have hcounted : native.account.get "nonce" = account.get "nonce" ↔
      (truthy (account.get "nonce") ∨ account.get "nonce" = zero) := by
    rw [hnonce]
    cases ht : truthy (account.get "nonce") with
    | true => exact iff_of_true (orElse_of_truthy ht _) (.inl rfl)
    | false =>
      rw [orElse_of_falsy ht]
      refine ⟨fun heq => .inr heq.symm, fun hor => ?_⟩
      exact (hor.resolve_left nofun).symm
  exact ⟨fun hs => ⟨hfilled.mp hs.balances, hcounted.mp hs.nonce⟩,
    fun hf => ⟨hfilled.mpr hf.balances, hcounted.mpr hf.nonce, hsame⟩⟩

theorem sameHoldings_genesis {genesis : Genesis} {account : Fields}
    (h : GenesisGives p event genesis) :
    SameHoldings genesis.keyAddress account genesis.account ↔ LikeNew genesis.keyAddress account := by
  have hnew := likeNew_genesis h
  refine ⟨fun hs => ⟨?_, ?_, ?_⟩, fun hl => ⟨?_, ?_, ?_⟩⟩
  · exact hs.balances.symm.trans hnew.balances
  · exact hs.nonce.symm.trans hnew.nonce
  · exact hs.keys.symm.trans hnew.keys
  · exact hnew.balances.trans hl.balances.symm
  · exact hnew.nonce.trans hl.nonce.symm
  · exact hnew.keys.trans hl.keys.symm

variable (p ledger event)

theorem keepsIdentity_iff (config : RealmConfig) (replay : Bool) :
    KeepsIdentity p ledger event config replay ↔ NothingLost p ledger event := by
  unfold KeepsIdentity NothingLost
  cases hlog : logLine event with
  | error e =>
    refine iff_of_true (fun a _ account haccount => ?_) nofun
    rw [applyEvent_unlogged hlog]
    exact ⟨account, haccount, sameHoldings_refl _ _⟩
  | ok _ =>
    simp only [account_applyEvent p ledger event _ config replay hlog, forall_true_left]
    unfold handleEvent
    cases htype : ledgerEventType event with
    | none => exact iff_of_true (fun a h => by simp [createdEntity, htype] at h) trivial
    | some t =>
      cases t with
      | genesis =>
        simp only [applyTyped, account_applyGenesis]
        cases hgenesis : genesisOf p event with
        | error e =>
          exact iff_of_true (fun _ _ account h => ⟨account, h, sameHoldings_refl _ _⟩) nofun
        | ok genesis =>
          have hgives := genesisOf_gives hgenesis
          obtain ⟨hentity, hkey⟩ := createdEntity_genesis htype hgives
          simp only [hentity, hkey, Option.some.injEq, forall_eq', if_true, exists_eq_left',
            Except.ok.injEq, sameHoldings_genesis hgives]
      | nativeControllerBootstrapped =>
        simp only [applyTyped, account_bootstrap]
        cases hnative : nativeController p ledger event with
        | error e =>
          exact iff_of_true (fun _ _ account h => ⟨account, h, sameHoldings_refl _ _⟩) nofun
        | ok native =>
          have hgives := nativeController_gives hnative
          have hentity : createdEntity p event = some native.entityAddress := by
            simp only [createdEntity, htype, hgives.entity]
          have hkey : createdKey p event = some native.keyAddress := by
            simp only [createdKey, htype, hgives.key]
          simp only [hentity, hkey, Option.some.injEq, forall_eq', if_true, exists_eq_left',
            Except.ok.injEq]
          exact forall_congr' fun account =>
            forall_congr' fun haccount => sameHoldings_native hgives haccount
      | accountProvenanceAdmission =>
        simp only [applyTyped, account_admitAccount]
        refine iff_of_true (fun a _ account haccount => ⟨account, ?_, sameHoldings_refl _ _⟩) trivial
        split
        · split
          · rw [haccount, Option.getD_some]
          · exact haccount
        · exact haccount
      | _ => exact iff_of_true (fun a h => by simp [createdEntity, htype] at h) trivial

end

/-- An old `GENESIS` of Alice, sent again. -/
def secondGenesis : Json :=
  .obj [("id", .str "evt_2"), ("type", .str "GENESIS"),
    ("payload", .obj [("entity_l1_address", .str aliceAddress)])]

/-- Alice has used her account. -/
def usedLedger : Ledger :=
  (Ledger.fresh none ⟨none, [], none⟩).setAccount aliceAddress (admitted aliceAddress 7)

theorem genesis_starts_over :
    ¬ KeepsIdentity plainPlatform usedLedger secondGenesis primaryConfig false := by
  intro h
  have htype : ledgerEventType secondGenesis = some .genesis := ledgerEventType_of_name _ rfl
  obtain ⟨genesis, hgenesis⟩ : ∃ genesis, genesisOf plainPlatform secondGenesis = .ok genesis :=
    ⟨_, rfl⟩
  have hgives := genesisOf_gives hgenesis
  have hentity := (createdEntity_genesis htype hgives).1
  have haddress : createdEntity plainPlatform secondGenesis = some aliceAddress := by
    simp only [createdEntity, htype]
    rfl
  have hself : genesis.entityAddress = aliceAddress :=
    Option.some.inj (hentity.symm.trans haddress)
  obtain ⟨account', haccount', hsame⟩ := h aliceAddress haddress (admitted aliceAddress 7)
    (account_setAccount _ _ _)
  rw [account_applyEvent plainPlatform usedLedger secondGenesis _ primaryConfig false rfl]
    at haccount'
  unfold handleEvent at haccount'
  rw [htype] at haccount'
  simp only [applyTyped, account_applyGenesis, hgenesis, hself, if_true] at haccount'
  have hnonce := hsame.nonce
  rw [← Option.some.inj haccount', hgives.nonce] at hnonce
  cases hnonce

/-! ## The keys of other entities -/

section
variable (p : Platform) (ledger : Ledger) (event : Json)

/-- The entity a key event concerns, by its payload or by the proposal it approves. -/
def concernedEntity : Option String :=
  match ledgerEventType event with
  | some .genesis => normalizeEntityAddress p
      (or (payloadField event "entity_l1_address") (payloadField event "address"))
  | some .passkeyAdded | some .passkeyRevoked | some .nativeControllerBootstrapped =>
    normalizeEntityAddress p (payloadField event "entity_l1_address")
  | some .controllerBindingApproved =>
    match approvedProposal event (ledger.stores .controller_binding_proposals) with
    | .ok (some proposal) => normalizeEntityAddress p (proposal.get "entity_l1_address")
    | _ => none
  | _ => none

/-- The binding does not belong to the entity. -/
def isOthers (entityAddress : String) (binding : Fields) : Bool :=
  match strOrEmpty (binding.get "entity_l1_address") with
  | .ok entity => entity ≠ entityAddress
  | .error _ => true

/-- The event changes no other account, and leaves the bindings of others as they stand. -/
def KeepsOthers (config : RealmConfig) (replay : Bool) : Prop :=
  ∀ entityAddress, concernedEntity p ledger event = some entityAddress →
    let ledger' := after (applyEvent p config event replay) ledger
    (∀ a ≠ entityAddress, ledger'.account a = ledger.account a) ∧
      (ledger'.stores .controller_bindings).filter (isOthers entityAddress) =
        (ledger.stores .controller_bindings).filter (isOthers entityAddress)

/-- No binding of another entity has the credential. -/
def OwnCredential (bindings : List Fields) (entityAddress : String) (credentialId : Option Json) :
    Prop :=
  ∀ binding ∈ bindings, isOthers entityAddress binding →
    strictEq (binding.get "credential_id") credentialId = false

/-- The credential of the event belongs to nobody else, if the event comes to its bindings. -/
def NoneShared : Prop :=
  let bindings := ledger.stores .controller_bindings
  logLine event = .ok () →
    match ledgerEventType event with
    | some .genesis => ∀ genesis, genesisOf p event = .ok genesis → genesis.keyAddress.isSome →
        truthy genesis.credentialId → genesis.credentialPublicKey.truthy →
          OwnCredential bindings genesis.entityAddress genesis.credentialId
    | some .passkeyAdded => ∀ added, addedPasskey p ledger event = .ok added →
        OwnCredential bindings added.entityAddress (some added.credentialId)
    | some .passkeyRevoked => ∀ passkey, revokedPasskey p ledger event = .ok passkey →
        (∃ primary, primaryCredential passkey = .ok primary) →
        (∀ binding ∈ bindings, ∃ c, strOrEmpty (binding.get "credential_id") = .ok c) →
          ∀ binding ∈ bindings, isOthers passkey.entityAddress binding →
            strOrEmpty (binding.get "credential_id") = .ok passkey.credentialId →
              revoked event passkey.payload binding = binding
    | _ => True

variable {p ledger event}

/-- The binding under a revocation of the credential. -/
def marked (event payload : Json) (credentialId : String) (binding : Fields) : Fields :=
  match strOrEmpty (binding.get "credential_id") with
  | .ok c => if c = credentialId then revoked event payload binding else binding
  | .error _ => binding

theorem marked_of_ok {payload : Json} {credentialId c : String} {binding : Fields}
    (h : strOrEmpty (binding.get "credential_id") = .ok c) :
    marked event payload credentialId binding =
      if c ≠ credentialId then binding else revoked event payload binding := by
  unfold marked
  rw [h]
  by_cases hc : c = credentialId <;> simp [hc]

theorem revokedBindings_eq_ok {payload : Json} {credentialId : String}
    {bindings bindings' : List Fields} :
    revokedBindings event payload credentialId bindings = .ok bindings' ↔
      (∀ binding ∈ bindings, ∃ c, strOrEmpty (binding.get "credential_id") = .ok c) ∧
        bindings' = bindings.map (marked event payload credentialId) := by
  unfold revokedBindings
  induction bindings generalizing bindings' with
  | nil => simp [eq_comm]
  | cons binding bindings ih =>
    rw [List.mapM_cons, List.forall_mem_cons, List.map_cons]
    cases hc : strOrEmpty (binding.get "credential_id") with
    | error e => exact ⟨nofun, fun ⟨⟨⟨c, hc⟩, _⟩, _⟩ => nomatch hc⟩
    | ok c =>
      rw [ok_bind, pure_eq_ok, ok_bind, marked_of_ok hc]
      constructor
      · intro h
        obtain ⟨rest, hrest, h⟩ := bind_eq_ok.mp h
        cases h
        obtain ⟨hall, rfl⟩ := ih.mp hrest
        exact ⟨⟨⟨c, rfl⟩, hall⟩, rfl⟩
      · rintro ⟨⟨_, hall⟩, rfl⟩
        rw [ih.mpr ⟨hall, rfl⟩]
        rfl

theorem isOthers_of_get {entityAddress : String} {binding binding' : Fields}
    (h : binding'.get "entity_l1_address" = binding.get "entity_l1_address") :
    isOthers entityAddress binding' = isOthers entityAddress binding := by
  unfold isOthers
  rw [h]

theorem isOthers_own {entityAddress : String} {binding : Fields}
    (h : binding.get "entity_l1_address" = some (.str entityAddress)) :
    isOthers entityAddress binding = false := by
  unfold isOthers
  rw [h]
  simp

theorem get_assign {k k' : String} (h : k' ≠ k) (fs : Fields) (v : Option Json) :
    (assign fs k v).get k' = fs.get k' := by
  cases v with
  | some v => exact (Fields.get_set fs k k' v).trans (if_neg h)
  | none =>
    unfold assign
    induction fs with
    | nil => rfl
    | cons f fs ih =>
      obtain ⟨k₀, v⟩ := f
      dsimp only at ih ⊢
      by_cases hk : k₀ = k
      · subst hk
        rw [List.filter_cons, if_neg (by simp), ih, Fields.get_cons, if_neg h]
      · rw [List.filter_cons, if_pos (by simpa using hk), Fields.get_cons, Fields.get_cons, ih]

theorem isOthers_marked (entityAddress : String) (payload : Json) (credentialId : String)
    (binding : Fields) :
    isOthers entityAddress (marked event payload credentialId binding) =
      isOthers entityAddress binding := by
  unfold marked
  split
  · split
    · refine isOthers_of_get ?_
      unfold revoked
      rw [Fields.get_set, if_neg (by decide), get_assign (by decide), Fields.get_set,
        if_neg (by decide)]
    · rfl
  · rfl

/-- A binding of the entity itself is put behind the others. -/
theorem filter_rebound {entityAddress : String} {others : List Fields} {id : JsM String}
    {binding : String → Fields}
    (hown : ∀ id, (binding id).get "entity_l1_address" = some (.str entityAddress)) :
    (rebound others id binding).filter (isOthers entityAddress) =
      others.filter (isOthers entityAddress) := by
  unfold rebound
  cases id with
  | error e => rfl
  | ok id => simp [isOthers_own (hown id)]

/-- Only bindings of the entity itself are taken out. -/
theorem filter_replaced {entityAddress keyAddress : String} {bindings : List Fields}
    {id : JsM String} {binding : String → Fields}
    (hown : ∀ id, (binding id).get "entity_l1_address" = some (.str entityAddress)) :
    (replaced bindings entityAddress keyAddress id binding).filter (isOthers entityAddress) =
      bindings.filter (isOthers entityAddress) := by
  unfold replaced
  cases hothers : Js.filter (isOtherController entityAddress keyAddress) bindings with
  | error e => rfl
  | ok others =>
    dsimp only
    rw [filter_rebound hown]
    refine Js.filter_drops hothers fun b _ hdropped => ?_
    unfold isOtherController at hdropped
    obtain ⟨entity, hentity, hdropped⟩ := bind_eq_ok.mp hdropped
    split at hdropped
    · cases hdropped
    · next heq =>
      unfold isOthers
      rw [hentity]
      simpa using heq

theorem filter_withoutCredential {entityAddress : String} {credentialId : Option Json}
    {bindings : List Fields} :
    (withoutCredential credentialId bindings).filter (isOthers entityAddress) =
        bindings.filter (isOthers entityAddress) ↔
      OwnCredential bindings entityAddress credentialId := by
  unfold withoutCredential OwnCredential
  rw [List.filter_comm, List.filter_eq_self]
  simp only [List.mem_filter, and_imp, Bool.not_eq_true']

theorem filter_marked {entityAddress credentialId : String} {payload : Json}
    {bindings : List Fields} :
    (bindings.map (marked event payload credentialId)).filter (isOthers entityAddress) =
        bindings.filter (isOthers entityAddress) ↔
      ∀ binding ∈ bindings, isOthers entityAddress binding →
        strOrEmpty (binding.get "credential_id") = .ok credentialId →
          revoked event payload binding = binding := by
  have hmap (xs : List Fields) (f : Fields → Fields) : xs.map f = xs ↔ ∀ b ∈ xs, f b = b := by
    rw [← List.map_inj_left, List.map_id' xs]
  have hothers : isOthers entityAddress ∘ marked event payload credentialId = isOthers entityAddress :=
    funext (isOthers_marked entityAddress payload credentialId)
  rw [List.filter_map, hothers, hmap]
  simp only [List.mem_filter, and_imp]
  refine forall₃_congr fun binding _ _ => ?_
  unfold marked
  cases strOrEmpty (binding.get "credential_id") with
  | error e => simp
  | ok c => by_cases hc : c = credentialId <;> simp [hc]

variable (p ledger event)

/-- The bindings of others after a `GENESIS`. -/
theorem filter_genesisBindings (genesis : Genesis) (bindings : List Fields) :
    (genesisBindings p event genesis bindings).filter (isOthers genesis.entityAddress) =
        bindings.filter (isOthers genesis.entityAddress) ↔
      (genesis.keyAddress.isSome → truthy genesis.credentialId →
        genesis.credentialPublicKey.truthy →
          OwnCredential bindings genesis.entityAddress genesis.credentialId) := by
  unfold genesisBindings
  cases genesis.keyAddress with
  | none => simp
  | some keyAddress =>
    cases hcredential : truthy genesis.credentialId <;>
      cases hkey : genesis.credentialPublicKey.truthy <;> simp
    rw [filter_rebound fun id => by simp [passkeyBinding], filter_withoutCredential]

theorem filter_addedBindings (added : AddedPasskey) (bindings : List Fields) :
    (addedBindings p event added bindings).filter (isOthers added.entityAddress) =
        bindings.filter (isOthers added.entityAddress) ↔
      OwnCredential bindings added.entityAddress (some added.credentialId) := by
  unfold addedBindings
  rw [filter_rebound fun id => by simp [passkeyBinding], filter_withoutCredential]

variable {p ledger event} in
theorem concerned_approval {approval : Approval} {entityAddress : String}
    (htype : ledgerEventType event = some .controllerBindingApproved)
    (h : eventApproval p ledger event = .ok (some approval))
    (hentity : concernedEntity p ledger event = some entityAddress) :
    approval.entityAddress = entityAddress := by
  obtain ⟨hproposal, hgives⟩ := eventApproval_gives h
  simp only [concernedEntity, htype, hproposal] at hentity
  exact Option.some.inj (hgives.entity.symm.trans hentity)

theorem keepsOthers_iff (config : RealmConfig) (replay : Bool) :
    KeepsOthers p ledger event config replay ↔ NoneShared p ledger event := by
  unfold KeepsOthers NoneShared
  cases hlog : logLine event with
  | error e =>
    refine iff_of_true (fun E _ => ?_) nofun
    rw [applyEvent_unlogged hlog]
    exact ⟨fun _ _ => rfl, rfl⟩
  | ok _ =>
    simp only [account_applyEvent p ledger event _ config replay hlog,
      stores_applyEvent p ledger event config replay hlog, forall_true_left]
    unfold handleEvent
    cases htype : ledgerEventType event with
    | none => exact iff_of_true (fun E h => by simp [concernedEntity, htype] at h) trivial
    | some t =>
      cases t with
      | genesis =>
        simp only [applyTyped, account_applyGenesis, bindings_applyGenesis]
        cases hgenesis : genesisOf p event with
        | error e => exact iff_of_true (fun _ _ => ⟨fun _ _ => rfl, rfl⟩) nofun
        | ok genesis =>
          have hentity : concernedEntity p ledger event = some genesis.entityAddress := by
            simp only [concernedEntity, htype, (genesisOf_gives hgenesis).entity]
          simp only [hentity, Option.some.injEq, forall_eq', Except.ok.injEq]
          rw [filter_genesisBindings]
          exact and_iff_right fun a ha => if_neg (Ne.symm ha)
      | passkeyAdded =>
        simp only [applyTyped, account_addPasskey, bindings_addPasskey]
        cases hadded : addedPasskey p ledger event with
        | error e => exact iff_of_true (fun _ _ => ⟨fun _ _ => rfl, rfl⟩) nofun
        | ok added =>
          have hentity : concernedEntity p ledger event = some added.entityAddress := by
            simp only [concernedEntity, htype, (addedPasskey_gives hadded).entity]
          simp only [hentity, Option.some.injEq, forall_eq', Except.ok.injEq]
          rw [filter_addedBindings]
          exact and_iff_right fun a ha => if_neg (Ne.symm ha)
      | nativeControllerBootstrapped =>
        simp only [applyTyped, account_bootstrap, bindings_bootstrap]
        refine iff_of_true (fun E hE => ?_) trivial
        cases hnative : nativeController p ledger event with
        | error e => exact ⟨fun _ _ => rfl, rfl⟩
        | ok native =>
          simp only [concernedEntity, htype, (nativeController_gives hnative).entity,
            Option.some.injEq] at hE
          subst hE
          exact ⟨fun a ha => if_neg (Ne.symm ha), filter_replaced fun id => by simp [nativeBinding]⟩
      | controllerBindingApproved =>
        simp only [applyTyped, account_approve, bindings_approve]
        refine iff_of_true (fun E hE => ?_) trivial
        cases happroval : eventApproval p ledger event with
        | error e => exact ⟨fun _ _ => rfl, rfl⟩
        | ok approval =>
          cases approval with
          | none => exact ⟨fun _ _ => rfl, rfl⟩
          | some approval =>
            have hentity : approval.entityAddress = E := concerned_approval htype happroval hE
            subst hentity
            exact ⟨fun a ha => if_neg (Ne.symm ha),
              filter_replaced fun id => by simp [approvedBinding]⟩
      | passkeyRevoked =>
        simp only [applyTyped, account_revokePasskey, bindings_revokePasskey]
        cases hrevoked : revokedPasskey p ledger event with
        | error e => exact iff_of_true (fun _ _ => ⟨fun _ _ => rfl, rfl⟩) nofun
        | ok passkey =>
          have hentity : concernedEntity p ledger event = some passkey.entityAddress := by
            simp only [concernedEntity, htype, (revokedPasskey_gives hrevoked).entity]
          simp only [hentity, Option.some.injEq, forall_eq', Except.ok.injEq]
          refine (and_iff_right fun a ha => if_neg (Ne.symm ha)).trans ?_
          cases hprimary : primaryCredential passkey with
          | error e => exact iff_of_true rfl fun ⟨_, h⟩ => nomatch h
          | ok primary =>
            by_cases hread : ∀ binding ∈ ledger.stores .controller_bindings,
                ∃ c, strOrEmpty (binding.get "credential_id") = .ok c
            · rw [revokedBindings_eq_ok.mpr ⟨hread, rfl⟩]
              simp only [filter_marked, Except.ok.injEq, exists_eq', forall_true_left]
              exact ⟨fun h _ => h, fun h => h hread⟩
            · cases hbindings : revokedBindings event passkey.payload passkey.credentialId
                  (ledger.stores .controller_bindings) with
              | ok bindings => exact absurd (revokedBindings_eq_ok.mp hbindings).1 hread
              | error e => exact iff_of_true rfl fun _ h => absurd h hread
      | _ => exact iff_of_true (fun E h => by simp [concernedEntity, htype] at h) trivial

end

/-- A `GENESIS` of Bob with the credential of Alice. -/
def stolenCredential : Json :=
  .obj [("id", .str "evt_2"), ("type", .str "GENESIS"),
    ("payload", .obj [("entity_l1_address", .str bobAddress), ("credentialId", .str "cred_a"),
      ("publicKey", .str "pk"), ("credentialPublicKey", .str "pk")])]

def aliceBinding : Fields :=
  [("entity_l1_address", .str aliceAddress), ("credential_id", .str "cred_a"),
    ("status", .str "active")]

def boundLedger : Ledger :=
  (Ledger.fresh none ⟨none, [], none⟩).setStore .controller_bindings [aliceBinding]

theorem genesis_takes_credential :
    ¬ KeepsOthers plainPlatform boundLedger stolenCredential primaryConfig false := by
  intro h
  have htype : ledgerEventType stolenCredential = some .genesis := ledgerEventType_of_name _ rfl
  obtain ⟨genesis, hgenesis, hkey, hcredential, hpublic, hid⟩ :
      ∃ genesis, genesisOf plainPlatform stolenCredential = .ok genesis ∧
        genesis.keyAddress.isSome ∧ truthy genesis.credentialId ∧
        genesis.credentialPublicKey.truthy ∧ genesis.credentialId = some (.str "cred_a") :=
    ⟨_, rfl, rfl, rfl, rfl, rfl⟩
  have hentity := (genesisOf_gives hgenesis).entity
  have hbob : genesis.entityAddress = bobAddress := Option.some.inj (hentity.symm.trans rfl)
  have hconcerned : concernedEntity plainPlatform boundLedger stolenCredential =
      some genesis.entityAddress := by
    simp only [concernedEntity, htype, hentity]
  have hkept := (h genesis.entityAddress hconcerned).2
  rw [stores_applyEvent plainPlatform boundLedger stolenCredential primaryConfig false rfl] at hkept
  unfold handleEvent at hkept
  rw [htype] at hkept
  simp only [applyTyped, bindings_applyGenesis, hgenesis] at hkept
  have hown := (filter_genesisBindings plainPlatform stolenCredential genesis _).mp hkept
    hkey hcredential hpublic aliceBinding (by simp [boundLedger])
  rw [hbob, hid] at hown
  cases hown rfl

end SimpleL1.Node
