import SimpleL1.Node.Identity

/-!
# A revoked passkey

A revocation marks the key records and the bindings of a credential. The marks
stay under every later event that neither names the credential nor approves a
stored proposal that does.
-/

namespace SimpleL1.Node

open SimpleL1.Js SimpleL1.Lib SimpleL1.Lib.Effect

/-- The value is the credential `c`, as a text. -/
def Names (v : Option Json) (c : String) : Prop := truthy v ∧ toStr v = .ok c

/-- The key record has the credential `c`. -/
def HasCredential (key : Json) (c : String) : Prop :=
  Names (or (key.prop "credentialId") (key.prop "credential_id")) c

def IsRevoked (status : Option Json) : Prop := strictEq status (some (.str "revoked"))

/-- The entity has an account, and no key of it and no binding with the credential is active. -/
structure StaysRevoked (entityAddress c : String) (ledger : Ledger) : Prop where
  account : ∃ account, ledger.account entityAddress = some account ∧
    ∀ key ∈ keysOf account, HasCredential key c → IsRevoked (key.prop "status")
  bindings : ∀ binding ∈ ledger.stores .controller_bindings, isOthers entityAddress binding = false →
    Names (binding.get "credential_id") c → IsRevoked (binding.get "status")

/-- The event names no credential `c` in a key it adds, and approves no proposal that names it for
the entity. -/
def Spares (p : Platform) (entityAddress c : String) (ledger : Ledger) (event : Json) : Prop :=
  match ledgerEventType event with
  | some .genesis => ¬ Names (payloadField event "credentialId") c
  | some .passkeyAdded =>
    ¬ Names (or (payloadField event "credentialId") (payloadField event "credential_id")) c
  | some .controllerBindingApproved => ∀ proposal,
      approvedProposal event (ledger.stores .controller_binding_proposals) = .ok (some proposal) →
        normalizeEntityAddress p (proposal.get "entity_l1_address") = some entityAddress →
          ¬ Names (proposal.get "credential_id") c
  | _ => True

section
variable {p : Platform} {ledger : Ledger} {event : Json} {entityAddress c : String}

theorem not_names_none : ¬ Names none c := fun h => nomatch h.1

theorem names_orNull {v : Option Json} : Names (some (orNull v)) c ↔ Names v c := by
  cases v with
  | none => exact ⟨fun h => (nomatch h.1), fun h => (nomatch h.1)⟩
  | some v =>
    unfold orNull
    dsimp only
    split
    · exact Iff.rfl
    · next ht => exact ⟨fun h => (nomatch h.1), fun h => absurd h.1 ht⟩

theorem names_or_none {v : Option Json} : Names (or v none) c ↔ Names v c := by
  unfold Js.or
  split
  · exact Iff.rfl
  · next ht => exact ⟨fun h => (nomatch h.1), fun h => absurd h.1 ht⟩

theorem IsRecord.hasCredential {key : Json} {keyAddress : String} {credentialId : Option Json}
    (h : IsRecord key keyAddress credentialId) : HasCredential key c ↔ Names credentialId c := by
  unfold HasCredential
  rw [h.credentialId, h.credential_id]
  exact names_or_none

theorem mem_rebound {others : List Fields} {id : JsM String} {binding : String → Fields}
    {b : Fields} (h : b ∈ rebound others id binding) : b ∈ others ∨ ∃ id, b = binding id := by
  unfold rebound at h
  cases id with
  | error e => exact .inl h
  | ok id => exact (List.mem_append.mp h).imp_right fun h => ⟨id, List.mem_singleton.mp h⟩

theorem mem_replaced {bindings : List Fields} {a key : String} {id : JsM String}
    {binding : String → Fields} {b : Fields} (h : b ∈ replaced bindings a key id binding) :
    b ∈ bindings ∨ ∃ id, b = binding id := by
  unfold replaced at h
  cases hothers : Js.filter (isOtherController a key) bindings with
  | error e => rw [hothers] at h; exact .inl h
  | ok others =>
    rw [hothers] at h
    exact (mem_rebound h).imp_left (Js.mem_of_mem_filter hothers)

/-! ## One event -/

/-- The marks are there when the account and the bindings keep or gain no active record. -/
theorem StaysRevoked.step {l' : Ledger} (h : StaysRevoked entityAddress c ledger)
    (haccount : ∀ account, ledger.account entityAddress = some account →
      ∃ account', l'.account entityAddress = some account' ∧
        ∀ key ∈ keysOf account', key ∈ keysOf account ∨ ¬ HasCredential key c ∨
          IsRevoked (key.prop "status"))
    (hbindings : ∀ b ∈ l'.stores .controller_bindings, b ∈ ledger.stores .controller_bindings ∨
      (isOthers entityAddress b = false → Names (b.get "credential_id") c →
        IsRevoked (b.get "status"))) : StaysRevoked entityAddress c l' where
  account := by
    obtain ⟨account, hsome, hkeys⟩ := h.account
    obtain ⟨account', hsome', hkeys'⟩ := haccount account hsome
    refine ⟨account', hsome', fun key hkey hc => ?_⟩
    rcases hkeys' key hkey with hold | hno | hrevoked
    · exact hkeys key hold hc
    · exact absurd hc hno
    · exact hrevoked
  bindings b hb := (hbindings b hb).elim (h.bindings b) id

theorem StaysRevoked.congr {l' : Ledger} (h : StaysRevoked entityAddress c ledger)
    (haccount : l'.account entityAddress = ledger.account entityAddress)
    (hbindings : l'.stores .controller_bindings = ledger.stores .controller_bindings) :
    StaysRevoked entityAddress c l' := by
  obtain ⟨haccount', hbindings'⟩ := h
  exact ⟨haccount ▸ haccount', hbindings ▸ hbindings'⟩

/-- The account is replaced by one whose last key has another credential. -/
theorem keys_snoc {keys others : List Json} {record : Json} (hsub : ∀ key ∈ others, key ∈ keys)
    (hrecord : ¬ HasCredential record c) :
    ∀ key ∈ others ++ [record], key ∈ keys ∨ ¬ HasCredential key c ∨ IsRevoked (key.prop "status") := by
  intro key hkey
  rcases List.mem_append.mp hkey with hother | hlast
  · exact .inl (hsub key hother)
  · rw [List.mem_singleton.mp hlast]
    exact .inr (.inl hrecord)

theorem staysRevoked_genesis (h : StaysRevoked entityAddress c ledger)
    (hnames : ¬ Names (payloadField event "credentialId") c) :
    StaysRevoked entityAddress c (after (applyGenesis p event) ledger) := by
  cases hgenesis : genesisOf p event with
  | error e =>
    refine h.congr ?_ ?_
    · simp only [account_applyGenesis, hgenesis]
    · simp only [bindings_applyGenesis, hgenesis]
  | ok genesis =>
    have hgives := genesisOf_gives hgenesis
    rw [← hgives.credentialId] at hnames
    refine h.step (fun account haccount => ?_) fun b hb => ?_
    · simp only [account_applyGenesis, hgenesis]
      split
      · refine ⟨_, rfl, fun key hkey => ?_⟩
        obtain ⟨keyAddress, _, hrecord⟩ := hgives.keys key hkey
        exact .inr (.inl fun hc => hnames (hrecord.hasCredential.mp hc))
      · exact ⟨account, haccount, fun _ => .inl⟩
    · simp only [bindings_applyGenesis, hgenesis] at hb
      unfold genesisBindings at hb
      split at hb
      · exact .inl hb
      · split at hb
        · rcases mem_rebound hb with hother | ⟨id, rfl⟩
          · exact .inl (List.mem_of_mem_filter hother)
          · refine .inr fun _ hc => absurd ?_ hnames
            simpa [passkeyBinding] using hc
        · exact .inl hb

theorem staysRevoked_addPasskey (h : StaysRevoked entityAddress c ledger)
    (hnames : ¬ Names (or (payloadField event "credentialId") (payloadField event "credential_id")) c) :
    StaysRevoked entityAddress c (after (addPasskey p event) ledger) := by
  cases hadded : addedPasskey p ledger event with
  | error e =>
    refine h.congr ?_ ?_
    · simp only [account_addPasskey, hadded]
    · simp only [bindings_addPasskey, hadded]
  | ok added =>
    have hgives := addedPasskey_gives hadded
    obtain ⟨others, record, hothers, hkeys, hrecord⟩ := hgives.keys
    have hnew : ¬ Names (some added.credentialId) c := by rwa [hgives.credentialId, names_orNull]
    refine h.step (fun account haccount => ?_) fun b hb => ?_
    · simp only [account_addPasskey, hadded]
      split
      · next hentity =>
        subst hentity
        have hsame : added.account = account := Option.some.inj (hgives.account.symm.trans haccount)
        refine ⟨_, rfl, ?_⟩
        rw [keysOf_set, hkeys]
        rw [hsame] at hothers
        exact keys_snoc (fun _ => Js.mem_of_mem_filter hothers)
          fun hc => hnew (hrecord.hasCredential.mp hc)
      · exact ⟨account, haccount, fun _ => .inl⟩
    · simp only [bindings_addPasskey, hadded] at hb
      rcases mem_rebound hb with hother | ⟨id, rfl⟩
      · exact .inl (List.mem_of_mem_filter hother)
      · exact .inr fun _ hc => absurd (by simpa [passkeyBinding] using hc) hnew

theorem staysRevoked_bootstrap (h : StaysRevoked entityAddress c ledger) :
    StaysRevoked entityAddress c (after (bootstrapNativeController p event) ledger) := by
  cases hnative : nativeController p ledger event with
  | error e =>
    refine h.congr ?_ ?_
    · simp only [account_bootstrap, hnative]
    · simp only [bindings_bootstrap, hnative]
  | ok native =>
    obtain ⟨others, record, hothers, hkeys, hrecord⟩ := (nativeController_gives hnative).keys
    refine h.step (fun account haccount => ?_) fun b hb => ?_
    · simp only [account_bootstrap, hnative]
      split
      · next hentity =>
        subst hentity
        have hkeysOf : keysOf native.account = others ++ [record] := by
          unfold keysOf
          rw [hkeys]
        rw [haccount, Option.getD_some] at hothers
        refine ⟨_, rfl, ?_⟩
        rw [hkeysOf]
        exact keys_snoc (fun _ => Js.mem_of_mem_filter hothers)
          fun hc => not_names_none (hrecord.hasCredential.mp hc)
      · exact ⟨account, haccount, fun _ => .inl⟩
    · simp only [bindings_bootstrap, hnative] at hb
      refine (mem_replaced hb).imp_right ?_
      rintro ⟨id, rfl⟩ _ hc
      exact absurd (by simpa [nativeBinding] using hc) (not_names_none (c := c))

theorem staysRevoked_approve (h : StaysRevoked entityAddress c ledger)
    (hspares : ∀ proposal,
      approvedProposal event (ledger.stores .controller_binding_proposals) = .ok (some proposal) →
        normalizeEntityAddress p (proposal.get "entity_l1_address") = some entityAddress →
          ¬ Names (proposal.get "credential_id") c) :
    StaysRevoked entityAddress c (after (approveController p event) ledger) := by
  cases happroval : eventApproval p ledger event with
  | error e =>
    refine h.congr ?_ ?_
    · simp only [account_approve, happroval]
    · simp only [bindings_approve, happroval]
  | ok approval =>
    cases approval with
    | none =>
      refine h.congr ?_ ?_
      · simp only [account_approve, happroval]
      · simp only [bindings_approve, happroval]
    | some approval =>
      obtain ⟨hproposal, hgives⟩ := eventApproval_gives happroval
      have hnew (hentity : approval.entityAddress = entityAddress) :
          ¬ Names (some (orNull (approval.proposal.get "credential_id"))) c := by
        rw [names_orNull]
        exact hspares _ hproposal (hentity ▸ hgives.entity)
      obtain ⟨account₀, others, record, haccount₀, hothers, hset, hrecord⟩ := hgives.account
      refine h.step (fun account haccount => ?_) fun b hb => ?_
      · simp only [account_approve, happroval]
        split
        · next hentity =>
          have hsame : account₀ = account := by
            rw [hentity] at haccount₀
            exact Option.some.inj (haccount₀.symm.trans haccount)
          refine ⟨_, rfl, ?_⟩
          rw [hset, keysOf_set]
          rw [hsame] at hothers
          exact keys_snoc (fun _ => Js.mem_of_mem_filter hothers)
            fun hc => hnew hentity (hrecord.hasCredential.mp hc)
        · exact ⟨account, haccount, fun _ => .inl⟩
      · simp only [bindings_approve, happroval] at hb
        refine (mem_replaced hb).imp_right ?_
        rintro ⟨id, rfl⟩ hown hc
        have hentity : approval.entityAddress = entityAddress := by
          unfold isOthers at hown
          simpa [approvedBinding] using hown
        exact absurd (by simpa [approvedBinding] using hc) (hnew hentity)

/-! ## The revocation -/

theorem Names.strOrEmpty {v : Option Json} (h : Names v c) : strOrEmpty v = .ok c := by
  unfold Js.strOrEmpty Js.or
  rw [if_pos h.1]
  exact h.2

theorem HasCredential.keyCredential {key : Json} (h : HasCredential key c) :
    keyCredential key = .ok c := by
  have hmember : member (some key) "credentialId" = .ok (key.prop "credentialId") := by
    cases key with
    | null => exact absurd h not_names_none
    | _ => rfl
  unfold Node.keyCredential
  rw [hmember]
  exact h.2

theorem isRevoked_revoked (payload : Json) (record : Fields) :
    IsRevoked ((revoked event payload record).get "status") := by
  unfold revoked
  rw [Fields.get_set, if_neg (by decide), get_assign (by decide), Fields.get_set, if_pos rfl]
  rfl

/-- A key after a revocation is one of another credential, or revoked. -/
theorem mem_revokedKeys {payload : Json} {keys keys' : List Json}
    (h : revokedKeys event payload c keys = .ok keys') {key : Json} (hkey : key ∈ keys') :
    (key ∈ keys ∧ ¬ HasCredential key c) ∨ IsRevoked (key.prop "status") := by
  unfold revokedKeys at h
  induction keys generalizing keys' with
  | nil => cases h; cases hkey
  | cons k keys ih =>
    rw [List.mapM_cons] at h
    obtain ⟨k', hk', h⟩ := bind_eq_ok.mp h
    obtain ⟨rest, hrest, h⟩ := bind_eq_ok.mp h
    cases h
    rcases List.mem_cons.mp hkey with rfl | hkey
    · obtain ⟨theirs, htheirs, hk'⟩ := bind_eq_ok.mp hk'
      by_cases hne : theirs ≠ c
      · rw [if_pos hne] at hk'
        cases hk'
        refine .inl ⟨.head keys, fun hc => hne ?_⟩
        exact Except.ok.inj (htheirs.symm.trans hc.keyCredential)
      · rw [if_neg hne] at hk'
        cases hk'
        exact .inr (isRevoked_revoked payload _)
    · exact (ih hrest hkey).imp_left fun ⟨hmem, hno⟩ => ⟨.tail k hmem, hno⟩

/-- A binding after a revocation is one of another credential, or revoked. -/
theorem mem_revokedBindings {payload : Json} {bindings bindings' : List Fields}
    (h : revokedBindings event payload c bindings = .ok bindings') {b : Fields} (hb : b ∈ bindings') :
    (b ∈ bindings ∧ ¬ Names (b.get "credential_id") c) ∨ IsRevoked (b.get "status") := by
  obtain ⟨hread, rfl⟩ := revokedBindings_eq_ok.mp h
  obtain ⟨b₀, hb₀, rfl⟩ := List.mem_map.mp hb
  obtain ⟨theirs, htheirs⟩ := hread b₀ hb₀
  rw [marked_of_ok htheirs]
  by_cases hne : theirs ≠ c
  · rw [if_pos hne]
    refine .inl ⟨hb₀, fun hc => hne ?_⟩
    exact Except.ok.inj (htheirs.symm.trans hc.strOrEmpty)
  · rw [if_neg hne]
    exact .inr (isRevoked_revoked payload b₀)

theorem keysOf_set_of_ne {k : String} (hk : k ≠ "keys") (account : Fields) (v : Json) :
    keysOf (account.set k v) = keysOf account := by
  unfold keysOf
  rw [Fields.get_set, if_neg hk.symm]

theorem keysOf_revokedAccount (passkey : RevokedPasskey) (primary : String) :
    keysOf (revokedAccount passkey primary) = passkey.keys := by
  unfold revokedAccount
  dsimp only
  split
  · rw [keysOf_set_of_ne (by decide), keysOf_set]
  · exact keysOf_set _ _

/-- The account of the passkey has the keys of the revocation. -/
theorem account_after_revocation {passkey : RevokedPasskey}
    (hrevoked : revokedPasskey p ledger event = .ok passkey) :
    ∃ account, (after (revokePasskey p event) ledger).account passkey.entityAddress = some account ∧
      keysOf account = passkey.keys := by
  simp only [account_revokePasskey, hrevoked, if_true]
  cases primaryCredential passkey with
  | error e => exact ⟨_, rfl, keysOf_set _ _⟩
  | ok primary => exact ⟨_, rfl, keysOf_revokedAccount passkey primary⟩

theorem staysRevoked_revokePasskey (h : StaysRevoked entityAddress c ledger) :
    StaysRevoked entityAddress c (after (revokePasskey p event) ledger) := by
  cases hrevoked : revokedPasskey p ledger event with
  | error e =>
    refine h.congr ?_ ?_
    · simp only [account_revokePasskey, hrevoked]
    · simp only [bindings_revokePasskey, hrevoked]
  | ok passkey =>
    have hgives := revokedPasskey_gives hrevoked
    refine h.step (fun account haccount => ?_) fun b hb => ?_
    · by_cases hentity : passkey.entityAddress = entityAddress
      · subst hentity
        obtain ⟨account', hsome, hkeys⟩ := account_after_revocation hrevoked
        have hsame : passkey.account = account := Option.some.inj (hgives.account.symm.trans haccount)
        refine ⟨account', hsome, fun key hkey => ?_⟩
        rw [hkeys] at hkey
        rw [← hsame]
        exact (mem_revokedKeys hgives.keys hkey).imp And.left .inr
      · refine ⟨account, ?_, fun _ => .inl⟩
        simp only [account_revokePasskey, hrevoked, if_neg hentity, haccount]
    · simp only [bindings_revokePasskey, hrevoked] at hb
      split at hb
      · next hbindings => exact (mem_revokedBindings hbindings hb).imp And.left fun hr _ _ => hr
      · exact .inl hb

/-- After a revocation that passes, nothing of the credential is active. -/
theorem staysRevoked_of_revocation (htype : ledgerEventType event = some .passkeyRevoked)
    (hentity : normalizeEntityAddress p (payloadField event "entity_l1_address") = some entityAddress)
    (hcredential : textOfEither (payloadField event "credential_id")
      (payloadField event "credentialId") = .ok c) (hpass : verdict p ledger event = .ok ()) :
    StaysRevoked entityAddress c (after (revokePasskey p event) ledger) := by
  unfold verdict at hpass
  rw [htype] at hpass
  obtain ⟨passkey, hrevoked, hpass⟩ := bind_eq_ok.mp hpass
  obtain ⟨primary, hprimary, hpass⟩ := bind_eq_ok.mp hpass
  obtain ⟨bindings, hbindings, -⟩ := bind_eq_ok.mp hpass
  have hgives := revokedPasskey_gives hrevoked
  have hE : passkey.entityAddress = entityAddress := Option.some.inj (hgives.entity.symm.trans hentity)
  have hc : passkey.credentialId = c := Except.ok.inj (hgives.credentialId.symm.trans hcredential)
  subst hE hc
  constructor
  · obtain ⟨account, hsome, hkeys⟩ := account_after_revocation hrevoked
    refine ⟨account, hsome, fun key hkey hcred => ?_⟩
    rw [hkeys] at hkey
    exact (mem_revokedKeys hgives.keys hkey).resolve_left fun h => h.2 hcred
  · intro b hb _ hcred
    have hprimary' : primaryCredential passkey = .ok primary := hprimary
    simp only [bindings_revokePasskey, hrevoked, hprimary', hbindings] at hb
    exact (mem_revokedBindings hbindings hb).resolve_left fun h => h.2 hcred

/-! ## Every later event -/

/-- A handler that touches neither the account nor the bindings. -/
theorem staysRevoked_frame {C : Set Cell} {m : LedgerM Unit} (h : StaysRevoked entityAddress c ledger)
    (hm : LocalTo C m) (haccount : .account entityAddress ∉ C)
    (hbindings : .store .controller_bindings ∉ C) :
    StaysRevoked entityAddress c (after m ledger) :=
  h.congr (hm.frame ledger (.account entityAddress) haccount)
    (hm.frame ledger (.store .controller_bindings) hbindings)

theorem staysRevoked_admitAccount (h : StaysRevoked entityAddress c ledger) :
    StaysRevoked entityAddress c (after (admitAccount p event) ledger) := by
  refine h.congr ?_ ?_
  · obtain ⟨account, haccount, -⟩ := h.account
    rw [account_admitAccount]
    split
    · rw [haccount, Option.getD_some, ite_self]
    · rfl
  · exact (local_applyTyped p event .accountProvenanceAdmission).frame ledger
      (.store .controller_bindings) (by simp [footprint, entityCells])

theorem staysRevoked_handle (h : StaysRevoked entityAddress c ledger)
    (hspares : Spares p entityAddress c ledger event) :
    StaysRevoked entityAddress c (after (handleEvent p event) ledger) := by
  unfold Spares at hspares
  cases htype : ledgerEventType event with
  | none =>
    have hlocal := local_handleEvent p event
    unfold eventFootprint at hlocal
    rw [htype] at hlocal
    exact staysRevoked_frame h hlocal nofun nofun
  | some t =>
    rw [htype] at hspares
    unfold handleEvent
    rw [htype]
    cases t with
    | genesis => exact staysRevoked_genesis h hspares
    | passkeyAdded => exact staysRevoked_addPasskey h hspares
    | nativeControllerBootstrapped => exact staysRevoked_bootstrap h
    | controllerBindingApproved => exact staysRevoked_approve h hspares
    | passkeyRevoked => exact staysRevoked_revokePasskey h
    | accountProvenanceAdmission => exact staysRevoked_admitAccount h
    | _ =>
      refine staysRevoked_frame h (local_applyTyped p event _) ?_ ?_ <;>
        simp [footprint]

theorem staysRevoked_applyEvent (config : RealmConfig) (replay : Bool)
    (h : StaysRevoked entityAddress c ledger) (hspares : Spares p entityAddress c ledger event) :
    StaysRevoked entityAddress c (after (applyEvent p config event replay) ledger) := by
  cases hlog : logLine event with
  | error e => rwa [applyEvent_unlogged hlog]
  | ok _ =>
    exact (staysRevoked_handle h hspares).congr (account_applyEvent _ _ _ _ _ _ hlog)
      (stores_applyEvent _ _ _ _ _ hlog _)

end

/-- The ledgers that events which `ok` admits lead to, applied in any mode and whether they throw or
not. -/
inductive Applied (p : Platform) (config : RealmConfig) (ok : Ledger → Json → Prop) (l₀ : Ledger) :
    Ledger → Prop where
  | start : Applied p config ok l₀ l₀
  | step {l : Ledger} {event : Json} (replay : Bool) : Applied p config ok l₀ l → ok l event →
      Applied p config ok l₀ (after (applyEvent p config event replay) l)

theorem revoked_stays_revoked {p : Platform} {config : RealmConfig} {ledger l : Ledger}
    {revocation : Json} {entityAddress c : String} {replay : Bool}
    (htype : ledgerEventType revocation = some .passkeyRevoked)
    (hentity : normalizeEntityAddress p (payloadField revocation "entity_l1_address") =
      some entityAddress)
    (hcredential : textOfEither (payloadField revocation "credential_id")
      (payloadField revocation "credentialId") = .ok c)
    (hpass : Passes p ledger revocation)
    (hrun : Applied p config (Spares p entityAddress c)
      (after (applyEvent p config revocation replay) ledger) l) :
    StaysRevoked entityAddress c l := by
  induction hrun with
  | start =>
    have hhandled : StaysRevoked entityAddress c (after (handleEvent p revocation) ledger) := by
      unfold handleEvent
      rw [htype]
      exact staysRevoked_of_revocation htype hentity hcredential hpass.2
    exact hhandled.congr (account_applyEvent _ _ _ _ _ _ hpass.1)
      (stores_applyEvent _ _ _ _ _ hpass.1 _)
  | step replay _ hspares ih => exact staysRevoked_applyEvent config replay ih hspares

/-! ## A proposal from before -/

def aliceKey : String := "sl1_aaaaaaaaaaaaaaaaaaaaaaaaaaaaaaaaaaaaaaaa"

/-- A proposal for the passkey of Alice. -/
def oldProposal : Fields :=
  [("proposal_id", .str "cbp_1"), ("entity_l1_address", .str aliceAddress),
    ("proposed_controller_key_l1_address", .str aliceKey), ("credential_id", .str "cred_a"),
    ("status", .str "pending")]

/-- Alice has the passkey, and the proposal is stored. -/
def enrolledLedger : Ledger :=
  ((Ledger.fresh none ⟨none, [], none⟩).setAccount aliceAddress
    [("keys", .arr [.obj [("key_l1_address", .str aliceKey), ("credentialId", .str "cred_a"),
      ("status", .str "active")]])]).setStore .controller_binding_proposals [oldProposal]

def revocation : Json :=
  .obj [("id", .str "evt_1"), ("type", .str "PASSKEY_REVOKED"),
    ("payload", .obj [("entity_l1_address", .str aliceAddress), ("credential_id", .str "cred_a")])]

def revokedLedger : Ledger :=
  after (applyEvent plainPlatform primaryConfig revocation) enrolledLedger

theorem revocation_type : ledgerEventType revocation = some .passkeyRevoked :=
  ledgerEventType_of_name _ rfl

theorem revocation_passes : Passes plainPlatform enrolledLedger revocation := by
  refine ⟨rfl, ?_⟩
  unfold verdict
  rw [revocation_type]
  rfl

/-- A new proposal without a credential comes after the revocation. -/
theorem revoked_stays_revoked_proposal :
    StaysRevoked aliceAddress "cred_a"
      (after (applyEvent plainPlatform primaryConfig newProposal) revokedLedger) := by
  have hspares : Spares plainPlatform aliceAddress "cred_a" revokedLedger newProposal := by
    unfold Spares
    rw [ledgerEventType_of_name .controllerBindingProposed rfl]
    trivial
  exact revoked_stays_revoked revocation_type rfl rfl revocation_passes
    (.step false .start hspares)

def oldApproval : Json :=
  .obj [("id", .str "evt_2"), ("type", .str "CONTROLLER_BINDING_APPROVED"),
    ("payload", .obj [("proposal_id", .str "cbp_1")])]

/-- The approval of the stored proposal binds the revoked passkey again, and no other event comes
between. -/
theorem approval_revives :
    Passes plainPlatform enrolledLedger revocation ∧
      ledgerEventType oldApproval = some .controllerBindingApproved ∧
      ¬ StaysRevoked aliceAddress "cred_a"
        (after (applyEvent plainPlatform primaryConfig oldApproval) revokedLedger) := by
  refine ⟨revocation_passes, ledgerEventType_of_name _ rfl, fun h => ?_⟩
  obtain ⟨binding, hbindings, hown, hnames, hstatus⟩ : ∃ binding,
      (after (applyEvent plainPlatform primaryConfig oldApproval) revokedLedger).stores
        .controller_bindings = [binding] ∧ isOthers aliceAddress binding = false ∧
      Names (binding.get "credential_id") "cred_a" ∧
      binding.get "status" = some (.str "active") :=
    ⟨_, rfl, rfl, ⟨rfl, rfl⟩, rfl⟩
  have hrevoked := h.bindings binding (by simp [hbindings]) hown hnames
  rw [hstatus] at hrevoked
  cases hrevoked

end SimpleL1.Node
