import SimpleL1.Node.ApprovalRuns
import SimpleL1.Node.Resolution

/-!
# Revoked credentials

A credential is looked up in the controller bindings first, where only an active
binding counts, and then in the account of the entity, where a status is not
asked for. A credential whose bindings are all revoked therefore approves again
when the account, or one of its keys, still bears it.
-/

namespace SimpleL1.Node

open SimpleL1.Js SimpleL1.Lib SimpleL1.Lib.Effect

/-! ## The two sources of a binding -/

/-- The binding is for the credential. -/
def IsFor (credentialId : String) (binding : Fields) : Prop :=
  binding.get "credential_id" = some (.str credentialId)

/-- What `String` makes of the status of a binding; a binding without one is active. -/
def bindingStatus (binding : Fields) : JsM String :=
  toStr (or (binding.get "status") (some (.str "active")))

/-- The credential has bindings, and none of them is active. -/
structure Revoked (ledger : Ledger) (credentialId : String) : Prop where
  bound : ∃ binding ∈ ledger.stores .controller_bindings, IsFor credentialId binding
  inactive : ∀ binding ∈ ledger.stores .controller_bindings, IsFor credentialId binding →
    bindingStatus binding ≠ .ok "active"

def bearsCredential (credentialId : String) (candidate : Json) : Bool :=
  strictEq (candidate.prop "credentialId") (some (.str credentialId))
    || strictEq (candidate.prop "credential_id") (some (.str credentialId))

/-- Of the account of the entity and its keys, `key` is the first that bears the credential. -/
structure BornBy (ledger : Ledger) (entityAddress credentialId : String) (account : Fields) (key : Json) :
    Prop where
  stored : ledger.account entityAddress = some account
  first : ∃ keys, elementsOf (account.get "keys") = .ok keys ∧
    ((.obj account :: keys).filter Json.truthy).find? (bearsCredential credentialId) = some key

/-- The binding made of a record of an account. -/
def accountBinding (entityAddress : String) (account : Fields) (key : Json) : CredentialBinding :=
  ⟨some (.str entityAddress), or (key.prop "key_l1_address") (account.get "key_l1_address"),
    or (key.prop "credentialId") (key.prop "credential_id"),
    some (orNull (or (key.prop "rp_id") (account.get "rp_id")))⟩

/-- The account of the entity speaks for the credential of the request. -/
structure AccountVouches (p : Platform) (ledger : Ledger) (r : ApprovalRequest) : Prop where
  named : r.credentialId ≠ ""
  /-- No binding is in the way of the lookup: `String` of a status may throw. -/
  legible : ∀ binding ∈ ledger.stores .controller_bindings, IsFor r.credentialId binding →
    ∃ status, bindingStatus binding = .ok status
  record : ∃ account key, BornBy ledger r.entityAddress r.credentialId account key ∧
    normalizeKeyAddress p (accountBinding r.entityAddress account key).controller_l1_address
      = some r.controllerAddress ∧
    (r.rpId ≠ "" → truthy (accountBinding r.entityAddress account key).rp_id = true →
      toStr (accountBinding r.entityAddress account key).rp_id = .ok r.rpId)

/-- What `createIntentApproval` asks of a request beside its credential. -/
structure InOrder (p : Platform) (s : ApprovalState) (input : Fields) (now : Number) (r : ApprovalRequest) :
    Prop where
  read : readApprovalRequest p input = .ok r
  entity : r.intent.get "entity_l1_address" = some (.str r.entityAddress)
  timely : ∃ expires, newDate p (r.intent.get "expires_at") = .ok expires ∧ expires.le now = false
  challenge : r.assertionChallenge = challengeForIntent p r.intent
  fresh : r.replayKey p ∉ s.intent_approval_replay_keys
  dated : ∃ issuedAt, orNow p (input.get "issued_at") now = .ok issuedAt

section
variable {p : Platform} {ledger : Ledger} {s : ApprovalState} {input : Fields} {now : Number}
  {entityAddress credentialId : String} {r : ApprovalRequest}

/-! ## Looking a revoked credential up -/

theorem find_eq_some {α : Type} {q : α → JsM Bool} {xs : List α} {x : α}
    (h : Js.find q xs = .ok (some x)) : x ∈ xs ∧ q x = .ok true := by
  induction xs with
  | nil => cases h
  | cons y xs ih =>
    obtain ⟨b, hb, h⟩ := bind_eq_ok.mp h
    cases b with
    | true =>
      cases h
      exact ⟨List.mem_cons_self, hb⟩
    | false =>
      obtain ⟨hmem, hq⟩ := ih h
      exact ⟨List.mem_cons_of_mem y hmem, hq⟩

/-- The condition `findCredentialBinding` looks for in the bindings. -/
def isActiveFor (credentialId : String) (binding : Fields) : JsM Bool :=
  if strictEq (binding.get "credential_id") (some (.str credentialId)) then
    (· == "active") <$> bindingStatus binding
  else pure false

theorem isActiveFor_of_isFor {binding : Fields} (h : IsFor credentialId binding) :
    isActiveFor credentialId binding = (· == "active") <$> bindingStatus binding :=
  if_pos (strictEq_str_iff.mpr h)

theorem isActiveFor_of_other {binding : Fields} (h : ¬ IsFor credentialId binding) :
    isActiveFor credentialId binding = .ok false :=
  if_neg fun hfor => h (strictEq_str_iff.mp hfor)

/-- No binding of a revoked credential is found. -/
theorem find_eq_none_of_revoked (h : Revoked ledger credentialId) {found : Option Fields}
    (hfind : Js.find (isActiveFor credentialId) (ledger.stores .controller_bindings) = .ok found) :
    found = none := by
  cases found with
  | none => rfl
  | some binding =>
    obtain ⟨hmem, hactive⟩ := find_eq_some hfind
    by_cases hfor : IsFor credentialId binding
    · rw [isActiveFor_of_isFor hfor] at hactive
      obtain ⟨status, hstatus, heq⟩ := map_eq_ok.mp hactive
      have hnot := h.inactive binding hmem hfor
      rw [hstatus, eq_of_beq heq] at hnot
      exact absurd rfl hnot
    · rw [isActiveFor_of_other hfor] at hactive
      cases hactive

/-- The search through the bindings of a revoked credential ends if and only if their statuses can
all be read. -/
theorem find_ok_iff_of_revoked (h : Revoked ledger credentialId) :
    Js.find (isActiveFor credentialId) (ledger.stores .controller_bindings) = .ok none ↔
      ∀ binding ∈ ledger.stores .controller_bindings, IsFor credentialId binding →
        ∃ status, bindingStatus binding = .ok status := by
  constructor
  · intro hfind binding hmem hfor
    have hfalse := find_eq_none hfind binding hmem
    rw [isActiveFor_of_isFor hfor] at hfalse
    obtain ⟨status, hstatus, -⟩ := map_eq_ok.mp hfalse
    exact ⟨status, hstatus⟩
  · intro hlegible
    have hfalse : ∀ binding ∈ ledger.stores .controller_bindings,
        isActiveFor credentialId binding = .ok false := by
      intro binding hmem
      by_cases hfor : IsFor credentialId binding
      · obtain ⟨status, hstatus⟩ := hlegible binding hmem hfor
        have hnot : status ≠ "active" := by
          rintro rfl
          exact h.inactive binding hmem hfor hstatus
        rw [isActiveFor_of_isFor hfor, hstatus]
        exact congrArg Except.ok (beq_eq_false_iff_ne.mpr hnot)
      · exact isActiveFor_of_other hfor
    rw [find_eq hfalse, List.find?_eq_none.mpr (by simp)]

/-- The lookup in the account of the entity. -/
def bindingByAccount (ledger : Ledger) (entityAddress credentialId : String) :
    JsM (Option CredentialBinding) :=
  match ledger.account entityAddress with
  | none => return none
  | some account => do
    let keys ← elementsOf (account.get "keys")
    return (((.obj account :: keys).filter Json.truthy).find? (bearsCredential credentialId)).map
      (accountBinding entityAddress account)

theorem bindingByAccount_eq_some {binding : CredentialBinding} :
    bindingByAccount ledger entityAddress credentialId = .ok (some binding) ↔
      ∃ account key, BornBy ledger entityAddress credentialId account key ∧
        binding = accountBinding entityAddress account key := by
  unfold bindingByAccount
  constructor
  · intro h
    cases haccount : ledger.account entityAddress with
    | none =>
      rw [haccount] at h
      cases h
    | some account =>
      rw [haccount] at h
      obtain ⟨keys, hkeys, h⟩ := bind_eq_ok.mp h
      obtain ⟨key, hkey, rfl⟩ := Option.map_eq_some_iff.mp (Except.ok.inj h)
      exact ⟨account, key, ⟨haccount, keys, hkeys, hkey⟩, rfl⟩
  · rintro ⟨account, key, ⟨haccount, keys, hkeys, hkey⟩, rfl⟩
    rw [haccount]
    refine bind_eq_ok.mpr ⟨keys, hkeys, ?_⟩
    rw [hkey]
    rfl

/-- A binding that is found in the bindings goes before the account. -/
theorem findCredentialBinding_of_find {found : Option Fields}
    (hfind : Js.find (isActiveFor credentialId) (ledger.stores .controller_bindings) = .ok found) :
    findCredentialBinding ledger entityAddress credentialId = match found with
      | some binding => .ok (some ⟨binding.get "entity_l1_address",
          or (binding.get "controller_l1_address") (binding.get "key_l1_address"),
          binding.get "credential_id", binding.get "rp_id"⟩)
      | none => bindingByAccount ledger entityAddress credentialId := by
  unfold findCredentialBinding
  refine (congrArg (· >>= _) hfind).trans ?_
  cases found with
  | some binding => rfl
  | none =>
    unfold bindingByAccount
    cases ledger.account entityAddress with
    | none => rfl
    | some account =>
      show elementsOf (account.get "keys") >>= _ = elementsOf (account.get "keys") >>= _
      congr 1
      funext keys
      have hsame : (fun candidate : Json => strictEq (candidate.prop "credentialId") (some (.str credentialId))
          || strictEq (candidate.prop "credential_id") (some (.str credentialId))) = bearsCredential credentialId := rfl
      dsimp only
      rw [hsame]
      cases ((.obj account :: keys).filter Json.truthy).find? (bearsCredential credentialId) <;> rfl

/-- A revoked credential is bound by the account alone. -/
theorem findCredentialBinding_of_revoked (h : Revoked ledger credentialId) {binding : CredentialBinding} :
    findCredentialBinding ledger entityAddress credentialId = .ok (some binding) ↔
      (∀ binding ∈ ledger.stores .controller_bindings, IsFor credentialId binding →
        ∃ status, bindingStatus binding = .ok status) ∧
      ∃ account key, BornBy ledger entityAddress credentialId account key ∧
        binding = accountBinding entityAddress account key := by
  rw [← find_ok_iff_of_revoked h, ← bindingByAccount_eq_some]
  constructor
  · intro hgives
    cases hfind : Js.find (isActiveFor credentialId) (ledger.stores .controller_bindings) with
    | error e =>
      unfold findCredentialBinding at hgives
      obtain ⟨found, hfound, -⟩ := bind_eq_ok.mp hgives
      exact absurd (hfind.symm.trans hfound) nofun
    | ok found =>
      have hnone := find_eq_none_of_revoked h hfind
      subst hnone
      rw [findCredentialBinding_of_find hfind] at hgives
      exact ⟨rfl, hgives⟩
  · rintro ⟨hfind, hgives⟩
    rw [findCredentialBinding_of_find hfind]
    exact hgives

/-! ## Requests by a revoked credential -/

/-- Whether the relying party of the binding is another than the one asked for. -/
def otherParty (rpId : Option Json) (asked : String) : JsM Bool :=
  if asked ≠ "" && truthy rpId then (· != asked) <$> toStr rpId else pure false

theorem otherParty_eq_false_iff {rpId : Option Json} {asked : String} :
    otherParty rpId asked = .ok false ↔
      (asked ≠ "" → truthy rpId = true → toStr rpId = .ok asked) := by
  unfold otherParty
  by_cases hasked : (asked ≠ "" && truthy rpId) = true
  · have hboth : asked ≠ "" ∧ truthy rpId = true := by simpa using hasked
    rw [if_pos hasked, map_eq_ok]
    constructor
    · rintro ⟨text, htext, hsame⟩ - -
      have heq : text = asked := by simpa using hsame
      rw [htext, heq]
    · intro h
      exact ⟨asked, h hboth.1 hboth.2, by simp⟩
  · rw [if_neg hasked]
    refine iff_of_true rfl fun hnamed htruthy => absurd ?_ hasked
    simp [hnamed, htruthy]

/-- What is held against a binding that was found. -/
theorem credentialReasons_of_found {controllerAddress rpId : String} {binding : CredentialBinding}
    (hnamed : credentialId ≠ "")
    (hfound : findCredentialBinding ledger entityAddress credentialId = .ok (some binding)) :
    credentialReasons p ledger entityAddress controllerAddress credentialId rpId
      = otherParty binding.rp_id rpId >>= fun differs => .ok
        ((if normalizeEntityAddress p binding.entity_l1_address == some entityAddress then []
            else ["CREDENTIAL_ENTITY_MISMATCH"])
          ++ (if normalizeKeyAddress p binding.controller_l1_address == some controllerAddress then []
            else ["CREDENTIAL_CONTROLLER_MISMATCH"])
          ++ if differs then ["CREDENTIAL_RP_ID_MISMATCH"] else []) := by
  unfold credentialReasons otherParty
  rw [if_neg hnamed, hfound, ok_bind]
  dsimp only
  split <;> rfl

/-- A request by a revoked credential passes the check of its binding if and only if the account
vouches for it. -/
theorem credentialReasons_nil_iff (h : Revoked ledger r.credentialId)
    (hentity : normalizeEntityAddress p (some (.str r.entityAddress)) = some r.entityAddress) :
    credentialReasons p ledger r.entityAddress r.controllerAddress r.credentialId r.rpId = .ok [] ↔
      AccountVouches p ledger r := by
  constructor
  · intro hnil
    have hnamed : r.credentialId ≠ "" := by
      intro hempty
      rw [credentialReasons, if_pos hempty] at hnil
      cases hnil
    have hfound : ∃ binding, findCredentialBinding ledger r.entityAddress r.credentialId
        = .ok (some binding) := by
      rw [credentialReasons, if_neg hnamed] at hnil
      obtain ⟨found, hfound, hnil⟩ := bind_eq_ok.mp hnil
      cases found with
      | none => cases hnil
      | some binding => exact ⟨binding, hfound⟩
    obtain ⟨binding, hfound⟩ := hfound
    rw [credentialReasons_of_found hnamed hfound] at hnil
    obtain ⟨hlegible, account, key, hborn, rfl⟩ := (findCredentialBinding_of_revoked h).mp hfound
    obtain ⟨differs, hdiffers, hnil⟩ := bind_eq_ok.mp hnil
    obtain ⟨hcodes, hsame⟩ := List.append_eq_nil_iff.mp (Except.ok.inj hnil)
    obtain ⟨-, hcontroller⟩ := List.append_eq_nil_iff.mp hcodes
    have hfalse : differs = false := by simpa using hsame
    subst hfalse
    exact ⟨hnamed, hlegible, account, key, hborn, by simpa using hcontroller,
      otherParty_eq_false_iff.mp hdiffers⟩
  · rintro ⟨hnamed, hlegible, account, key, hborn, hcontroller, hrelying⟩
    have hfound := (findCredentialBinding_of_revoked h).mpr ⟨hlegible, account, key, hborn, rfl⟩
    have hself : (accountBinding r.entityAddress account key).entity_l1_address
        = some (.str r.entityAddress) := rfl
    rw [credentialReasons_of_found hnamed hfound, otherParty_eq_false_iff.mpr hrelying, hself, hentity,
      hcontroller]
    simp

theorem entity_of_read (h : readApprovalRequest p input = .ok r) :
    normalizeEntityAddress p (some (.str r.entityAddress)) = some r.entityAddress := by
  unfold readApprovalRequest at h
  obtain ⟨intent, -, h⟩ := bind_eq_ok.mp h
  obtain ⟨entityAddress, hentity, h⟩ := bind_eq_ok.mp h
  obtain ⟨controllerAddress, -, h⟩ := bind_eq_ok.mp h
  obtain ⟨credentialId, -, h⟩ := bind_eq_ok.mp h
  obtain ⟨rpId, -, h⟩ := bind_eq_ok.mp h
  obtain ⟨challenge, -, h⟩ := bind_eq_ok.mp h
  cases h
  exact normalizeEntityAddress_idem (assertEntityAddress_eq_ok.mp hentity)

theorem credentialId_of_read (h : readApprovalRequest p input = .ok r) :
    strOrEmpty (input.get "credential_id") = .ok r.credentialId := by
  unfold readApprovalRequest at h
  obtain ⟨intent, -, h⟩ := bind_eq_ok.mp h
  obtain ⟨entityAddress, -, h⟩ := bind_eq_ok.mp h
  obtain ⟨controllerAddress, -, h⟩ := bind_eq_ok.mp h
  obtain ⟨credentialId, hcredential, h⟩ := bind_eq_ok.mp h
  obtain ⟨rpId, -, h⟩ := bind_eq_ok.mp h
  obtain ⟨challenge, -, h⟩ := bind_eq_ok.mp h
  cases h
  exact hcredential

/-- An approval is made of a request in order whose credential nothing is held against. -/
theorem newApproval_ok_iff :
    (∃ made, newApproval p s input now = .ok made) ↔ ∃ r, InOrder p s input now r ∧
      credentialReasons p s.ledger r.entityAddress r.controllerAddress r.credentialId r.rpId = .ok [] := by
  unfold newApproval
  constructor
  · rintro ⟨made, h⟩
    obtain ⟨r, hread, h⟩ := bind_eq_ok.mp h
    obtain ⟨hentity, h⟩ := throwUnless_bind_eq_ok.mp h
    obtain ⟨expires, hexpires, h⟩ := bind_eq_ok.mp h
    obtain ⟨htimely, h⟩ := throwUnless_bind_eq_ok.mp h
    obtain ⟨hchallenge, h⟩ := throwUnless_bind_eq_ok.mp h
    obtain ⟨codes, hcodes, h⟩ := bind_eq_ok.mp h
    obtain ⟨hnone, h⟩ := throwUnless_bind_eq_ok.mp h
    obtain ⟨hfresh, h⟩ := throwUnless_bind_eq_ok.mp h
    obtain ⟨issuedAt, hissued, -⟩ := bind_eq_ok.mp h
    rw [List.isEmpty_iff.mp hnone] at hcodes
    exact ⟨r, ⟨hread, strictEq_str_iff.mp hentity, ⟨expires, hexpires, by simpa using htimely⟩,
      by simpa using hchallenge, by simpa using hfresh, issuedAt, hissued⟩, hcodes⟩
  · rintro ⟨r, ⟨hread, hentity, ⟨expires, hexpires, htimely⟩, hchallenge, hfresh, issuedAt, hissued⟩,
      hcodes⟩
    refine ⟨(r.approval p input issuedAt, r.replayKey p), ?_⟩
    refine bind_eq_ok.mpr ⟨r, hread, throwUnless_bind_eq_ok.mpr ⟨strictEq_str_iff.mpr hentity, ?_⟩⟩
    refine bind_eq_ok.mpr ⟨expires, hexpires, throwUnless_bind_eq_ok.mpr ⟨by simp [htimely], ?_⟩⟩
    refine throwUnless_bind_eq_ok.mpr ⟨by simpa using hchallenge, bind_eq_ok.mpr ⟨[], hcodes, ?_⟩⟩
    refine throwUnless_bind_eq_ok.mpr ⟨rfl, throwUnless_bind_eq_ok.mpr ⟨by simpa using hfresh, ?_⟩⟩
    exact bind_eq_ok.mpr ⟨issuedAt, hissued, rfl⟩

/-- A call that creates no approval leaves the approvals and the replay keys as they are. -/
theorem createIntentApproval_fails_iff :
    (∃ e, createIntentApproval p input now s = .error e s) ↔
      ¬ ∃ made, newApproval p s input now = .ok made := by
  cases h : newApproval p s input now with
  | error e =>
    refine iff_of_true ⟨e, ?_⟩ nofun
    exact bind_of_error (lift_eq_error.mpr ⟨h, rfl⟩)
  | ok made =>
    refine iff_of_false ?_ (fun hnone => hnone ⟨made, rfl⟩)
    rintro ⟨e, hfails⟩
    have hread : reading (fun s => newApproval p s input now) s = .ok made s := by
      show lift (newApproval p s input now) s = _
      rw [h]
      rfl
    rw [createIntentApproval, bind_of_ok hread] at hfails
    cases hfails

end

/-- A credential all of whose bindings are revoked cannot approve, unless the account of the entity, or
one of its keys, bears it still and speaks for a request that is in order otherwise. -/
theorem revoked_cannot_approve_iff (p : Platform) (s : ApprovalState) (input : Fields) (now : Number)
    {credentialId : String} (hgiven : strOrEmpty (input.get "credential_id") = .ok credentialId)
    (hrevoked : Revoked s.ledger credentialId) :
    (∃ e, createIntentApproval p input now s = .error e s) ↔
      ∀ r, InOrder p s input now r → ¬ AccountVouches p s.ledger r := by
  rw [createIntentApproval_fails_iff, newApproval_ok_iff, not_exists]
  refine forall_congr' fun r => ?_
  rw [not_and]
  refine imp_congr_right fun hin => not_congr ?_
  have hsame : r.credentialId = credentialId :=
    Except.ok.inj ((credentialId_of_read hin.read).symm.trans hgiven)
  rw [← hsame] at hrevoked
  exact credentialReasons_nil_iff hrevoked (entity_of_read hin.read)

/-! ## A revoked credential of an account -/

/-- The ledger of the shop after the binding of the credential was revoked, with these accounts. -/
def unboundLedger (accounts : OrderedMap String Fields) : Ledger :=
  { (Ledger.fresh none ⟨none, [], none⟩).setStore .controller_bindings
      [[("credential_id", .str "cred_1"), ("entity_l1_address", .str aliceAddress),
        ("controller_l1_address", .str aliceKey), ("status", .str "revoked")]] with
    accounts := accounts }

theorem unboundLedger_revoked (accounts : OrderedMap String Fields) :
    Revoked (unboundLedger accounts) "cred_1" := by
  refine ⟨⟨_, List.mem_singleton_self _, rfl⟩, ?_⟩
  intro binding hmem _
  rw [List.mem_singleton.mp hmem]
  exact nofun

/-- Alice's account, made with the credential. -/
def aliceAccounts : OrderedMap String Fields :=
  OrderedMap.empty.insert aliceAddress
    [("credentialId", .str "cred_1"), ("key_l1_address", .str aliceKey)]

/-- Without an account the revoked credential is refused. -/
theorem bare_revoked_cannot_approve :
    ∃ e, createIntentApproval shopPlatform (shopApproval "n1") (.int 0) ⟨unboundLedger .empty, []⟩
      = .error e ⟨unboundLedger .empty, []⟩ := by
  refine (revoked_cannot_approve_iff shopPlatform ⟨unboundLedger .empty, []⟩ (shopApproval "n1") (.int 0)
    rfl (unboundLedger_revoked .empty)).mpr ?_
  rintro r - ⟨-, -, account, key, hborn, -⟩
  have hstored : (none : Option Fields) = some account := hborn.stored
  cases hstored

/-- Whether the call creates an approval. -/
def approves (p : Platform) (s : ApprovalState) (input : Fields) (now : Number) : Bool :=
  match newApproval p s input now with
  | .ok _ => true
  | .error _ => false

/-- The account bears the credential whose only binding is revoked: the credential approves. -/
theorem revoked_credential_approves :
    Revoked (unboundLedger aliceAccounts) "cred_1" ∧
    ¬ ∃ e, createIntentApproval shopPlatform (shopApproval "n1") (.int 0) ⟨unboundLedger aliceAccounts, []⟩
      = .error e ⟨unboundLedger aliceAccounts, []⟩ := by
  refine ⟨unboundLedger_revoked _, ?_⟩
  rw [createIntentApproval_fails_iff, not_not]
  have happroves : approves shopPlatform ⟨unboundLedger aliceAccounts, []⟩ (shopApproval "n1") (.int 0)
      = true := by decide +kernel
  unfold approves at happroves
  split at happroves
  · next made hmade => exact ⟨made, hmade⟩
  · cases happroves

end SimpleL1.Node
