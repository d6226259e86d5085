import SimpleL1.Node.Routes

/-!
# Signing in after every request

An account that can sign in can do so after every registration, enrolment and
proposal. A revocation takes one credential away, and an approval the keys of one
address, so there it depends on what is left.
-/

namespace SimpleL1.Node

open SimpleL1.Js SimpleL1.Lib SimpleL1.Lib.Effect

/-- There is an account at the address that can sign in. -/
def SignsIn (a : String) (ledger : Ledger) : Prop :=
  ∃ account, ledger.account a = some account ∧ CanSignIn account

/-! ## What is left -/

/-- The account has a credential to sign in with beside the credential `credentialId`. -/
def HasAnother (account : Fields) (credentialId : String) : Prop :=
  ∃ credentials, verifiableAccountCredentials account = .ok credentials ∧
    ∃ c ∈ credentials, nameOf c ≠ credentialId

/-- The account can sign in without its keys of the address `keyAddress`. -/
def CanSpare (account : Fields) (keyAddress : String) : Prop :=
  ∀ others, Js.filter (isOtherKey keyAddress) (keysOf account) = .ok others →
    CanSignIn (account.set "keys" (.arr others))

/-- The proposal brings a credential with its public key, which no other key of the account has or
marks. -/
def Brings (account : Fields) (keyAddress : String) (proposal : Fields) : Prop :=
  ∃ id, Names (proposal.get "credential_id") id ∧ (proposedPublicKey proposal).truthy = true ∧
    ∀ others, Js.filter (isOtherKey keyAddress) (keysOf account) = .ok others →
      others.any (marks id) = false ∧ (Json.obj account :: others).any (bears id) = false

/-- A revocation is of one credential among others; an approval replaces keys the account can
spare, or brings a new credential, and one whose id is a text. -/
def LeavesOne (p : Platform) (ledger : Ledger) (event : Json) : Prop :=
  match ledgerEventType event with
  | some .passkeyRevoked => ∀ passkey, revokedPasskey p ledger event = .ok passkey →
      CanSignIn passkey.account → HasAnother passkey.account passkey.credentialId
  | some .controllerBindingApproved => ∀ approval,
      eventApproval p ledger event = .ok (some approval) →
        ∀ account, ledger.account approval.entityAddress = some account → CanSignIn account →
          (∃ text, strOrEmpty (approval.proposal.get "credential_id") = .ok text) ∧
            (CanSpare account approval.keyAddress ∨
              Brings account approval.keyAddress approval.proposal)
  | _ => True

/-! ## New records -/

/-- The record is not marked, and carries the credential and the public key. -/
structure IsActive (record : Json) (credentialId publicKey : Option Json) : Prop where
  isTruthy : record.truthy = true
  status : isMarked (record.prop "status") = false
  credential_status : isMarked (record.prop "credential_status") = false
  id : credentialIdOf record = or credentialId none
  verifiable : isVerifiable record = truthy publicKey

section
variable {record own : Json} {keys others : List Json} {credentialId publicKey : Option Json}
  {id : String}

theorem truthy_or_none (v : Option Json) : truthy (or v none) = truthy v := by
  unfold Js.or
  split
  · rfl
  · next h => rw [Bool.not_eq_true] at h; rw [h]; rfl

theorem strOrEmpty_or_none (v : Option Json) : strOrEmpty (or v none) = strOrEmpty v := by
  unfold strOrEmpty
  rw [Js.or, truthy_or_none]
  unfold Js.or
  split <;> rfl

theorem strOrEmpty_orNull (v : Option Json) : strOrEmpty (some (orNull v)) = strOrEmpty v := by
  cases v with
  | none => rfl
  | some v =>
    by_cases hv : truthy (some v) = true
    · have hsame : orNull (some v) = v := if_pos hv
      rw [hsame]
    · have hnull : orNull (some v) = .null := if_neg hv
      rw [hnull, strOrEmpty, strOrEmpty, or_null, or_of_falsy (by simpa using hv)]

theorem IsActive.isCandidate (h : IsActive record credentialId publicKey) :
    isCandidate record = truthy credentialId := by
  unfold Node.isCandidate
  rw [h.isTruthy, h.status, h.credential_status, h.id, truthy_or_none]
  rfl

theorem IsActive.nonNull (h : IsActive record credentialId publicKey) : record ≠ .null := by
  rintro rfl
  cases h.isTruthy

theorem IsActive.isNamed (h : IsActive record credentialId publicKey)
    (htext : ∃ s, strOrEmpty credentialId = .ok s) : IsNamed record := by
  obtain ⟨s, hs⟩ := htext
  refine strOrEmpty_ok_iff.mp ⟨s, ?_⟩
  rw [h.id, strOrEmpty_or_none, hs]

theorem IsActive.bears (h : IsActive record credentialId publicKey) (hid : Names credentialId id) :
    bears id record = true := by
  have hname : nameOf record = id := by
    unfold nameOf
    rw [h.id, or_of_truthy hid.1, hid.2]
  unfold Node.bears
  rw [h.isCandidate, hid.1, hname]
  exact beq_self_eq_true id

/-- A new key with a credential of its own serves. -/
theorem serves_snoc (h : IsActive record credentialId publicKey) (hid : Names credentialId id)
    (hpublic : truthy publicKey = true) (hmarks : others.any (marks id) = false)
    (hbears : (own :: others).any (bears id) = false) : Serves own (others ++ [record]) id := by
  refine ⟨(any_marks_snoc h.status).trans hmarks, ?_⟩
  have hnone : (own :: others).find? (Node.bears id) = none :=
    List.find?_eq_none.mpr fun c hc => List.any_eq_false.mp hbears c hc
  rw [← List.cons_append, List.find?_append, hnone, Option.none_or,
    List.find?_cons_of_pos (h.bears hid)]
  exact h.verifiable.trans hpublic

/-- A new account whose keys all carry its own credential can sign in. -/
theorem canSignIn_new {account : Fields} (hid : Names credentialId id)
    (hpublic : truthy publicKey = true)
    (hkeys : account.get "keys" = some (.arr keys))
    (hactive : ∀ c ∈ Json.obj account :: keys, IsActive c credentialId publicKey) :
    CanSignIn account := by
  have hown := hactive _ List.mem_cons_self
  have hmarks : keys.any (marks id) = false := by
    rw [List.any_eq_false]
    intro key hkey
    unfold marks
    rw [(hactive key (List.mem_cons_of_mem _ hkey)).status]
    exact nofun
  refine canSignIn_iff.mpr ⟨keys, by rw [hkeys]; rfl, ⟨fun key hkey => ?_, fun key hkey hmark => ?_,
    fun c hc _ => ?_⟩, id, hmarks, ?_⟩
  · exact (hactive key (List.mem_cons_of_mem _ hkey)).nonNull
  · rw [(hactive key (List.mem_cons_of_mem _ hkey)).status] at hmark
    cases hmark
  · refine (hactive c hc).isNamed ⟨id, ?_⟩
    unfold strOrEmpty
    rw [or_of_truthy hid.1, hid.2]
  · rw [List.find?_cons_of_pos (hown.bears hid)]
    exact hown.verifiable.trans hpublic

end

section
variable {p : Platform} {ledger : Ledger} {event : Json}

theorem names_str {s : String} (h : s ≠ "") : Names (some (.str s)) s :=
  ⟨by rw [truthy_str]; exact decide_eq_true h, rfl⟩

theorem genesisOf_canSignIn {genesis : Genesis} {id publicKey : String}
    (h : genesisOf p event = .ok genesis)
    (hid : payloadField event "credentialId" = some (.str id)) (hne : id ≠ "")
    (hpublic : payloadField event "credentialPublicKey" = some (.str publicKey))
    (hpublicNe : publicKey ≠ "") : CanSignIn genesis.account := by
  unfold genesisOf at h
  obtain ⟨payload, hpayload, h⟩ := bind_eq_ok.mp h
  obtain ⟨counter, _, h⟩ := bind_eq_ok.mp h
  obtain ⟨entityAddress, _, h⟩ := bind_eq_ok.mp h
  obtain ⟨keyAddress, _, h⟩ := bind_eq_ok.mp h
  rw [← payloadOf_prop hpayload] at hid hpublic
  cases h
  have hkey : or (payload.prop "credentialPublicKey") (payload.prop "credential_public_key") =
      some (.str publicKey) := by rw [hpublic, or_str hpublicNe]
  refine canSignIn_new (names_str hne) (names_str hpublicNe).1 (by simp; rfl) fun c hc => ?_
  rcases List.mem_cons.mp hc with rfl | hc
  · refine ⟨rfl, ?_, ?_, ?_, ?_⟩ <;>
      simp [isMarked, strictEq, credentialIdOf, isVerifiable, hid, hkey, hpublicNe]
  · obtain ⟨key, -, rfl⟩ := List.mem_map.mp hc
    refine ⟨rfl, ?_, ?_, ?_, ?_⟩ <;>
      simp [isMarked, strictEq, credentialIdOf, isVerifiable, hid, hkey, hpublicNe]

theorem addedPasskey_active {added : AddedPasskey} (h : addedPasskey p ledger event = .ok added) :
    ∃ others record, Js.filter (isOtherCredential added.credentialId) (keysOf added.account) =
        .ok others ∧ added.keys = others ++ [record] ∧
      IsActive record (some added.credentialId) (some added.credentialPublicKey) := by
  unfold addedPasskey at h
  obtain ⟨payload, _, h⟩ := bind_eq_ok.mp h
  obtain ⟨⟨entityAddress, account⟩, _, h⟩ := bind_eq_ok.mp h
  obtain ⟨keyAddress, _, h⟩ := bind_eq_ok.mp h
  obtain ⟨counter, _, h⟩ := bind_eq_ok.mp h
  obtain ⟨keys, hkeys, h⟩ := bind_eq_ok.mp h
  obtain ⟨others, hothers, h⟩ := bind_eq_ok.mp h
  cases h
  refine ⟨others, _, ?_, rfl, rfl, ?_, ?_, ?_, ?_⟩
  · rw [keysOf_of_arrayOrEmpty hkeys]
    exact hothers
  · simp [isMarked, strictEq]
  · simp [isMarked, strictEq]
  · simp [credentialIdOf]
  · simp [isVerifiable, truthy_or_none]

theorem approvedAccount_active {proposal account account' : Fields} {keyAddress : String}
    (h : approvedAccount event proposal keyAddress account = .ok account') :
    ∃ others record, Js.filter (isOtherKey keyAddress) (keysOf account) = .ok others ∧
      account' = account.set "keys" (.arr (others ++ [record])) ∧
      IsActive record (some (orNull (proposal.get "credential_id")))
        (some (proposedPublicKey proposal)) := by
  unfold approvedAccount at h
  obtain ⟨counter, _, h⟩ := bind_eq_ok.mp h
  obtain ⟨keys, hkeys, h⟩ := bind_eq_ok.mp h
  obtain ⟨others, hothers, h⟩ := bind_eq_ok.mp h
  cases h
  refine ⟨others, _, ?_, rfl, rfl, ?_, ?_, ?_, ?_⟩
  · rw [keysOf_of_arrayOrEmpty hkeys]
    exact hothers
  · simp [isMarked, strictEq]
  · simp [isMarked, strictEq]
  · simp [credentialIdOf]
  · simp [isVerifiable, truthy_or_none]

/-! ## Whose credential it is -/

/-- No active credential of the accounts has the id. -/
theorem credentialOwner_none {id : String} {accounts : List Fields}
    (h : credentialOwner id accounts = .ok none) {account : Fields} (hmem : account ∈ accounts) :
    ∃ credentials, accountCredentials account = .ok credentials ∧
      ∀ c ∈ credentials, toStr (credentialIdOf c) ≠ .ok id := by
  induction accounts with
  | nil => cases hmem
  | cons first accounts ih =>
    obtain ⟨credentials, hcredentials, h⟩ := bind_eq_ok.mp h
    obtain ⟨found, hfound, h⟩ := bind_eq_ok.mp h
    cases found with
    | some c => cases h
    | none =>
      rcases List.mem_cons.mp hmem with rfl | hmem
      · refine ⟨credentials, hcredentials, fun c hc heq => ?_⟩
        have hno := find_eq_none hfound c hc
        rw [heq] at hno
        cases (Except.ok.inj hno).symm.trans (beq_self_eq_true id)
      · exact ih h hmem

/-- A credential that serves somewhere is no new one. -/
theorem ne_of_serves {a id s : String} {account : Fields} {keys : List Json}
    (hnew : findCredentialOwner ledger id = .ok none) (haccount : ledger.account a = some account)
    (hkeys : arrayOrEmpty (account.get "keys") "(account?.keys || []).filter" = .ok keys)
    (hserves : Serves (.obj account) keys s) : s ≠ id := by
  have hmem : account ∈ ledger.accounts.entries.map Prod.snd :=
    List.mem_map.mpr ⟨(a, account), OrderedMap.find_eq_some.mp haccount, rfl⟩
  obtain ⟨credentials, hcredentials, hno⟩ := credentialOwner_none hnew hmem
  obtain ⟨keys', hkeys', hlegible, rfl⟩ := accountCredentials_eq_ok.mp hcredentials
  cases hkeys.symm.trans hkeys'
  obtain ⟨c, hc, -⟩ := (Option.any_eq_true _ _).mp hserves.2
  have hbears := List.find?_some hc
  unfold bears at hbears
  rw [Bool.and_eq_true, beq_iff_eq] at hbears
  obtain ⟨name, hname⟩ := hlegible.candidates c (List.mem_of_find?_eq_some hc) hbears.1
  have hs : name = s := by rw [← hbears.2, nameOf, hname]
  rintro rfl
  refine hno c (mem_firstOfEach.mpr ⟨s, rfl, find_activeCandidates.mpr ⟨hserves.1, hc⟩⟩) ?_
  rw [hname, hs]

/-! ## One event -/

theorem SignsIn.congr {a : String} {l' : Ledger} (h : SignsIn a ledger)
    (haccount : l'.account a = ledger.account a) : SignsIn a l' := by
  unfold SignsIn
  rw [haccount]
  exact h

/-- The account at one address is replaced. -/
theorem SignsIn.replace {a entityAddress : String} {account : Fields} {l' : Ledger}
    (h : SignsIn a ledger)
    (haccount : l'.account a = if entityAddress = a then some account else ledger.account a)
    (hsigns : entityAddress = a → CanSignIn account) : SignsIn a l' := by
  by_cases heq : entityAddress = a
  · rw [if_pos heq] at haccount
    exact ⟨account, haccount, hsigns heq⟩
  · rw [if_neg heq] at haccount
    exact h.congr haccount

theorem SignsIn.canSignIn {a : String} {account : Fields} (h : SignsIn a ledger)
    (haccount : ledger.account a = some account) : CanSignIn account := by
  obtain ⟨account', haccount', hsigns⟩ := h
  cases haccount.symm.trans haccount'
  exact hsigns

theorem signsIn_genesis {a id publicKey : String} (h : SignsIn a ledger)
    (hid : payloadField event "credentialId" = some (.str id)) (hne : id ≠ "")
    (hpublic : payloadField event "credentialPublicKey" = some (.str publicKey))
    (hpublicNe : publicKey ≠ "") : SignsIn a (after (applyGenesis p event) ledger) := by
  have haccount := account_applyGenesis p ledger event a
  cases hgenesis : genesisOf p event with
  | error e => rw [hgenesis] at haccount; exact h.congr haccount
  | ok genesis =>
    rw [hgenesis] at haccount
    exact h.replace haccount fun _ => genesisOf_canSignIn hgenesis hid hne hpublic hpublicNe

/-- A key with the text of a credential. -/
theorem toStr_of_keyCredential {key : Json} {id : String} (h : keyCredential key = .ok id) :
    toStr (credentialIdOf key) = .ok id := by
  obtain ⟨credentialId, hmember, h⟩ := bind_eq_ok.mp h
  cases key with
  | null => cases hmember
  | _ => cases hmember; exact h

theorem bears_of_other {key : Json} {id s : String} (h : isOtherCredential (.str id) key = .ok false)
    (hne : s ≠ id) : bears s key = false := by
  obtain ⟨theirs, htheirs, h⟩ := bind_eq_ok.mp h
  have heq : theirs = id := by simpa using h
  have hname : nameOf key = id := by rw [nameOf, toStr_of_keyCredential htheirs, heq]
  unfold bears
  rw [hname, beq_false_of_ne (Ne.symm hne), Bool.and_false]

theorem signsIn_addPasskey {a id : String} (h : SignsIn a ledger)
    (hid : payloadField event "credentialId" = some (.str id)) (hne : id ≠ "")
    (hnew : findCredentialOwner ledger id = .ok none) :
    SignsIn a (after (addPasskey p event) ledger) := by
  have haccount := account_addPasskey p ledger event a
  cases hadded : addedPasskey p ledger event with
  | error e => rw [hadded] at haccount; exact h.congr haccount
  | ok added =>
    rw [hadded] at haccount
    refine h.replace haccount fun heq => ?_
    have hgives := addedPasskey_gives hadded
    have hold := hgives.account
    rw [heq] at hold
    have hcredential : added.credentialId = .str id := by
      rw [hgives.credentialId, hid, or_str hne, orNull_str hne]
    obtain ⟨others, record, hothers, hkeys, hactive⟩ := addedPasskey_active hadded
    rw [hcredential] at hothers hactive
    obtain ⟨keys, hlist, hlegible, s, hserves⟩ := canSignIn_iff.mp (h.canSignIn hold)
    rw [keysOf_of_arrayOrEmpty hlist] at hothers
    have hs : s ≠ id := ne_of_serves hnew hold hlist hserves
    rw [hkeys, canSignIn_set_keys]
    refine ⟨(hlegible.sub fun key => mem_of_mem_filter hothers).snoc hactive.nonNull
      (hactive.isNamed ⟨id, strOrEmpty_str id⟩), s, ?_⟩
    exact (hserves.filter hothers fun key _ hdrop => bears_of_other hdrop hs).snoc hactive.status

theorem signsIn_proposeController (p : Platform) {a : String} (h : SignsIn a ledger) :
    SignsIn a (after (proposeController event) ledger) :=
  h.congr ((local_applyTyped p event .controllerBindingProposed).frame ledger (.account a)
    (by simp [footprint]))

theorem eventApproval_active {approval : Approval}
    (h : eventApproval p ledger event = .ok (some approval)) :
    ∃ account others record, ledger.account approval.entityAddress = some account ∧
      Js.filter (isOtherKey approval.keyAddress) (keysOf account) = .ok others ∧
      approval.account = account.set "keys" (.arr (others ++ [record])) ∧
      IsActive record (some (orNull (approval.proposal.get "credential_id")))
        (some (proposedPublicKey approval.proposal)) := by
  unfold eventApproval at h
  obtain ⟨proposal, _, h⟩ := bind_eq_ok.mp h
  cases proposal with
  | none => cases h
  | some proposal =>
    unfold approvalOf at h
    obtain ⟨entityAddress, _, h⟩ := bind_eq_ok.mp h
    obtain ⟨keyAddress, _, h⟩ := bind_eq_ok.mp h
    cases haccount : ledger.account entityAddress with
    | none => rw [haccount] at h; cases h
    | some account =>
      rw [haccount] at h
      obtain ⟨account', happroved, h⟩ := bind_eq_ok.mp h
      cases h
      obtain ⟨others, record, hothers, hset, hactive⟩ := approvedAccount_active happroved
      exact ⟨account, others, record, haccount, hothers, hset, hactive⟩

theorem signsIn_approveController {a : String} (h : SignsIn a ledger)
    (htype : ledgerEventType event = some .controllerBindingApproved)
    (hleaves : LeavesOne p ledger event) :
    SignsIn a (after (approveController p event) ledger) := by
  unfold LeavesOne at hleaves
  rw [htype] at hleaves
  have haccount := account_approve p ledger event a
  cases hevent : eventApproval p ledger event with
  | error e => rw [hevent] at haccount; exact h.congr haccount
  | ok approval =>
    cases approval with
    | none => rw [hevent] at haccount; exact h.congr haccount
    | some approval =>
      rw [hevent] at haccount
      refine h.replace haccount fun heq => ?_
      obtain ⟨account, others, record, hold, hothers, hset, hactive⟩ := eventApproval_active hevent
      have hsigns : CanSignIn account := h.canSignIn (heq ▸ hold)
      obtain ⟨htext, hleft⟩ := hleaves approval hevent account hold hsigns
      obtain ⟨keys, hlist, hlegible, -⟩ := canSignIn_iff.mp hsigns
      have hsub : ∀ key ∈ others, key ∈ keys := fun key hkey =>
        keysOf_of_arrayOrEmpty hlist ▸ mem_of_mem_filter hothers hkey
      have hnamed : IsNamed record := hactive.isNamed (by rwa [strOrEmpty_orNull])
      rw [hset, canSignIn_set_keys]
      refine ⟨(hlegible.sub hsub).snoc hactive.nonNull hnamed, ?_⟩
      rcases hleft with hspare | ⟨id, hid, hpublic, hfresh⟩
      · obtain ⟨-, s, hserves⟩ := canSignIn_set_keys.mp (hspare others hothers)
        exact ⟨s, hserves.snoc hactive.status⟩
      · obtain ⟨hmarks, hbears⟩ := hfresh others hothers
        exact ⟨id, serves_snoc hactive (names_orNull.mpr hid) hpublic hmarks hbears⟩

/-! ## A revocation -/

/-- A copy of a key as an object has its fields, whatever it was; only an object has fields that are
no indices. -/
theorem get_spread {k : String} (hk : ∃ c ∈ k.toList, Number.isNumChar c = false) (key : Json) :
    (spread (some key)).get k = key.prop k := by
  have hindex : ∀ n : Nat, Number.toString (.int n) ≠ k := by
    rintro n rfl
    obtain ⟨c, hc, hno⟩ := hk
    rw [Number.toString, String.toList_ofList] at hc
    rw [Number.chars_numChar rfl c hc] at hno
    cases hno
  have hnone : ∀ (xs : List (Json × Nat)),
      Fields.get (xs.map fun p => (Number.toString (.int p.2), p.1)) k = none := by
    intro xs
    unfold Fields.get
    rw [List.lookup_eq_none_iff]
    intro p hp
    obtain ⟨q, -, rfl⟩ := List.mem_map.mp hp
    exact bne_iff_ne.mpr (Ne.symm (hindex q.2))
  cases key with
  | obj fs => rfl
  | arr xs => exact hnone _
  | str s =>
    have := hnone (s.toList.zipIdx.map fun p => (.str (String.ofList [p.1]), p.2))
    rw [List.map_map] at this
    exact this
  | _ => rfl

/-- The key under a revocation of the credential. -/
def markedKey (event payload : Json) (credentialId : String) (key : Json) : Json :=
  match keyCredential key with
  | .ok theirs =>
    if theirs ≠ credentialId then key else .obj (revoked event payload (spread (some key)))
  | .error _ => key

theorem revokedKeys_eq_ok {payload : Json} {credentialId : String} {keys keys' : List Json}
    (h : revokedKeys event payload credentialId keys = .ok keys') :
    (∀ key ∈ keys, ∃ theirs, keyCredential key = .ok theirs) ∧
      keys' = keys.map (markedKey event payload credentialId) := by
  unfold revokedKeys at h
  obtain ⟨hall, rfl⟩ := (mapM_eq_ok (g := markedKey event payload credentialId) fun key key' h => by
    obtain ⟨theirs, htheirs, h⟩ := bind_eq_ok.mp h
    cases h
    unfold markedKey
    rw [htheirs]).mp h
  refine ⟨fun key hkey => ?_, rfl⟩
  obtain ⟨key', h⟩ := hall key hkey
  obtain ⟨theirs, htheirs, -⟩ := bind_eq_ok.mp h
  exact ⟨theirs, htheirs⟩

theorem credentialIdOf_revoked (event payload key : Json) :
    credentialIdOf (.obj (revoked event payload (spread (some key)))) = credentialIdOf key := by
  have hget : ∀ k, k ∉ ["status", "revoked_at", "revocation_reason"] →
      (∃ c ∈ k.toList, Number.isNumChar c = false) →
      (revoked event payload (spread (some key))).get k = key.prop k := by
    intro k hk hchar
    simp only [List.mem_cons, List.not_mem_nil, or_false, not_or] at hk
    unfold revoked
    rw [Fields.get_set, if_neg hk.2.2, get_assign hk.2.1, Fields.get_set, if_neg hk.1,
      get_spread hchar]
  unfold credentialIdOf
  rw [Json.prop_obj, Json.prop_obj, hget _ (by decide) ⟨'d', by decide, by decide⟩,
    hget _ (by decide) ⟨'d', by decide, by decide⟩]

/-- The key is as it was, or it had the credential, and is now a marked one of the same id. -/
theorem markedKey_cases {payload key : Json} {credentialId theirs : String}
    (h : keyCredential key = .ok theirs) :
    markedKey event payload credentialId key = key ∨
      theirs = credentialId ∧ markedKey event payload credentialId key ≠ .null ∧
        isMarked ((markedKey event payload credentialId key).prop "status") = true ∧
        credentialIdOf (markedKey event payload credentialId key) = credentialIdOf key := by
  unfold markedKey
  rw [h]
  dsimp only
  split
  · exact .inl rfl
  · next heq =>
    exact .inr ⟨not_not.mp heq, nofun, isRevoked_revoked payload _,
      credentialIdOf_revoked event payload key⟩

/-- The marks of a revocation can be read, like the keys were. -/
theorem Legible.revoke {own : Json} {keys : List Json} {payload : Json} {credentialId : String}
    (h : Legible own keys) (hkeys : ∀ key ∈ keys, ∃ theirs, keyCredential key = .ok theirs) :
    Legible own (keys.map (markedKey event payload credentialId)) := by
  have hcases : ∀ key' ∈ keys.map (markedKey event payload credentialId), key' ∈ keys ∨
      key' ≠ .null ∧ isMarked (key'.prop "status") = true ∧ IsNamed key' := by
    intro key' hkey'
    obtain ⟨key, hkey, rfl⟩ := List.mem_map.mp hkey'
    obtain ⟨theirs, htheirs⟩ := hkeys key hkey
    rcases markedKey_cases htheirs with hsame | ⟨-, hnull, hmark, hid⟩
    · rw [hsame]
      exact .inl hkey
    · refine .inr ⟨hnull, hmark, theirs, ?_⟩
      rw [hid]
      exact toStr_of_keyCredential htheirs
  refine ⟨fun key hkey => ?_, fun key hkey hmark => ?_, fun c hc hcand => ?_⟩
  · exact (hcases key hkey).elim (h.nonNull key) fun hnew => hnew.1
  · exact (hcases key hkey).elim (fun hold => h.marked key hold hmark) fun hnew => hnew.2.2
  · rcases List.mem_cons.mp hc with rfl | hc
    · exact h.candidates c List.mem_cons_self hcand
    · exact (hcases c hc).elim (fun hold => h.candidates c (List.mem_cons_of_mem _ hold) hcand)
        fun hnew => hnew.2.2

/-- A revocation of another credential leaves a credential that serves. -/
theorem Serves.revoke {own : Json} {keys : List Json} {payload : Json} {credentialId s : String}
    (h : Serves own keys s) (hne : s ≠ credentialId)
    (hkeys : ∀ key ∈ keys, ∃ theirs, keyCredential key = .ok theirs) :
    Serves own (keys.map (markedKey event payload credentialId)) s := by
  refine h.map fun key hkey => ?_
  obtain ⟨theirs, htheirs⟩ := hkeys key hkey
  rcases markedKey_cases htheirs with hsame | ⟨heq, -, -, hid⟩
  · exact .inl hsame
  · have hname : nameOf key = credentialId := by rw [nameOf, toStr_of_keyCredential htheirs, heq]
    have hname' : nameOf (markedKey event payload credentialId key) = credentialId := by
      rw [nameOf, hid, toStr_of_keyCredential htheirs, heq]
    have hbeq : (credentialId == s) = false := beq_false_of_ne (Ne.symm hne)
    refine .inr ⟨?_, ?_, ?_⟩
    · rw [bears, hname, hbeq, Bool.and_false]
    · rw [bears, hname', hbeq, Bool.and_false]
    · rw [marks, hname', hbeq, Bool.and_false, Bool.false_and]

/-- The account itself does not count any more. -/
theorem CanSignIn.retire {account : Fields} {keys : List Json} {s : String}
    (hkeys : arrayOrEmpty (account.get "keys") "(account?.keys || []).filter" = .ok keys)
    (hlegible : Legible (.obj account) keys) (hserves : Serves (.obj account) keys s)
    (hown : bears s (.obj account) = false) :
    CanSignIn (account.set "credential_status" (.str "revoked")) := by
  have hcand : isCandidate (.obj (account.set "credential_status" (.str "revoked"))) = false := by
    unfold isCandidate
    rw [Json.prop_obj, Json.prop_obj, Fields.get_set, Fields.get_set, if_pos rfl]
    have hmark : isMarked (some (.str "revoked")) = true := rfl
    rw [hmark, Bool.not_true, Bool.and_false, Bool.false_and]
  refine canSignIn_iff.mpr ⟨keys, ?_, ⟨hlegible.nonNull, hlegible.marked, fun c hc hc' => ?_⟩, s,
    hserves.1, ?_⟩
  · rw [Fields.get_set, if_neg (by decide)]
    exact hkeys
  · rcases List.mem_cons.mp hc with rfl | hc
    · rw [hcand] at hc'
      cases hc'
    · exact hlegible.candidates c (List.mem_cons_of_mem _ hc) hc'
  · have hfirst := hserves.2
    rw [List.find?_cons, hown] at hfirst
    rw [List.find?_cons, bears, hcand, Bool.false_and]
    exact hfirst

theorem HasAnother.serves {account : Fields} {credentialId : String}
    (h : HasAnother account credentialId) :
    ∃ keys, arrayOrEmpty (account.get "keys") "(account?.keys || []).filter" = .ok keys ∧
      Legible (.obj account) keys ∧ ∃ s ≠ credentialId, Serves (.obj account) keys s := by
  obtain ⟨credentials, hcredentials, c, hc, hne⟩ := h
  obtain ⟨keys, hkeys, hlegible, hserves⟩ := serves_of_verifiable hcredentials
  exact ⟨keys, hkeys, hlegible, _, hne, hserves c hc⟩

/-- The account after a revocation can sign in with another credential of it. -/
theorem canSignIn_revokedAccount {passkey : RevokedPasskey} {primary s : String}
    (hprimary : primaryCredential passkey = .ok primary)
    (hlegible : Legible (.obj passkey.account) passkey.keys)
    (hserves : Serves (.obj passkey.account) passkey.keys s) (hne : s ≠ passkey.credentialId) :
    CanSignIn (revokedAccount passkey primary) := by
  unfold revokedAccount
  dsimp only
  split
  · next heq =>
    have hsame := sameCredential_set passkey.account "keys" (.arr passkey.keys) (by decide)
    refine CanSignIn.retire (by rw [Fields.get_set, if_pos rfl]; rfl) (hlegible.congr hsame)
      (hserves.congr hsame) ?_
    -- The credential of the account itself is the one that is revoked.
    cases ht : truthy (credentialIdOf (.obj (passkey.account.set "keys" (.arr passkey.keys)))) with
    | false => rw [bears, isCandidate, ht, Bool.and_false, Bool.false_and]
    | true =>
      have hname := strOrEmpty_named
        (c := .obj (passkey.account.set "keys" (.arr passkey.keys))) hprimary
      rw [if_pos ht, heq] at hname
      rw [bears, ← hname, beq_false_of_ne (Ne.symm hne), Bool.and_false]
  · exact canSignIn_set_keys.mpr ⟨hlegible, s, hserves⟩

theorem signsIn_revokePasskey {a : String} (h : SignsIn a ledger)
    (htype : ledgerEventType event = some .passkeyRevoked) (hleaves : LeavesOne p ledger event) :
    SignsIn a (after (revokePasskey p event) ledger) := by
  unfold LeavesOne at hleaves
  rw [htype] at hleaves
  have haccount := account_revokePasskey p ledger event a
  cases hrevoked : revokedPasskey p ledger event with
  | error e => rw [hrevoked] at haccount; exact h.congr haccount
  | ok passkey =>
    simp only [hrevoked] at haccount
    by_cases heq : passkey.entityAddress = a
    · rw [if_pos heq] at haccount
      have hgives := revokedPasskey_gives hrevoked
      obtain ⟨keys, hlist, hlegible, s, hne, hserves⟩ :=
        (hleaves passkey hrevoked (h.canSignIn (heq ▸ hgives.account))).serves
      have hmapped := hgives.keys
      rw [keysOf_of_arrayOrEmpty hlist] at hmapped
      obtain ⟨hread, hkeys⟩ := revokedKeys_eq_ok hmapped
      have hlegible' : Legible (.obj passkey.account) passkey.keys := hkeys ▸ hlegible.revoke hread
      have hserves' : Serves (.obj passkey.account) passkey.keys s :=
        hkeys ▸ hserves.revoke hne hread
      cases hprimary : primaryCredential passkey with
      | error e =>
        rw [hprimary] at haccount
        exact ⟨_, haccount, canSignIn_set_keys.mpr ⟨hlegible', s, hserves'⟩⟩
      | ok primary =>
        rw [hprimary] at haccount
        exact ⟨_, haccount, canSignIn_revokedAccount hprimary hlegible' hserves' hne⟩
    · rw [if_neg heq] at haccount
      exact h.congr haccount

end

/-! ## Every run of requests -/

/-- The ledgers that requests which `ok` admits lead to. -/
inductive Served (p : Platform) (config : RealmConfig) (ok : Ledger → Stamp → Request → Prop)
    (l₀ : Ledger) : Ledger → Prop where
  | start : Served p config ok l₀ l₀
  | step {l : Ledger} {stamp : Stamp} {request : Request} : Served p config ok l₀ l →
      ok l stamp request → Served p config ok l₀ (serve p l stamp config request)

/-- The event of the request, if it makes one, leaves an account what it needs. -/
def RequestLeavesOne (p : Platform) (ledger : Ledger) (stamp : Stamp) (request : Request) : Prop :=
  ∀ event, requestEvent p ledger stamp request = .ok (some event) → LeavesOne p ledger event

section
variable {p : Platform} {ledger : Ledger} {stamp : Stamp} {request : Request} {event : Json}

theorem isNewPasskey_eq_ok {passkey : Passkey} (h : isNewPasskey ledger passkey = .ok true) :
    passkey.credentialId ≠ "" ∧ passkey.credentialPublicKey ≠ "" ∧
      findCredentialOwner ledger passkey.credentialId = .ok none := by
  unfold isNewPasskey at h
  split at h
  · cases h
  · next hne =>
    obtain ⟨owner, howner, hnone⟩ := map_eq_ok.mp h
    cases owner with
    | none => exact ⟨(not_or.mp hne).1, (not_or.mp hne).2, howner⟩
    | some _ => cases hnone

/-- A registration and an enrolment are of a new passkey. -/
structure BringsNew (ledger : Ledger) (event : Json) (passkey : Passkey) : Prop where
  id : payloadField event "credentialId" = some (.str passkey.credentialId)
  idNe : passkey.credentialId ≠ ""
  publicKey : payloadField event "credentialPublicKey" = some (.str passkey.credentialPublicKey)
  publicKeyNe : passkey.credentialPublicKey ≠ ""
  isNew : findCredentialOwner ledger passkey.credentialId = .ok none

theorem completeRegistration_brings {entityAddress : String} {identity : NewIdentity}
    {passkey : Passkey}
    (h : completeRegistration p ledger stamp entityAddress identity passkey = .ok (some event)) :
    BringsNew ledger event passkey ∧ ledgerEventType event = some .genesis := by
  unfold completeRegistration at h
  obtain ⟨isNew, hnew, h⟩ := bind_eq_ok.mp h
  cases isNew with
  | false => cases h
  | true =>
    obtain ⟨keyAddress, _, h⟩ := bind_eq_ok.mp h
    cases h
    obtain ⟨hid, hpublic, howner⟩ := isNewPasskey_eq_ok hnew
    refine ⟨⟨?_, hid, ?_, hpublic, howner⟩, ledgerEventType_stamped stamp _ _⟩ <;>
      simp [payloadField_stamped, passkeyFields]

theorem completeEnrolment_brings {entityAddress : String} {rpId : Option Json} {passkey : Passkey}
    (h : completeEnrolment p ledger stamp entityAddress rpId passkey = .ok (some event)) :
    BringsNew ledger event passkey ∧ ledgerEventType event = some .passkeyAdded := by
  unfold completeEnrolment at h
  split at h
  · cases h
  · obtain ⟨isNew, hnew, h⟩ := bind_eq_ok.mp h
    cases isNew with
    | false => cases h
    | true =>
      obtain ⟨keyAddress, _, h⟩ := bind_eq_ok.mp h
      cases h
      obtain ⟨hid, hpublic, howner⟩ := isNewPasskey_eq_ok hnew
      refine ⟨⟨?_, hid, ?_, hpublic, howner⟩, ledgerEventType_stamped stamp _ _⟩ <;>
        simp [payloadField_stamped, passkeyFields]

theorem revokeCredential_gives {entityAddress credentialId : String} {body : Option Json}
    (h : revokeCredential ledger stamp entityAddress credentialId body = .ok (some event)) :
    ledgerEventType event = some .passkeyRevoked ∧
      payloadField event "entity_l1_address" = some (.str entityAddress) ∧
      payloadField event "credential_id" = some (.str credentialId) := by
  unfold revokeCredential at h
  split at h
  · cases h
  · obtain ⟨credentials, _, h⟩ := bind_eq_ok.mp h
    obtain ⟨named, _, h⟩ := bind_eq_ok.mp h
    split at h
    · cases h
    · split at h
      · cases h
      · obtain ⟨reason, _, h⟩ := bind_eq_ok.mp h
        cases h
        exact ⟨ledgerEventType_stamped stamp _ _, rfl, rfl⟩

theorem proposeBinding_type {entityAddress proposalId : String} {body : Option Json}
    (h : proposeBinding p ledger stamp entityAddress proposalId body = some event) :
    ledgerEventType event = some .controllerBindingProposed := by
  unfold proposeBinding at h
  obtain ⟨account, _, h⟩ := Option.bind_eq_some_iff.mp h
  obtain ⟨keyAddress, _, h⟩ := Option.bind_eq_some_iff.mp h
  cases h
  exact ledgerEventType_stamped stamp _ _

theorem approveBinding_type {entityAddress proposalId : String} {body : Option Json}
    (h : approveBinding p ledger stamp entityAddress proposalId body = some event) :
    ledgerEventType event = some .controllerBindingApproved := by
  unfold approveBinding at h
  obtain ⟨proposal, _, h⟩ := Option.bind_eq_some_iff.mp h
  cases h
  exact ledgerEventType_stamped stamp _ _

/-- What the handler leaves is what `applyEvent` leaves. -/
theorem signsIn_applyEvent {config : RealmConfig} {a : String} (h : SignsIn a ledger)
    (hhandled : SignsIn a (after (handleEvent p event) ledger)) :
    SignsIn a (after (applyEvent p config event) ledger) := by
  cases hlog : logLine event with
  | error e => rwa [applyEvent_unlogged hlog]
  | ok _ => exact hhandled.congr (account_applyEvent _ _ _ _ _ _ hlog)

theorem signsIn_request {a : String} (h : SignsIn a ledger)
    (hevent : requestEvent p ledger stamp request = .ok (some event))
    (hleaves : LeavesOne p ledger event) : SignsIn a (after (handleEvent p event) ledger) := by
  unfold handleEvent
  cases request with
  | registration entityAddress identity passkey =>
    obtain ⟨hnew, htype⟩ := completeRegistration_brings hevent
    rw [htype]
    exact signsIn_genesis h hnew.id hnew.idNe hnew.publicKey hnew.publicKeyNe
  | enrolment entityAddress rpId passkey =>
    obtain ⟨hnew, htype⟩ := completeEnrolment_brings hevent
    rw [htype]
    exact signsIn_addPasskey h hnew.id hnew.idNe hnew.isNew
  | revocation entityAddress credentialId body =>
    obtain ⟨htype, -⟩ := revokeCredential_gives hevent
    rw [htype]
    exact signsIn_revokePasskey h htype hleaves
  | proposal entityAddress proposalId body =>
    rw [proposeBinding_type (Except.ok.inj hevent)]
    exact signsIn_proposeController p h
  | approval entityAddress proposalId body =>
    have htype := approveBinding_type (Except.ok.inj hevent)
    rw [htype]
    exact signsIn_approveController h htype hleaves

theorem signsIn_serve {config : RealmConfig} {a : String} (h : SignsIn a ledger)
    (hleaves : RequestLeavesOne p ledger stamp request) :
    SignsIn a (serve p ledger stamp config request) := by
  unfold serve
  split
  · next event hevent =>
    exact signsIn_applyEvent h (signsIn_request h hevent (hleaves event hevent))
  · exact h

end

theorem never_locked_out {p : Platform} {config : RealmConfig} {l₀ l : Ledger} {a : String}
    (hrun : Served p config (RequestLeavesOne p) l₀ l) (h : SignsIn a l₀) : SignsIn a l := by
  induction hrun with
  | start => exact h
  | step _ hleaves ih => exact signsIn_serve ih hleaves

/-! ## A revocation of one among others -/

/-- The ids of the credentials the account at the address can sign in with. -/
def verifiableIds (ledger : Ledger) (a : String) : Option (List String) := do
  let account ← ledger.account a
  let credentials ← (verifiableAccountCredentials account).toOption
  return credentials.map nameOf

theorem verifiableIds_eq_some {ledger : Ledger} {a : String} {ids : List String} :
    verifiableIds ledger a = some ids ↔ ∃ account credentials, ledger.account a = some account ∧
      verifiableAccountCredentials account = .ok credentials ∧ credentials.map nameOf = ids := by
  unfold verifiableIds
  constructor
  · intro h
    obtain ⟨account, haccount, h⟩ := Option.bind_eq_some_iff.mp h
    obtain ⟨credentials, hcredentials, h⟩ := Option.bind_eq_some_iff.mp h
    refine ⟨account, credentials, haccount, ?_, Option.some.inj h⟩
    cases hc : verifiableAccountCredentials account with
    | error e => rw [hc] at hcredentials; cases hcredentials
    | ok credentials' => rw [hc] at hcredentials; cases hcredentials; rfl
  · rintro ⟨account, credentials, haccount, hcredentials, rfl⟩
    simp [haccount, hcredentials, Except.toOption]

theorem requestLeavesOne_revocation {p : Platform} {ledger : Ledger} {stamp : Stamp}
    {entityAddress credentialId a : String} {body : Option Json} {ids : List String} (id : String)
    (hentity : normalizeEntityAddress p (some (.str entityAddress)) = some a)
    (hids : verifiableIds ledger a = some ids) (hid : id ∈ ids) (hne : id ≠ credentialId)
    (hcredential : credentialId ≠ "") :
    RequestLeavesOne p ledger stamp (.revocation entityAddress credentialId body) := by
  intro event hevent
  obtain ⟨htype, hevententity, heventcredential⟩ := revokeCredential_gives hevent
  unfold LeavesOne
  rw [htype]
  intro passkey hrevoked _
  have hgives := revokedPasskey_gives hrevoked
  have haddress := hgives.entity
  rw [hevententity, hentity] at haddress
  have hname := hgives.credentialId
  rw [heventcredential, textOfEither, or_str hcredential, strOrEmpty_str] at hname
  obtain ⟨account, credentials, haccount, hcredentials, rfl⟩ := verifiableIds_eq_some.mp hids
  have hsame := hgives.account
  rw [← Option.some.inj haddress, haccount] at hsame
  obtain ⟨c, hc, rfl⟩ := List.mem_map.mp hid
  rw [← Option.some.inj hsame, ← Except.ok.inj hname]
  exact ⟨credentials, hcredentials, c, hc, hne⟩

/-! ## Locked out by an approval -/

def digestA : String := "aaaaaaaaaaaaaaaaaaaaaaaaaaaaaaaaaaaaaaaa"

def digestB : String := "bbbbbbbbbbbbbbbbbbbbbbbbbbbbbbbbbbbbbbbb"

theorem digests_ne_empty : ∀ q ∈ [("pk_a", digestA), ("pk_b", digestB)], q.2 ≠ "" := by
  simp [digestA, digestB]

/-- A platform with the digests of two public keys. -/
def twoKeysPlatform : Platform :=
  { plainPlatform with toHost := .ofTable [("pk_a", digestA), ("pk_b", digestB)] [] digests_ne_empty }

def aliceStamp : Stamp := ⟨"evt_1", "1970-01-01T00:00:00.000Z"⟩

def servedAll (ledger : Ledger) (requests : List Request) : Ledger :=
  requests.foldl (fun l r => serve twoKeysPlatform l aliceStamp primaryConfig r) ledger

/-- Alice registers and adds a second passkey. -/
def twoPasskeys : Ledger :=
  servedAll (.fresh none ⟨none, [], none⟩)
    [.registration aliceAddress ⟨some (.str "alice"), none, none, none⟩
        ⟨"cred_a", "pk_a", .int 0, .arr []⟩,
      .enrolment aliceAddress none ⟨"cred_b", "pk_b", .int 0, .arr []⟩]

def firstRevoked : Request := .revocation aliceAddress "cred_a" none

/-- She proposes the key of the second passkey as a controller, and approves. -/
def rebinding : List Request :=
  [.proposal aliceAddress "cbp_1"
      (some (.obj [("proposed_controller_key_l1_address", .str ("sl1_" ++ digestB))])),
    .approval aliceAddress "cbp_1" none]

theorem servedAll_cons (ledger : Ledger) (r : Request) (requests : List Request) :
    servedAll ledger (r :: requests) =
      servedAll (serve twoKeysPlatform ledger aliceStamp primaryConfig r) requests := rfl

theorem served_all (ledger : Ledger) (requests : List Request) :
    Served twoKeysPlatform primaryConfig (fun _ _ _ => True) ledger (servedAll ledger requests) := by
  induction requests using List.reverseRecOn with
  | nil => exact .start
  | append_singleton requests r ih =>
    unfold servedAll
    rw [List.foldl_append]
    exact .step ih trivial

theorem twoPasskeys_ids : verifiableIds twoPasskeys aliceAddress = some ["cred_a", "cred_b"] := by
  decide +kernel

theorem signsIn_twoPasskeys : SignsIn aliceAddress twoPasskeys := by
  obtain ⟨account, credentials, haccount, hcredentials, hids⟩ :=
    verifiableIds_eq_some.mp twoPasskeys_ids
  refine ⟨account, haccount, credentials, hcredentials, ?_⟩
  rintro rfl
  cases hids

theorem firstRevoked_leavesOne :
    RequestLeavesOne twoKeysPlatform twoPasskeys aliceStamp firstRevoked :=
  requestLeavesOne_revocation "cred_b" rfl twoPasskeys_ids (by simp) (by decide) (by decide)

theorem never_locked_out_first :
    SignsIn aliceAddress (serve twoKeysPlatform twoPasskeys aliceStamp primaryConfig firstRevoked) :=
  never_locked_out (.step .start firstRevoked_leavesOne) signsIn_twoPasskeys

/-- The approval puts a key without a credential in the place of the passkey. -/
theorem approval_locks_out :
    ∃ l l', Served twoKeysPlatform primaryConfig (fun _ _ _ => True)
        (.fresh none ⟨none, [], none⟩) l ∧ SignsIn aliceAddress l ∧
      Served twoKeysPlatform primaryConfig (fun _ _ _ => True) l l' ∧ ¬ SignsIn aliceAddress l' := by
  have hids : verifiableIds (servedAll twoPasskeys (firstRevoked :: rebinding)) aliceAddress =
      some [] := by decide +kernel
  rw [servedAll_cons] at hids
  refine ⟨serve twoKeysPlatform twoPasskeys aliceStamp primaryConfig firstRevoked, _,
    .step (served_all _ _) trivial, signsIn_serve signsIn_twoPasskeys firstRevoked_leavesOne,
    served_all _ rebinding, fun h => ?_⟩
  obtain ⟨account, credentials, haccount, hcredentials, hnil⟩ := verifiableIds_eq_some.mp hids
  obtain ⟨credentials', hcredentials', hne⟩ := h.canSignIn haccount
  rw [List.map_eq_nil_iff.mp hnil] at hcredentials
  exact hne (Except.ok.inj (hcredentials'.symm.trans hcredentials))

end SimpleL1.Node
