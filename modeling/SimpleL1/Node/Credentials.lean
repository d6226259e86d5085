import SimpleL1.Node.Revocation

/-!
# The credentials of an account

An account has a credential of its own, and those of its keys. A credential is
active until it is marked, in its record or by a key with its id; of records with
one id, the first one counts.
-/

namespace SimpleL1.Node

open SimpleL1.Js SimpleL1.Lib SimpleL1.Lib.Effect

/-! ## Active credentials -/

/-- `candidate.credentialId || candidate.credential_id`. -/
def credentialIdOf (candidate : Json) : Option Json :=
  or (candidate.prop "credentialId") (candidate.prop "credential_id")

def isMarked (status : Option Json) : Bool := strictEq status (some (.str "revoked"))

/-- The ids of the keys that are marked as revoked. -/
def revokedCredentialIds (keys : List Json) : JsM (List String) := do
  let revoked ← Js.filter (fun key => isMarked <$> member (some key) "status") keys
  let ids ← revoked.mapM fun key => strOrEmpty (credentialIdOf key)
  return ids.filter (· ≠ "")

/-- The record is not marked, and has an id. -/
def isCandidate (candidate : Json) : Bool :=
  candidate.truthy && !isMarked (candidate.prop "status")
    && !isMarked (candidate.prop "credential_status") && truthy (credentialIdOf candidate)

/-- The first record of each id that was not seen before. -/
def firstOfEach (seen : List String) : List (String × Json) → List Json
  | [] => []
  | (id, candidate) :: rest =>
    if seen.contains id then firstOfEach seen rest else candidate :: firstOfEach (id :: seen) rest

def accountCredentials (account : Fields) : JsM (List Json) := do
  let keys ← arrayOrEmpty (account.get "keys") "(account?.keys || []).filter"
  let revokedIds ← revokedCredentialIds keys
  let named ← ((Json.obj account :: keys).filter isCandidate).mapM fun candidate =>
    (·, candidate) <$> toStr (credentialIdOf candidate)
  return firstOfEach [] (named.filter fun c => !revokedIds.contains c.1)

def isVerifiable (candidate : Json) : Bool :=
  truthy (or (candidate.prop "credentialPublicKey") (candidate.prop "credential_public_key"))

def verifiableAccountCredentials (account : Fields) : JsM (List Json) :=
  (·.filter isVerifiable) <$> accountCredentials account

/-- The account has a credential to sign in with. -/
def CanSignIn (account : Fields) : Prop :=
  ∃ credentials, verifiableAccountCredentials account = .ok credentials ∧ credentials ≠ []

/-! ## What makes a credential count -/

def IsNamed (candidate : Json) : Prop := ∃ name, toStr (credentialIdOf candidate) = .ok name

def nameOf (candidate : Json) : String :=
  match toStr (credentialIdOf candidate) with
  | .ok name => name
  | .error _ => ""

/-- The key marks the credential `id`. -/
def marks (id : String) (key : Json) : Bool :=
  isMarked (key.prop "status") && truthy (credentialIdOf key) && nameOf key == id && id ≠ ""

/-- The record is a candidate for the credential `id`. -/
def bears (id : String) (candidate : Json) : Bool := isCandidate candidate && nameOf candidate == id

/-- The code can read every key, and every id it looks at in them and in the account itself. -/
structure Legible (own : Json) (keys : List Json) : Prop where
  nonNull : ∀ key ∈ keys, key ≠ .null
  marked : ∀ key ∈ keys, isMarked (key.prop "status") = true → IsNamed key
  candidates : ∀ c ∈ own :: keys, isCandidate c = true → IsNamed c

/-- The first record with the id `id` has a public key, and no key marks the id. -/
def Serves (own : Json) (keys : List Json) (id : String) : Prop :=
  keys.any (marks id) = false ∧ ((own :: keys).find? (bears id)).any isVerifiable = true

theorem mem_firstOfEach {seen : List String} {xs : List (String × Json)} {c : Json} :
    c ∈ firstOfEach seen xs ↔
      ∃ id, seen.contains id = false ∧ xs.find? (fun x => x.1 == id) = some (id, c) := by
  induction xs generalizing seen with
  | nil => simp [firstOfEach]
  | cons x xs ih =>
    obtain ⟨i, d⟩ := x
    unfold firstOfEach
    split
    · next hseen =>
      rw [ih]
      refine exists_congr fun id => and_congr_right fun hid => ?_
      have hne : (i == id) = false := by
        refine beq_false_of_ne fun heq => ?_
        rw [heq, hid] at hseen
        cases hseen
      rw [List.find?_cons, hne]
    · next hseen =>
      rw [List.mem_cons, ih]
      constructor
      · rintro (rfl | ⟨id, hid, hfind⟩)
        · exact ⟨i, by simpa using hseen, by simp⟩
        · rw [List.contains_cons, Bool.or_eq_false_iff] at hid
          refine ⟨id, hid.2, ?_⟩
          rw [List.find?_cons, BEq.comm, hid.1]
          exact hfind
      · rintro ⟨id, hid, hfind⟩
        rw [List.find?_cons] at hfind
        by_cases heq : i = id
        · rw [heq, beq_self_eq_true] at hfind
          cases hfind
          exact .inl rfl
        · rw [beq_false_of_ne heq] at hfind
          refine .inr ⟨id, ?_, hfind⟩
          rw [List.contains_cons, hid, beq_false_of_ne (Ne.symm heq)]
          rfl

theorem isNamed_of_falsy {c : Json} (h : truthy (credentialIdOf c) = false) : IsNamed c := by
  unfold IsNamed
  cases hid : credentialIdOf c with
  | none => exact ⟨_, rfl⟩
  | some v =>
    rw [hid] at h
    cases v with
    | arr xs => cases h
    | obj fs => cases h
    | _ => exact ⟨_, rfl⟩

theorem strOrEmpty_named {c : Json} {s : String} (h : strOrEmpty (credentialIdOf c) = .ok s) :
    s = if truthy (credentialIdOf c) then nameOf c else "" := by
  unfold strOrEmpty Js.or at h
  unfold nameOf
  split
  · next ht => rw [if_pos ht] at h; rw [h]
  · next ht => rw [if_neg ht] at h; cases h; rfl

theorem strOrEmpty_ok_iff {c : Json} : (∃ s, strOrEmpty (credentialIdOf c) = .ok s) ↔ IsNamed c := by
  unfold strOrEmpty Js.or
  by_cases ht : truthy (credentialIdOf c) = true
  · rw [if_pos ht]
    rfl
  · rw [if_neg ht]
    exact iff_of_true ⟨_, rfl⟩ (isNamed_of_falsy (by simpa using ht))

theorem isMarked_member {key : Json} {b : Bool}
    (h : isMarked <$> member (some key) "status" = .ok b) :
    key ≠ .null ∧ b = isMarked (key.prop "status") := by
  cases key with
  | null => cases h
  | _ => exact ⟨nofun, (Except.ok.inj h).symm⟩

theorem mem_filter_marked {keys marked : List Json}
    (h : Js.filter (fun key => isMarked <$> member (some key) "status") keys = .ok marked) :
    (∀ key ∈ keys, key ≠ .null) ∧ marked = keys.filter fun key => isMarked (key.prop "status") := by
  induction keys generalizing marked with
  | nil => cases h; exact ⟨nofun, rfl⟩
  | cons key keys ih =>
    obtain ⟨keep, hkeep, h⟩ := bind_eq_ok.mp h
    obtain ⟨rest, hrest, h⟩ := bind_eq_ok.mp h
    obtain ⟨hnull, rfl⟩ := isMarked_member hkeep
    obtain ⟨hall, rfl⟩ := ih hrest
    cases h
    refine ⟨List.forall_mem_cons.mpr ⟨hnull, hall⟩, ?_⟩
    rw [List.filter_cons]

/-- The marked ids, when every key can be read. -/
theorem revokedCredentialIds_eq_ok {keys : List Json} {ids : List String} :
    revokedCredentialIds keys = .ok ids ↔
      (∀ key ∈ keys, key ≠ .null) ∧
      (∀ key ∈ keys, isMarked (key.prop "status") = true → IsNamed key) ∧
      ids = ((keys.filter fun key => isMarked (key.prop "status")).map fun key =>
        if truthy (credentialIdOf key) then nameOf key else "").filter (· ≠ "") := by
  unfold revokedCredentialIds
  constructor
  · intro h
    obtain ⟨marked, hmarked, h⟩ := bind_eq_ok.mp h
    obtain ⟨names, hnames, h⟩ := bind_eq_ok.mp h
    cases h
    obtain ⟨hnull, rfl⟩ := mem_filter_marked hmarked
    obtain ⟨hall, rfl⟩ := (mapM_eq_ok fun _ _ => strOrEmpty_named).mp hnames
    refine ⟨hnull, fun key hkey hmark => ?_, rfl⟩
    exact strOrEmpty_ok_iff.mp (hall key (List.mem_filter.mpr ⟨hkey, hmark⟩))
  · rintro ⟨hnull, hnamed, rfl⟩
    have hfilter : Js.filter (fun key => isMarked <$> member (some key) "status") keys =
        .ok (keys.filter fun key => isMarked (key.prop "status")) := by
      refine filter_eq fun key hkey => ?_
      cases key with
      | null => exact absurd rfl (hnull _ hkey)
      | _ => rfl
    rw [hfilter, ok_bind, (mapM_eq_ok fun _ _ => strOrEmpty_named).mpr ⟨fun key hkey => ?_, rfl⟩]
    · rfl
    · obtain ⟨hkey, hmark⟩ := List.mem_filter.mp hkey
      exact strOrEmpty_ok_iff.mpr (hnamed key hkey hmark)

/-- The marked ids are those a key marks. -/
theorem contains_revokedIds {keys : List Json} {id : String} :
    (((keys.filter fun key => isMarked (key.prop "status")).map fun key =>
      if truthy (credentialIdOf key) then nameOf key else "").filter (· ≠ "")).contains id =
      keys.any (marks id) := by
  rw [Bool.eq_iff_iff]
  simp only [List.contains_iff_mem, List.mem_filter, List.mem_map, List.any_eq_true, marks,
    Bool.and_eq_true, beq_iff_eq, decide_eq_true_eq]
  constructor
  · rintro ⟨⟨key, ⟨hkey, hmark⟩, rfl⟩, hne⟩
    by_cases ht : truthy (credentialIdOf key) = true
    · rw [if_pos ht] at hne ⊢
      exact ⟨key, hkey, ⟨⟨hmark, ht⟩, rfl⟩, hne⟩
    · rw [if_neg ht] at hne
      exact absurd rfl hne
  · rintro ⟨key, hkey, ⟨⟨hmark, ht⟩, rfl⟩, hne⟩
    exact ⟨⟨key, ⟨hkey, hmark⟩, by rw [if_pos ht]⟩, hne⟩

/-- The candidates that are not marked, under their ids. -/
def activeCandidates (own : Json) (keys : List Json) : List (String × Json) :=
  (((own :: keys).filter isCandidate).map fun c => (nameOf c, c)).filter fun c =>
    !keys.any (marks c.1)

theorem accountCredentials_eq_ok {account : Fields} {credentials : List Json} :
    accountCredentials account = .ok credentials ↔
      ∃ keys, arrayOrEmpty (account.get "keys") "(account?.keys || []).filter" = .ok keys ∧
        Legible (.obj account) keys ∧
        credentials = firstOfEach [] (activeCandidates (.obj account) keys) := by
  have hname : ∀ c x, (·, c) <$> toStr (credentialIdOf c) = .ok x → x = (nameOf c, c) := by
    intro c x h
    obtain ⟨name, hc, rfl⟩ := map_eq_ok.mp h
    rw [nameOf, hc]
  unfold accountCredentials activeCandidates
  constructor
  · intro h
    obtain ⟨keys, hkeys, h⟩ := bind_eq_ok.mp h
    obtain ⟨ids, hids, h⟩ := bind_eq_ok.mp h
    obtain ⟨named, hnamed, h⟩ := bind_eq_ok.mp h
    cases h
    obtain ⟨hnull, hmarked, rfl⟩ := revokedCredentialIds_eq_ok.mp hids
    obtain ⟨hall, rfl⟩ := (mapM_eq_ok hname).mp hnamed
    refine ⟨keys, hkeys, ⟨hnull, hmarked, fun c hc hcand => ?_⟩, ?_⟩
    · obtain ⟨x, hx⟩ := hall c (List.mem_filter.mpr ⟨hc, hcand⟩)
      obtain ⟨name, hc, -⟩ := map_eq_ok.mp hx
      exact ⟨name, hc⟩
    · simp only [contains_revokedIds]
  · rintro ⟨keys, hkeys, h, rfl⟩
    rw [hkeys, ok_bind, revokedCredentialIds_eq_ok.mpr ⟨h.nonNull, h.marked, rfl⟩, ok_bind,
      (mapM_eq_ok hname).mpr ⟨fun c hc => ?_, rfl⟩]
    · simp only [contains_revokedIds]
      rfl
    · obtain ⟨hc, hcand⟩ := List.mem_filter.mp hc
      obtain ⟨name, hname⟩ := h.candidates c hc hcand
      exact ⟨_, map_eq_ok.mpr ⟨name, hname, rfl⟩⟩

theorem find_activeCandidates {own : Json} {keys : List Json} {id : String} {c : Json} :
    (activeCandidates own keys).find? (fun x => x.1 == id) = some (id, c) ↔
      keys.any (marks id) = false ∧ (own :: keys).find? (bears id) = some c := by
  unfold activeCandidates
  rw [List.find?_filter, List.find?_map, List.find?_filter]
  have hp : (fun a => decide (isCandidate a = true ∧ ((fun x : String × Json =>
      decide ((!keys.any (marks x.1)) = true ∧ (x.1 == id) = true)) ∘ fun c => (nameOf c, c)) a =
        true)) = fun a => !keys.any (marks id) && bears id a := by
    funext a
    rw [Bool.eq_iff_iff]
    simp only [bears, Function.comp_apply, decide_eq_true_eq, Bool.and_eq_true, beq_iff_eq]
    constructor
    · rintro ⟨hcand, hmark, rfl⟩
      exact ⟨hmark, hcand, rfl⟩
    · rintro ⟨hmark, hcand, rfl⟩
      exact ⟨hcand, hmark, rfl⟩
  rw [hp]
  by_cases hmark : keys.any (marks id) = true
  · have hnone : (own :: keys).find?
        (fun a => !keys.any (marks id) && bears id a) = none := by
      rw [List.find?_eq_none, hmark]
      exact fun _ _ => nofun
    rw [hnone, hmark]
    exact ⟨nofun, fun h => nomatch h.1⟩
  · rw [Bool.not_eq_true] at hmark
    rw [hmark]
    simp only [Bool.not_false, Bool.true_and, true_and, Option.map_eq_some_iff, Prod.mk.injEq]
    constructor
    · rintro ⟨c', hfind, -, rfl⟩
      exact hfind
    · intro hfind
      have hbears := List.find?_some hfind
      unfold bears at hbears
      exact ⟨c, hfind, beq_iff_eq.mp (Bool.and_eq_true _ _ ▸ hbears).2, rfl⟩

theorem serves_of_verifiable {account : Fields} {credentials : List Json}
    (h : verifiableAccountCredentials account = .ok credentials) :
    ∃ keys, arrayOrEmpty (account.get "keys") "(account?.keys || []).filter" = .ok keys ∧
      Legible (.obj account) keys ∧ ∀ c ∈ credentials, Serves (.obj account) keys (nameOf c) := by
  obtain ⟨all, hall, rfl⟩ := map_eq_ok.mp h
  obtain ⟨keys, hkeys, hlegible, rfl⟩ := accountCredentials_eq_ok.mp hall
  refine ⟨keys, hkeys, hlegible, fun c hc => ?_⟩
  obtain ⟨hc, hv⟩ := List.mem_filter.mp hc
  obtain ⟨id, -, hfind⟩ := mem_firstOfEach.mp hc
  obtain ⟨hmark, hfirst⟩ := find_activeCandidates.mp hfind
  have hbears := List.find?_some hfirst
  unfold bears at hbears
  rw [Bool.and_eq_true, beq_iff_eq] at hbears
  rw [hbears.2]
  exact ⟨hmark, by rw [hfirst]; exact hv⟩

/-- An account can sign in when it has a credential that serves. -/
theorem canSignIn_iff {account : Fields} :
    CanSignIn account ↔
      ∃ keys, arrayOrEmpty (account.get "keys") "(account?.keys || []).filter" = .ok keys ∧
        Legible (.obj account) keys ∧ ∃ id, Serves (.obj account) keys id := by
  unfold CanSignIn
  constructor
  · rintro ⟨credentials, h, hne⟩
    obtain ⟨keys, hkeys, hlegible, hserves⟩ := serves_of_verifiable h
    obtain ⟨c, hc⟩ := List.exists_mem_of_ne_nil _ hne
    exact ⟨keys, hkeys, hlegible, _, hserves c hc⟩
  · rintro ⟨keys, hkeys, hlegible, id, hmark, hfirst⟩
    obtain ⟨c, hc, hv⟩ := (Option.any_eq_true _ _).mp hfirst
    refine ⟨_, map_eq_ok.mpr ⟨_, accountCredentials_eq_ok.mpr ⟨keys, hkeys, hlegible, rfl⟩, rfl⟩, ?_⟩
    refine List.ne_nil_of_mem (a := c) (List.mem_filter.mpr ⟨mem_firstOfEach.mpr ?_, hv⟩)
    exact ⟨id, rfl, find_activeCandidates.mpr ⟨hmark, hc⟩⟩

/-! ## What changes of an account do to its credentials -/

/-- The fields the code looks at are the same. -/
structure SameCredential (c c' : Json) : Prop where
  truthy : c.truthy = c'.truthy
  status : c.prop "status" = c'.prop "status"
  credential_status : c.prop "credential_status" = c'.prop "credential_status"
  id : credentialIdOf c = credentialIdOf c'
  verifiable : isVerifiable c = isVerifiable c'

section
variable {account : Fields} {own own' : Json} {keys keys' others : List Json} {id : String}
  {record : Json}

theorem SameCredential.isCandidate {c c' : Json} (h : SameCredential c c') :
    isCandidate c = isCandidate c' := by
  unfold Node.isCandidate
  rw [h.truthy, h.status, h.credential_status, h.id]

theorem SameCredential.nameOf {c c' : Json} (h : SameCredential c c') : nameOf c = nameOf c' := by
  unfold Node.nameOf
  rw [h.id]

theorem SameCredential.isNamed {c c' : Json} (h : SameCredential c c') :
    IsNamed c ↔ IsNamed c' := by
  unfold IsNamed
  rw [h.id]

theorem SameCredential.bears {c c' : Json} (h : SameCredential c c') (id : String) :
    bears id c = bears id c' := by
  unfold Node.bears
  rw [h.isCandidate, h.nameOf]

theorem sameCredential_set (account : Fields) (k : String) (v : Json)
    (hk : k ∉ ["status", "credential_status", "credentialId", "credential_id",
      "credentialPublicKey", "credential_public_key"]) :
    SameCredential (.obj (account.set k v)) (.obj account) := by
  simp only [List.mem_cons, List.not_mem_nil, or_false, not_or] at hk
  obtain ⟨h1, h2, h3, h4, h5, h6⟩ := hk
  have hget : ∀ k', k ≠ k' → (account.set k v).get k' = account.get k' := fun k' hne => by
    rw [Fields.get_set, if_neg (Ne.symm hne)]
  exact ⟨rfl, hget _ h1, hget _ h2, by simp only [credentialIdOf, Json.prop_obj, hget _ h3, hget _ h4],
    by simp only [isVerifiable, Json.prop_obj, hget _ h5, hget _ h6]⟩

theorem Legible.congr (h : Legible own keys) (hown : SameCredential own' own) :
    Legible own' keys := by
  refine ⟨h.nonNull, h.marked, fun c hc hcand => ?_⟩
  rcases List.mem_cons.mp hc with rfl | hc
  · rw [hown.isCandidate] at hcand
    exact hown.isNamed.mpr (h.candidates own List.mem_cons_self hcand)
  · exact h.candidates c (List.mem_cons_of_mem _ hc) hcand

theorem Serves.congr (h : Serves own keys id) (hown : SameCredential own' own) :
    Serves own' keys id := by
  refine ⟨h.1, ?_⟩
  have hfirst := h.2
  rw [List.find?_cons] at hfirst ⊢
  rw [hown.bears]
  generalize bears id own = first at hfirst ⊢
  cases first with
  | true => exact hown.verifiable.trans hfirst
  | false => exact hfirst

/-- An account with the keys `keys` can sign in when one of them, or the account itself, serves. -/
theorem canSignIn_set_keys :
    CanSignIn (account.set "keys" (.arr keys)) ↔
      Legible (.obj account) keys ∧ ∃ id, Serves (.obj account) keys id := by
  have hsame := sameCredential_set account "keys" (.arr keys) (by decide)
  have hsame' : SameCredential (.obj account) (.obj (account.set "keys" (.arr keys))) :=
    ⟨hsame.truthy.symm, hsame.status.symm, hsame.credential_status.symm, hsame.id.symm,
      hsame.verifiable.symm⟩
  have harray : ∀ keys', arrayOrEmpty ((account.set "keys" (.arr keys)).get "keys")
      "(account?.keys || []).filter" = .ok keys' ↔ keys = keys' := by
    intro keys'
    rw [Fields.get_set, if_pos rfl]
    exact ⟨fun h => Except.ok.inj h, fun h => congrArg Except.ok h⟩
  rw [canSignIn_iff]
  constructor
  · rintro ⟨keys', hkeys, hlegible, id, hserves⟩
    cases (harray keys').mp hkeys
    exact ⟨hlegible.congr hsame', id, hserves.congr hsame'⟩
  · rintro ⟨hlegible, id, hserves⟩
    exact ⟨keys, (harray keys).mpr rfl, hlegible.congr hsame, id, hserves.congr hsame⟩

/-- A key more at the end. -/
theorem Legible.snoc (h : Legible own others) (hnull : record ≠ .null) (hnamed : IsNamed record) :
    Legible own (others ++ [record]) := by
  refine ⟨fun key hkey => ?_, fun key hkey hmarked => ?_, fun c hc hcand => ?_⟩
  · rcases List.mem_append.mp hkey with hkey | hkey
    · exact h.nonNull key hkey
    · rwa [List.mem_singleton.mp hkey]
  · rcases List.mem_append.mp hkey with hkey | hkey
    · exact h.marked key hkey hmarked
    · rwa [List.mem_singleton.mp hkey]
  · rw [← List.cons_append] at hc
    rcases List.mem_append.mp hc with hc | hc
    · exact h.candidates c hc hcand
    · rwa [List.mem_singleton.mp hc]

theorem any_marks_snoc (hmark : isMarked (record.prop "status") = false) :
    (others ++ [record]).any (marks id) = others.any (marks id) := by
  simp [marks, hmark]

theorem Serves.snoc (h : Serves own others id)
    (hmark : isMarked (record.prop "status") = false) : Serves own (others ++ [record]) id := by
  refine ⟨(any_marks_snoc hmark).trans h.1, ?_⟩
  rw [← List.cons_append, List.find?_append]
  obtain ⟨c, hc, hv⟩ := (Option.any_eq_true _ _).mp h.2
  rw [hc]
  exact hv

/-- Fewer keys are legible too. -/
theorem Legible.sub (h : Legible own keys) (hsub : ∀ key ∈ others, key ∈ keys) :
    Legible own others := by
  refine ⟨fun key hkey => h.nonNull key (hsub key hkey),
    fun key hkey => h.marked key (hsub key hkey), fun c hc => h.candidates c ?_⟩
  rcases List.mem_cons.mp hc with rfl | hc
  · exact List.mem_cons_self
  · exact List.mem_cons_of_mem _ (hsub c hc)

/-- The keys that are taken away have other ids. -/
theorem Serves.filter {p : Json → JsM Bool} (h : Serves own keys id)
    (hothers : Js.filter p keys = .ok others)
    (hdrop : ∀ key ∈ keys, p key = .ok false → bears id key = false) : Serves own others id := by
  refine ⟨?_, ?_⟩
  · rw [List.any_eq_false] at *
    exact fun key hkey => List.any_eq_false.mp h.1 key (mem_of_mem_filter hothers hkey)
  · have hfilter := filter_drops hothers hdrop
    have hfirst := h.2
    rw [List.find?_cons] at hfirst ⊢
    rw [← List.head?_filter] at hfirst ⊢
    rw [hfilter]
    exact hfirst

/-- Keys are replaced by ones that neither bear nor mark the id, where they did not bear it. -/
theorem Serves.map {f : Json → Json} (h : Serves own keys id)
    (hf : ∀ key ∈ keys, f key = key ∨
      bears id key = false ∧ bears id (f key) = false ∧ marks id (f key) = false) :
    Serves own (keys.map f) id := by
  refine ⟨?_, ?_⟩
  · rw [List.any_map, List.any_eq_false]
    intro key hkey
    rcases hf key hkey with heq | ⟨-, -, hmark⟩
    · rw [Function.comp_apply, heq]
      exact List.any_eq_false.mp h.1 key hkey
    · rw [Function.comp_apply, hmark]
      exact nofun
  · have hfirst := h.2
    have hfind : (keys.map f).find? (bears id) = keys.find? (bears id) := by
      clear hfirst h
      induction keys with
      | nil => rfl
      | cons key keys ih =>
        have ih := ih fun k hk => hf k (List.mem_cons_of_mem key hk)
        rw [List.map_cons, List.find?_cons, List.find?_cons, ih]
        rcases hf key List.mem_cons_self with heq | ⟨hno, hno', -⟩
        · rw [heq]
        · rw [hno, hno']
    rw [List.find?_cons] at hfirst ⊢
    rw [hfind]
    exact hfirst

end

end SimpleL1.Node
