import SimpleL1.Node.GrantCalls
import SimpleL1.Node.Lineage

/-!
# Whether an authorization goes stale

On use an authorization is checked against the status of the grants it rests on.
Neither their expiry is looked at, nor what was created since: a grant that denies,
or a grant for something else under the id of one that was matched.
-/

namespace SimpleL1.Node

open SimpleL1.Js SimpleL1.Lib SimpleL1.Lib.Effect

/-! ## Grants and what an authorization asks for -/

/-- The grant is for what the authorization asks for. -/
structure Concerns (authorization grant : Fields) : Prop where
  entity : grant.get "entity_l1_address" = authorization.get "entity_l1_address"
  capability : grant.get "capability" = authorization.get "capability"
  scope : grant.get "scope" = authorization.get "scope"
  key : grant.get "key_l1_address" = some .null ∨
    grant.get "key_l1_address" = authorization.get "proof_key_l1_address"

def StatusActive (grant : Fields) : Prop := grant.get "status" = some (.str "active")

/-- Its expiry can be read where there is one. -/
def ExpiryReads (p : Platform) (grant : Fields) : Prop :=
  truthy (grant.get "expires_at") = true → ∃ e, newDate p (grant.get "expires_at") = .ok e

def Unexpired (p : Platform) (t : Number) (grant : Fields) : Prop :=
  truthy (grant.get "expires_at") = true →
    ∃ e, newDate p (grant.get "expires_at") = .ok e ∧ t.lt e = true

/-- The grant does not get in the way of the authorization at the time `t`. -/
structure Respects (p : Platform) (authorization : Fields) (t : Number) (grant : Fields) : Prop where
  readable : ExpiryReads p grant
  policy : Concerns authorization grant → Unexpired p t grant →
    grant.get "policy" = some (.str "allow")
  matched : ∀ ids, authorization.get "matched_grants" = some (.arr ids) → ∀ id ∈ ids,
    grant.get "id" = some id → Concerns authorization grant

structure AsksFor (authorization : Fields) (cre : CreInput) : Prop where
  entity : authorization.get "entity_l1_address" = some (.str cre.entity)
  key : authorization.get "proof_key_l1_address" = some cre.keyJson
  capability : authorization.get "capability" = some (.str cre.capability)
  scope : authorization.get "scope" = some (.str cre.scope)

theorem AsksFor.unique {authorization : Fields} {cre cre' : CreInput} (h : AsksFor authorization cre)
    (h' : AsksFor authorization cre') : cre = cre' := by
  have hentity := h.entity.symm.trans h'.entity
  have hkey := h.key.symm.trans h'.key
  have hcapability := h.capability.symm.trans h'.capability
  have hscope := h.scope.symm.trans h'.scope
  obtain ⟨entity, key, capability, scope⟩ := cre
  obtain ⟨entity', key', capability', scope'⟩ := cre'
  cases hentity
  cases hcapability
  cases hscope
  cases key <;> cases key' <;> cases hkey <;> rfl

/-- By the grants of the ledger what the authorization asks for is allowed. -/
def StillAllowed (p : Platform) (ledger : Ledger) (t : Number) (authorization : Fields) : Prop :=
  ∃ cre d, AsksFor authorization cre ∧ decideCapability p (activeControlGrants ledger) cre.entity
    cre.keyJson cre.capability cre.scope t = .ok d ∧ d.decision = "allow"

/-! ## Grants that were built -/

section
variable {p : Platform} {x : Fields} {cre : CreInput} {t : Number} {a : Policy}

theorem get_grantToCreGrant {k : String} (hk : k ∈ ["id", "entity_l1_address", "key_l1_address",
    "capability", "scope", "policy", "status", "expires_at"]) :
    (grantToCreGrant x).get k = x.get k := by
  simp only [List.mem_cons, List.not_mem_nil, or_false] at hk
  rcases hk with rfl | rfl | rfl | rfl | rfl | rfl | rfl | rfl <;> simp [grantToCreGrant]

theorem lowerOf_str {s fallback : String} (hs : s ≠ "") (hlower : p.lower s = s) :
    lowerOf p (some (.str s)) fallback = .ok s := by
  unfold lowerOf
  rw [or_str hs, toStr_str]
  exact congrArg Except.ok hlower

theorem Policy.text_ne_empty (a : Policy) : a.text ≠ "" := by cases a <;> decide

theorem Built.hasPolicy_iff (h : Built p x) :
    HasPolicy p (grantToCreGrant x) a ↔ x.get "policy" = some (.str a.text) := by
  obtain ⟨b, hb, hlower⟩ := h.policy
  unfold HasPolicy
  rw [get_grantToCreGrant (by decide), hb, lowerOf_str b.text_ne_empty hlower]
  simp

theorem Built.active_iff (h : Built p x) :
    lowerOf p ((grantToCreGrant x).get "status") "active" = .ok "active" ↔ StatusActive x := by
  obtain ⟨status, hstatus, hne, hlower⟩ := h.status
  unfold StatusActive
  rw [get_grantToCreGrant (by decide), hstatus, lowerOf_str hne hlower]
  simp

theorem ne_empty_of_normalizeEntityAddress {v : Option Json} {entity : String}
    (h : normalizeEntityAddress p v = some entity) : entity ≠ "" := by
  rintro rfl
  exact absurd (normalizeAddress_eq_some h).1 (by decide)

theorem Built.grantKey_eq (h : Built p x) {key : String}
    (hkey : x.get "key_l1_address" = some (.str key)) :
    grantKey p (grantToCreGrant x) = .ok (some key) := by
  rcases h.key with hnull | ⟨key', hget, hnormal⟩
  · rw [hnull] at hkey
    cases hkey
  · rw [hkey] at hget
    cases hget
    unfold grantKey
    rw [get_grantToCreGrant (by decide), hkey,
      lowerOf_str (ne_empty_of_normalizeKeyAddress hnormal) (normalizeAddress_eq_some hnormal).2]
    exact congrArg Except.ok hnormal

/-- The comparisons of the texts, on a grant that was built. -/
theorem Built.inForce_iff (h : Built p x) : InForce p cre t (grantToCreGrant x) ↔
    x.get "entity_l1_address" = some (.str cre.entity) ∧
      x.get "capability" = some (.str cre.capability) ∧ x.get "scope" = some (.str cre.scope) ∧
        StatusActive x ∧ Unexpired p t x := by
  obtain ⟨entity, hentity, hnormal⟩ := h.entity
  obtain ⟨capability, hcapability, -⟩ := h.capability
  obtain ⟨scope, hscope, -⟩ := h.scope
  have hlower : lowerOf p (some (.str entity)) "" = .ok entity :=
    lowerOf_str (ne_empty_of_normalizeEntityAddress hnormal) (normalizeAddress_eq_some hnormal).2
  have hexpiry : (grantToCreGrant x).get "expires_at" = x.get "expires_at" :=
    get_grantToCreGrant (by decide)
  rw [hentity, hcapability, hscope]
  constructor
  · rintro ⟨hentity', hcapability', hscope', hactive, hunexpired⟩
    rw [get_grantToCreGrant (by decide), hentity, hlower] at hentity'
    rw [get_grantToCreGrant (by decide), hcapability, strOrEmpty_str] at hcapability'
    rw [get_grantToCreGrant (by decide), hscope, strOrEmpty_str] at hscope'
    rw [hexpiry] at hunexpired
    rw [Except.ok.inj hentity', Except.ok.inj hcapability', Except.ok.inj hscope']
    exact ⟨rfl, rfl, rfl, h.active_iff.mp hactive, hunexpired⟩
  · rintro ⟨hentity', hcapability', hscope', hactive, hunexpired⟩
    cases hentity'
    cases hcapability'
    cases hscope'
    refine ⟨?_, ?_, ?_, h.active_iff.mpr hactive, ?_⟩
    · rw [get_grantToCreGrant (by decide), hentity, hlower]
    · rw [get_grantToCreGrant (by decide), hcapability, strOrEmpty_str]
    · rw [get_grantToCreGrant (by decide), hscope, strOrEmpty_str]
    · rw [hexpiry]
      exact hunexpired

theorem Built.key_iff (h : Built p x) :
    (truthy ((grantToCreGrant x).get "key_l1_address") = true →
      ∃ key, grantKey p (grantToCreGrant x) = .ok key ∧ (key = none ∨ cre.proofKey = key)) ↔
    x.get "key_l1_address" = some .null ∨ x.get "key_l1_address" = some cre.keyJson := by
  rw [get_grantToCreGrant (by decide)]
  rcases h.key with hnull | ⟨key, hkey, hnormal⟩
  · rw [hnull]
    exact ⟨fun _ => .inl rfl, fun _ => nofun⟩
  · have hne := ne_empty_of_normalizeKeyAddress hnormal
    rw [h.grantKey_eq hkey, hkey]
    unfold CreInput.keyJson
    constructor
    · intro himp
      obtain ⟨key', heq, hnone | hproof⟩ := himp (decide_eq_true hne)
      · cases hnone
        cases heq
      · cases heq
        rw [hproof]
        exact .inr rfl
    · rintro (hnull | hproof) -
      · cases hnull
      · refine ⟨some key, rfl, .inr ?_⟩
        cases hcre : cre.proofKey with
        | none =>
          rw [hcre] at hproof
          cases hproof
        | some key' =>
          rw [hcre] at hproof
          cases hproof
          rfl

/-- A grant that was built is taken when it is for what is asked for, active and not expired. -/
theorem Built.applies_iff (h : Built p x) {authorization : Fields} (hasks : AsksFor authorization cre) :
    Applies p cre t (grantToCreGrant x) ↔
      Concerns authorization x ∧ StatusActive x ∧ Unexpired p t x := by
  constructor
  · rintro ⟨hforce, hkey⟩
    obtain ⟨hentity, hcapability, hscope, hactive, hunexpired⟩ := h.inForce_iff.mp hforce
    refine ⟨⟨?_, ?_, ?_, ?_⟩, hactive, hunexpired⟩
    · rw [hentity, hasks.entity]
    · rw [hcapability, hasks.capability]
    · rw [hscope, hasks.scope]
    · rw [hasks.key]
      exact h.key_iff.mp hkey
  · rintro ⟨hconcerns, hactive, hunexpired⟩
    refine ⟨h.inForce_iff.mpr ⟨?_, ?_, ?_, hactive, hunexpired⟩, h.key_iff.mpr ?_⟩
    · rw [hconcerns.entity, hasks.entity]
    · rw [hconcerns.capability, hasks.capability]
    · rw [hconcerns.scope, hasks.scope]
    · rw [← hasks.key]
      exact hconcerns.key

theorem exists_isActiveGrant {g : Fields} : (∃ active, isActiveGrant p t g = .ok active) ↔
    (strictEq (g.get "status") (some (.str "active")) = true → ExpiryReads p g) := by
  unfold isActiveGrant ExpiryReads
  cases strictEq (g.get "status") (some (.str "active")) with
  | false => exact ⟨fun _ => nofun, fun _ => ⟨false, rfl⟩⟩
  | true =>
    cases truthy (g.get "expires_at") with
    | false => exact ⟨fun _ _ => nofun, fun _ => ⟨true, rfl⟩⟩
    | true =>
      show (∃ active, (newDate p (g.get "expires_at") >>= fun e => pure (t.lt e)) = .ok active) ↔ _
      cases newDate p (g.get "expires_at") with
      | error e =>
        refine ⟨nofun, fun h => ?_⟩
        obtain ⟨_, h⟩ := h rfl rfl
        cases h
      | ok e => exact ⟨fun _ _ _ => ⟨e, rfl⟩, fun _ => ⟨_, rfl⟩⟩

theorem Built.exists_normal (h : Built p x) : ∃ g, normalizeGrant p (grantToCreGrant x) = .ok g := by
  obtain ⟨entity, hentity, hnormal⟩ := h.entity
  obtain ⟨capability, hcapability, -⟩ := h.capability
  obtain ⟨scope, hscope, -⟩ := h.scope
  obtain ⟨a, ha, hlower⟩ := h.policy
  obtain ⟨status, hstatus, hne, hstatus_lower⟩ := h.status
  have hkey : ∃ key, (if truthy ((grantToCreGrant x).get "key_l1_address") = true then
      Json.str <$> lowerOf p ((grantToCreGrant x).get "key_l1_address") "" else pure .null) =
        .ok key := by
    rw [get_grantToCreGrant (by decide)]
    rcases h.key with hnull | ⟨key, hkey, hnormal⟩
    · exact ⟨.null, by rw [hnull]; rfl⟩
    · rw [hkey, lowerOf_str (ne_empty_of_normalizeKeyAddress hnormal) (normalizeAddress_eq_some hnormal).2]
      split <;> exact ⟨_, rfl⟩
  obtain ⟨key, hkey⟩ := hkey
  refine ⟨_, normalizeGrant_eq_ok.mpr
    ⟨entity, key, capability, scope, a.text, status, ?_, hkey, ?_, ?_, ?_, ?_, rfl⟩⟩
  · rw [get_grantToCreGrant (by decide), hentity,
      lowerOf_str (ne_empty_of_normalizeEntityAddress hnormal) (normalizeAddress_eq_some hnormal).2]
  · rw [get_grantToCreGrant (by decide), hcapability, strOrEmpty_str]
  · rw [get_grantToCreGrant (by decide), hscope, strOrEmpty_str]
  · rw [get_grantToCreGrant (by decide), ha, lowerOf_str a.text_ne_empty hlower]
  · rw [get_grantToCreGrant (by decide), hstatus, lowerOf_str hne hstatus_lower]

theorem Built.readable_iff (h : Built p x) :
    IsReadable p t (grantToCreGrant x) ↔ (StatusActive x → ExpiryReads p x) := by
  obtain ⟨g, hg⟩ := h.exists_normal
  have hnormal := normalizeGrant_gives hg
  have hexpiry : g.get "expires_at" = x.get "expires_at" :=
    hnormal.expires_at.trans (get_grantToCreGrant (by decide))
  have hiff : (∃ active, isActiveGrant p t g = .ok active) ↔ (StatusActive x → ExpiryReads p x) := by
    rw [exists_isActiveGrant, hnormal.status.strictEq_iff, h.active_iff]
    unfold ExpiryReads
    rw [hexpiry]
  rw [← hiff]
  constructor
  · rintro ⟨g', active, hg', hactive⟩
    rw [hg] at hg'
    cases hg'
    exact ⟨active, hactive⟩
  · rintro ⟨active, hactive⟩
    exact ⟨g, active, hg, hactive⟩

end

/-! ## The grants of a run -/

/-- The control grants were built, each has an id of its own, and the older table has no others. -/
structure GrantsBuilt (p : Platform) (ledger : Ledger) : Prop where
  built : ∀ x ∈ ledger.stores .control_grants, Built p x
  ids : ∀ x ∈ ledger.stores .control_grants, ∀ id, x.get "id" = some id → id.isObject = false
  distinct : ((ledger.stores .control_grants).map (·.get "id")).Nodup
  mirrored : ∀ id ∈ (ledger.stores .capability_grants).map (·.get "id"),
    id ∈ (ledger.stores .control_grants).map (·.get "id")

/-- The id of a grant that is created is no object, which `===` compares by reference. -/
def GrantCall.PlainId (p : Platform) : GrantCall → Prop
  | .createControlGrant input now => ∀ grant, buildControlGrant p input now = .ok grant →
      ∀ id, grant.get "id" = some id → id.isObject = false
  | _ => True

section
variable {p : Platform} {ledger : Ledger} {x y : Fields} {xs : List Fields}

theorem Built.strictEq_id (h : Built p x) (hid : ∀ id, x.get "id" = some id → id.isObject = false) :
    strictEq (x.get "id") (x.get "id") = true := by
  obtain ⟨id, hget, htruthy⟩ := h.id
  rw [hget]
  exact strictEq_self htruthy (hid id hget)

theorem sameRef_iff {a : Option Json} {b : Json} (hb : b.isObject = false) (htruthy : b.truthy = true) :
    sameRef a (some b) = true ↔ a = some b := by
  unfold sameRef
  constructor
  · intro h
    simp only [Bool.or_eq_true, Bool.and_eq_true, Option.any_some, hb, Bool.false_eq_true, and_false,
      false_and, or_false] at h
    exact eq_of_strictEq h
  · rintro rfl
    rw [strictEq_self htruthy hb, Bool.true_or]

/-- Under one id there is one grant. -/
theorem GrantsBuilt.eq_of_id (h : GrantsBuilt p ledger) (hx : x ∈ ledger.stores .control_grants)
    (hy : y ∈ ledger.stores .control_grants) (hid : x.get "id" = y.get "id") : x = y :=
  List.inj_on_of_nodup_map h.distinct hx hy hid

theorem GrantsBuilt.active_eq (h : GrantsBuilt p ledger) :
    activeControlGrants ledger = (ledger.stores .control_grants).map grantToCreGrant := by
  unfold activeControlGrants
  dsimp only
  rw [List.filter_eq_nil_iff.mpr, List.append_nil]
  intro y hy hlegacy
  obtain ⟨x, hx, hid⟩ := List.mem_map.mp (h.mirrored _ (List.mem_map_of_mem hy))
  obtain ⟨id, hget, htruthy⟩ := (h.built x hx).id
  have hsame : sameRef (x.get "id") (y.get "id") = true := by
    rw [← hid, hget, sameRef_iff (h.ids x hx id hget) htruthy]
  have hany : (ledger.stores .control_grants).any (fun c => sameRef (c.get "id") (y.get "id")) = true :=
    List.any_eq_true.mpr ⟨x, hx, hsame⟩
  rw [hany] at hlegacy
  cases hlegacy

theorem Built.markedGrant {revocation : Fields} (hlower : p.lower "revoked" = "revoked")
    (h : Built p x) : Built p (markedGrant revocation x) where
  id := by
    rw [id_markedGrant]
    exact h.id
  entity := by
    rw [get_markedGrant (by decide) (by decide)]
    exact h.entity
  key := by
    rw [get_markedGrant (by decide) (by decide)]
    exact h.key
  capability := by
    rw [get_markedGrant (by decide) (by decide)]
    exact h.capability
  scope := by
    rw [get_markedGrant (by decide) (by decide)]
    exact h.scope
  policy := by
    rw [get_markedGrant (by decide) (by decide)]
    exact h.policy
  status := ⟨"revoked", strictEq_str_iff.mp isRevoked_markedGrant, by decide, hlower⟩
  granted_at := by
    rw [get_markedGrant (by decide) (by decide)]
    exact h.granted_at

/-- Only the stores of the grants count. -/
theorem GrantsBuilt.congr (h : GrantsBuilt p ledger) {ledger' : Ledger}
    (hsame : ∀ s : Store, s.IsGrants → ledger'.stores s = ledger.stores s) : GrantsBuilt p ledger' := by
  have hcontrol := hsame .control_grants (.inl rfl)
  refine ⟨?_, ?_, ?_, ?_⟩
  · rw [hcontrol]
    exact h.built
  · rw [hcontrol]
    exact h.ids
  · rw [hcontrol]
    exact h.distinct
  · rw [hcontrol, hsame .capability_grants (.inr rfl)]
    exact h.mirrored

theorem GrantsBuilt.call (hlower : p.lower "revoked" = "revoked") (h : GrantsBuilt p ledger)
    {call : GrantCall} (hplain : call.PlainId p) : GrantsBuilt p (after (call.run p) ledger) := by
  cases call with
  | createControlGrant input now =>
    rw [GrantCall.run]
    cases hgrant : buildControlGrant p input now with
    | error e =>
      rw [after_createControlGrant_error hgrant]
      exact h
    | ok grant =>
      obtain ⟨hcontrol, hcre⟩ := after_createControlGrant ledger hgrant
      have hbuilt := buildControlGrant_gives hgrant
      have hid := hplain grant hgrant
      refine ⟨?_, ?_, ?_, ?_⟩
      · rw [hcontrol]
        intro x hx
        rcases mem_of_mem_upsert hx with rfl | hx
        · exact hbuilt
        · exact h.built x hx
      · rw [hcontrol]
        intro x hx
        rcases mem_of_mem_upsert hx with rfl | hx
        · exact hid
        · exact h.ids x hx
      · rw [hcontrol]
        exact nodup_upsert (hbuilt.strictEq_id hid) h.distinct
      · rw [hcontrol, hcre]
        intro id hmem
        rw [mem_map_upsert, id_grantToCreGrant] at hmem
        exact mem_map_upsert.mpr (hmem.imp_right (h.mirrored id))
  | registerCapability input now => exact h.congr fun s hs => after_registerCapability hs
  | revokeControlGrant input now =>
    rw [GrantCall.run]
    cases hrevocation : revocationOf p ledger input now with
    | error e =>
      rw [after_revokeControlGrant_error hrevocation]
      exact h
    | ok result =>
      have hcontrol := after_revokeControlGrant hrevocation (.inl rfl : Store.IsGrants .control_grants)
      have hcre := after_revokeControlGrant hrevocation (.inr rfl : Store.IsGrants .capability_grants)
      refine ⟨?_, ?_, ?_, ?_⟩
      · rw [hcontrol]
        intro x hx
        rcases mem_of_mem_updateFirst hx with hx | ⟨e, he, -, rfl⟩
        · exact h.built x hx
        · exact (h.built e he).markedGrant hlower
      · rw [hcontrol]
        intro x hx
        rcases mem_of_mem_updateFirst hx with hx | ⟨e, he, -, rfl⟩
        · exact h.ids x hx
        · intro id hid
          exact h.ids e he id (id_markedGrant.symm.trans hid)
      · rw [hcontrol, map_id_markRevoked]
        exact h.distinct
      · rw [hcontrol, hcre, map_id_markRevoked, map_id_markRevoked]
        exact h.mirrored
  | buildAuthorization input now => exact h.congr fun s hs => after_buildAuthorization hs

theorem GrantsBuilt.run (hlower : p.lower "revoked" = "revoked") (h : GrantsBuilt p ledger)
    {calls : List GrantCall} (hplain : ∀ call ∈ calls, call.PlainId p) :
    GrantsBuilt p (afterCalls p ledger calls) := by
  induction calls generalizing ledger with
  | nil => exact h
  | cons call calls ih =>
    obtain ⟨hcall, hcalls⟩ := List.forall_mem_cons.mp hplain
    exact ih (h.call hlower hcall) hcalls

theorem grantsBuilt_of_empty (hempty : ∀ s : Store, s.IsGrants → ledger.stores s = []) :
    GrantsBuilt p ledger := by
  have hcontrol := hempty .control_grants (.inl rfl)
  refine ⟨?_, ?_, ?_, ?_⟩
  · rw [hcontrol]
    exact nofun
  · rw [hcontrol]
    exact nofun
  · rw [hcontrol]
    exact .nil
  · rw [hempty .capability_grants (.inr rfl)]
    exact nofun

/-! ## The authorization and later calls -/

/-- Every active grant leaves the authorization alone. -/
def AllRespect (p : Platform) (authorization : Fields) (t : Number) (ledger : Ledger) : Prop :=
  ∀ x ∈ ledger.stores .control_grants, StatusActive x → Respects p authorization t x

/-- The grant that the call creates, when it is active, leaves the authorization alone. -/
def GrantCall.Respects (p : Platform) (authorization : Fields) (t : Number) : GrantCall → Prop
  | .createControlGrant input now => ∀ grant, buildControlGrant p input now = .ok grant →
      StatusActive grant → Node.Respects p authorization t grant
  | _ => True

variable {authorization : Fields} {t t₀ : Number} {cre : CreInput} {d : CapabilityDecision}

theorem AllRespect.call (h : AllRespect p authorization t ledger) {call : GrantCall}
    (hcall : call.Respects p authorization t) :
    AllRespect p authorization t (after (call.run p) ledger) := by
  cases call with
  | createControlGrant input now =>
    rw [GrantCall.run]
    cases hgrant : buildControlGrant p input now with
    | error e =>
      rw [after_createControlGrant_error hgrant]
      exact h
    | ok grant =>
      unfold AllRespect
      rw [(after_createControlGrant _ hgrant).1]
      intro x hx
      rcases mem_of_mem_upsert hx with rfl | hx
      · exact hcall x hgrant
      · exact h x hx
  | registerCapability input now =>
    unfold AllRespect
    rw [GrantCall.run, after_registerCapability (.inl rfl)]
    exact h
  | revokeControlGrant input now =>
    rw [GrantCall.run]
    cases hrevocation : revocationOf p ledger input now with
    | error e =>
      rw [after_revokeControlGrant_error hrevocation]
      exact h
    | ok result =>
      unfold AllRespect
      rw [after_revokeControlGrant hrevocation (.inl rfl)]
      intro x hx hactive
      rcases mem_of_mem_updateFirst hx with hx | ⟨e, -, -, rfl⟩
      · exact h x hx hactive
      · have hrevoked : (markedGrant result.2 e).get "status" = some (.str "revoked") :=
          strictEq_str_iff.mp isRevoked_markedGrant
        rw [show (markedGrant result.2 e).get "status" = some (.str "active") from hactive] at hrevoked
        exact absurd hrevoked (by simp)
  | buildAuthorization input now =>
    unfold AllRespect
    rw [GrantCall.run, after_buildAuthorization (.inl rfl)]
    exact h

/-- An authorization that allows rests on grants that all active ones leave alone, at its time and
later. -/
theorem Records.allRespect (h : Records p ledger t₀ authorization cre d)
    (hallows : d.decision = "allow") (hbuilt : GrantsBuilt p ledger) (hclock : t₀.le t = true) :
    AllRespect p authorization t ledger := by
  intro x hx hactive
  have hasks : AsksFor authorization cre := ⟨h.entity, h.key, h.capability, h.scope⟩
  have hmem : grantToCreGrant x ∈ activeControlGrants ledger := by
    rw [hbuilt.active_eq]
    exact List.mem_map_of_mem hx
  refine ⟨?_, fun hconcerns hunexpired => ?_, fun ids hids id hid hget => ?_⟩
  · exact (hbuilt.built x hx).readable_iff.mp
      (((exists_decision h.normal).mp ⟨d, h.decided⟩).2 _ hmem) hactive
  · -- The grant was not expired then either.
    have happlies : Applies p cre t₀ (grantToCreGrant x) := by
      refine ((hbuilt.built x hx).applies_iff hasks).mpr ⟨hconcerns, hactive, fun htruthy => ?_⟩
      obtain ⟨e, he, hlt⟩ := hunexpired htruthy
      exact ⟨e, he, Number.lt_of_le_of_lt hclock hlt⟩
    obtain ⟨a, ha, -⟩ := (hbuilt.built x hx).policy
    obtain ⟨b, hb, hdecision⟩ := decideCapability_decision h.normal h.decided
    have hb_allow : b = .allow := Policy.decision_injective (hdecision.symm.trans hallows)
    rw [hb_allow] at hb
    rcases hb with hgreatest | ⟨-, htop⟩
    · have hle := hgreatest.2 ⟨_, hmem, happlies, (hbuilt.built x hx).hasPolicy_iff.mpr ha⟩
      have ha_allow : a = .allow := le_antisymm hle (by cases a <;> decide)
      rw [ha, ha_allow]
      rfl
    · cases htop
  · rw [h.matched] at hids
    cases hids
    obtain ⟨g, hg, hgid, happlies⟩ := h.exists_grant hid
    rw [hbuilt.active_eq] at hg
    obtain ⟨y, hy, rfl⟩ := List.mem_map.mp hg
    rw [id_grantToCreGrant] at hgid
    cases hbuilt.eq_of_id hx hy (hget.trans hgid.symm)
    exact (((hbuilt.built x hx).applies_iff hasks).mp happlies).1

theorem AllRespect.run (h : AllRespect p authorization t ledger) {calls : List GrantCall}
    (hcalls : ∀ call ∈ calls, call.Respects p authorization t) :
    AllRespect p authorization t (afterCalls p ledger calls) := by
  induction calls generalizing ledger with
  | nil => exact h
  | cons call calls ih =>
    obtain ⟨hcall, hcalls⟩ := List.forall_mem_cons.mp hcalls
    exact ih (h.call hcall) hcalls

/-- A grant that the authorization rests on is not expired. -/
def RestsOnUnexpired (p : Platform) (ledger : Ledger) (t : Number) (authorization : Fields) : Prop :=
  ∃ ids, authorization.get "matched_grants" = some (.arr ids) ∧ ∃ id ∈ ids,
    ∃ x ∈ ledger.stores .control_grants, x.get "id" = some id ∧ Unexpired p t x

/-- What `verifyAuthorization` has looked at. -/
theorem GrantsBuilt.active_of_stored (h : GrantsBuilt p ledger) {id : Json}
    (hx : x ∈ ledger.stores .control_grants) (hid : x.get "id" = some id) {g : Fields}
    (hg : storedGrant ledger id = some g) (hactive : strictEq (g.get "status") (some (.str "active")) = true) :
    StatusActive x := by
  have hobject := h.ids x hx id hid
  have htruthy : id.truthy = true := by
    obtain ⟨id', hget, htruthy⟩ := (h.built x hx).id
    rw [hid] at hget
    cases hget
    exact htruthy
  have hfind : (findByRef (ledger.stores .control_grants) (some id)).isSome = true :=
    List.find?_isSome.mpr ⟨x, hx, (sameRef_iff hobject htruthy).mpr hid⟩
  obtain ⟨y, hy⟩ := Option.isSome_iff_exists.mp hfind
  unfold storedGrant at hg
  rw [hy, Option.some_or] at hg
  cases hg
  have hget : g.get "id" = some id :=
    (sameRef_iff hobject htruthy).mp
      (List.find?_some (p := fun c : Fields => sameRef (c.get "id") (some id)) hy)
  cases h.eq_of_id hx (List.mem_of_find?_eq_some hy) (hid.trans hget.symm)
  exact strictEq_str_iff.mp hactive

theorem stillAllowed (hbuilt : GrantsBuilt p ledger) (hrespect : AllRespect p authorization t ledger)
    {ledger₀ : Ledger} (h : Records p ledger₀ t₀ authorization cre d)
    (hexecutable : Executable p ledger t (.obj authorization))
    (hunexpired : RestsOnUnexpired p ledger t authorization) : StillAllowed p ledger t authorization := by
  have hasks : AsksFor authorization cre := ⟨h.entity, h.key, h.capability, h.scope⟩
  have hread : ∀ grant ∈ activeControlGrants ledger, IsReadable p t grant := by
    rw [hbuilt.active_eq]
    intro grant hgrant
    obtain ⟨x, hx, rfl⟩ := List.mem_map.mp hgrant
    exact (hbuilt.built x hx).readable_iff.mpr fun hactive => (hrespect x hx hactive).readable
  obtain ⟨d', hd'⟩ := (exists_decision h.normal).mpr ⟨((exists_decision h.normal).mp ⟨d, h.decided⟩).1, hread⟩
  refine ⟨cre, d', hasks, hd', ?_⟩
  obtain ⟨b, hb, hdecision⟩ := decideCapability_decision h.normal hd'
  have hallow : Prevails (policies p (Applies p cre t) (activeControlGrants ledger)) .allow := by
    refine .inl ⟨?_, ?_⟩
    · -- A grant that was matched is active, not expired and still for what is asked for.
      obtain ⟨ids, hids, id, hid, x, hx, hget, hexpiry⟩ := hunexpired
      obtain ⟨matched, hmatched, hall⟩ := hexecutable.grants
      rw [Json.prop_obj, hids] at hmatched
      cases hmatched
      obtain ⟨g, hg, hactive⟩ := hall id hid
      have hactive := hbuilt.active_of_stored hx hget hg hactive
      have hconcerns := (hrespect x hx hactive).matched ids hids id hid hget
      have hpolicy := (hrespect x hx hactive).policy hconcerns hexpiry
      refine ⟨grantToCreGrant x, ?_, ?_, (hbuilt.built x hx).hasPolicy_iff.mpr hpolicy⟩
      · rw [hbuilt.active_eq]
        exact List.mem_map_of_mem hx
      · exact ((hbuilt.built x hx).applies_iff hasks).mpr ⟨hconcerns, hactive, hexpiry⟩
    · rintro a ⟨grant, hgrant, happlies, hpolicy⟩
      rw [hbuilt.active_eq] at hgrant
      obtain ⟨x, hx, rfl⟩ := List.mem_map.mp hgrant
      obtain ⟨hconcerns, hactive, hexpiry⟩ := ((hbuilt.built x hx).applies_iff hasks).mp happlies
      have hget := (hrespect x hx hactive).policy hconcerns hexpiry
      have ha : HasPolicy p (grantToCreGrant x) .allow := (hbuilt.built x hx).hasPolicy_iff.mpr hget
      exact le_of_eq (hpolicy.unique ha)
  rw [hdecision, hb.unique hallow]
  rfl

end

/-- An authorization that is accepted is still allowed, when a grant it rests on is not expired, no
later call got in its way and the check is not earlier than the authorization. -/
theorem accepted_still_allowed (p : Platform) (hlower : p.lower "revoked" = "revoked") {start : Ledger}
    (hempty : ∀ s : Store, s.IsGrants → start.stores s = []) (before : List GrantCall)
    {input authorization : Fields} {t₀ : Number}
    (hbuild : outcome (buildAuthorization p input t₀) (afterCalls p start before) = .ok authorization)
    (later : List GrantCall) {v : Option Json} {t : Number}
    (hverify : verifyAuthorization p (afterCalls p start
      (before ++ .buildAuthorization input t₀ :: later)) v t = .ok (.ok (.obj authorization)))
    (hids : ∀ call ∈ before ++ later, call.PlainId p)
    (hlater : ∀ call ∈ later, call.Respects p authorization t) (hclock : t₀.le t = true)
    (hunexpired : RestsOnUnexpired p (afterCalls p start
      (before ++ .buildAuthorization input t₀ :: later)) t authorization) :
    StillAllowed p (afterCalls p start (before ++ .buildAuthorization input t₀ :: later)) t
      authorization := by
  obtain ⟨-, hexecutable⟩ := verifyAuthorization_eq_ok.mp hverify
  rw [outcome_buildAuthorization] at hbuild
  obtain ⟨cre, d, hrecords⟩ := authorizationOf_gives hbuild
  have hbuilt₀ := (grantsBuilt_of_empty hempty).run hlower fun call hmem =>
    hids call (List.mem_append_left later hmem)
  have hrespect₀ := hrecords.allRespect (hrecords.allows hexecutable.can_execute) hbuilt₀ hclock
  have hcalls : ∀ call ∈ GrantCall.buildAuthorization input t₀ :: later,
      call.PlainId p ∧ call.Respects p authorization t := by
    refine List.forall_mem_cons.mpr ⟨⟨trivial, trivial⟩, fun call hmem => ?_⟩
    exact ⟨hids call (List.mem_append_right before hmem), hlater call hmem⟩
  have hsplit : afterCalls p start (before ++ .buildAuthorization input t₀ :: later) =
      afterCalls p (afterCalls p start before) (.buildAuthorization input t₀ :: later) :=
    List.foldl_append
  rw [hsplit] at hexecutable hunexpired ⊢
  exact stillAllowed (hbuilt₀.run hlower fun call hmem => (hcalls call hmem).1)
    (hrespect₀.run fun call hmem => (hcalls call hmem).2) hrecords hexecutable hunexpired

/-! ## A grant that expires before the authorization -/

def policyLedger : Ledger :=
  (Ledger.fresh none ⟨none, [], none⟩).setStore .policy_decisions
    [[("id", .str "pdec_1"), ("decision", .str "allow")]]

theorem policyLedger_empty {s : Store} (hs : s.IsGrants) : policyLedger.stores s = [] := by
  rcases hs with rfl | rfl <;> rfl

def expiringGrant : GrantCall :=
  .createControlGrant [("id", .str "grant_1"), ("entity_l1_address", .str aliceAddress),
    ("capability", .str "pay"), ("scope", .str "shop"), ("expires_at", .num (.int 10))] (.int 0)

def payRequest : Fields :=
  [("entity_l1_address", .str aliceAddress), ("capability", .str "pay"), ("scope", .str "shop"),
    ("policy_decision_id", .str "pdec_1"), ("expires_at", .num (.int 100))]

def payLedger : Ledger :=
  afterCalls plainPlatform policyLedger [expiringGrant, .buildAuthorization payRequest (.int 0)]

/-- The authorization is accepted before and after its grant expires. -/
theorem payRequest_accepted : ∃ authorization,
    outcome (buildAuthorization plainPlatform payRequest (.int 0))
      (afterCalls plainPlatform policyLedger [expiringGrant]) = .ok authorization ∧
    (∀ t ∈ [5, 50], verifyAuthorization plainPlatform payLedger (some (.obj authorization)) (.int t) =
      .ok (.ok (.obj authorization))) ∧
    authorization.get "matched_grants" = some (.arr [.str "grant_1"]) ∧
    AsksFor authorization ⟨aliceAddress, none, "pay", "shop"⟩ := by
  refine ⟨_, rfl, ?_, rfl, rfl, rfl, rfl, rfl⟩
  exact List.forall_mem_cons.mpr ⟨rfl, List.forall_mem_singleton.mpr rfl⟩

theorem expiringGrant_plainId : expiringGrant.PlainId plainPlatform := by
  intro grant hgrant id hid
  obtain ⟨built, hbuilt, hget⟩ : ∃ built, buildControlGrant plainPlatform
      [("id", .str "grant_1"), ("entity_l1_address", .str aliceAddress), ("capability", .str "pay"),
        ("scope", .str "shop"), ("expires_at", .num (.int 10))] (.int 0) = .ok built ∧
      built.get "id" = some (.str "grant_1") := ⟨_, rfl, rfl⟩
  rw [hbuilt] at hgrant
  cases hgrant
  rw [hget] at hid
  cases hid
  rfl

theorem payLedger_unexpired : ∃ x ∈ payLedger.stores .control_grants,
    x.get "id" = some (.str "grant_1") ∧ Unexpired plainPlatform (.int 5) x :=
  ⟨_, .head [], rfl, fun _ => ⟨.int 10, rfl, rfl⟩⟩

theorem accepted_still_allowed_early : ∃ authorization,
    verifyAuthorization plainPlatform payLedger (some (.obj authorization)) (.int 5) =
      .ok (.ok (.obj authorization)) ∧
    StillAllowed plainPlatform payLedger (.int 5) authorization := by
  obtain ⟨authorization, hbuild, hverify, hmatched, -⟩ := payRequest_accepted
  refine ⟨authorization, hverify 5 (by decide), ?_⟩
  refine accepted_still_allowed plainPlatform rfl (fun s hs => policyLedger_empty hs) [expiringGrant] hbuild
    [] (hverify 5 (by decide)) (List.forall_mem_singleton.mpr expiringGrant_plainId) nofun rfl ?_
  exact ⟨_, hmatched, .str "grant_1", .head [], payLedger_unexpired⟩

/-- The grant has expired, and the authorization is accepted. -/
theorem expired_grant_accepted : ∃ authorization,
    outcome (buildAuthorization plainPlatform payRequest (.int 0))
      (afterCalls plainPlatform policyLedger [expiringGrant]) = .ok authorization ∧
    verifyAuthorization plainPlatform payLedger (some (.obj authorization)) (.int 50) =
      .ok (.ok (.obj authorization)) ∧
    ¬ StillAllowed plainPlatform payLedger (.int 50) authorization := by
  obtain ⟨authorization, hbuild, hverify, -, hasks⟩ := payRequest_accepted
  refine ⟨authorization, hbuild, hverify 50 (by decide), ?_⟩
  rintro ⟨cre, d, hasks', hd, hallow⟩
  have hdenied : decideCapability plainPlatform (activeControlGrants payLedger) aliceAddress .null "pay"
      "shop" (.int 50) = .ok ⟨"deny", [], ["NO_MATCHING_GRANT"]⟩ := rfl
  rw [← hasks.unique hasks', show CreInput.keyJson ⟨aliceAddress, none, "pay", "shop"⟩ = .null from rfl,
    hdenied] at hd
  cases hd
  exact absurd hallow (by decide)

end SimpleL1.Node
