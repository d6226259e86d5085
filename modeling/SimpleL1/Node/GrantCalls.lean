import SimpleL1.Node.Resolution
import SimpleL1.Node.Revocation
import SimpleL1.Node.Verdict

/-!
# Calls on the authority runtime

What each call leaves in the stores of the grants: a control grant is put under
its id into two of them, a revocation marks the first grant of an id, and the
other calls leave them alone. A call that throws leaves everything.
-/

namespace SimpleL1.Node

open SimpleL1.Js SimpleL1.Lib SimpleL1.Lib.Effect

inductive GrantCall where
  | createControlGrant (input : Fields) (now : Number)
  | registerCapability (input : Fields) (now : Number)
  | revokeControlGrant (input : Fields) (now : Number)
  | buildAuthorization (input : Fields) (now : Number)

def GrantCall.run (p : Platform) : GrantCall → LedgerM Fields
  | .createControlGrant input now => SimpleL1.Node.createControlGrant p input now
  | .registerCapability input now => SimpleL1.Node.registerCapability p input now
  | .revokeControlGrant input now => SimpleL1.Node.revokeControlGrant p input now
  | .buildAuthorization input now => SimpleL1.Node.buildAuthorization p input now

/-- The ledger after the calls, whether they return or throw. -/
def afterCalls (p : Platform) (ledger : Ledger) (calls : List GrantCall) : Ledger :=
  calls.foldl (fun ledger call => after (call.run p) ledger) ledger

/-- The store holds grants. -/
def Store.IsGrants (s : Store) : Prop := s = .control_grants ∨ s = .capability_grants

/-! ## Stores -/

section
variable {k : String} {x y : Fields} {xs : List Fields}

theorem mem_upsert_self (k : String) (x : Fields) (xs : List Fields) :
    x ∈ upsert k x (fun _ => x) xs := by
  induction xs with
  | nil => exact .head []
  | cons e es ih =>
    unfold upsert
    split
    · exact .head es
    · exact .tail e ih

theorem mem_of_mem_upsert (h : y ∈ upsert k x (fun _ => x) xs) : y = x ∨ y ∈ xs := by
  induction xs with
  | nil => exact .inl (List.mem_singleton.mp h)
  | cons e es ih =>
    unfold upsert at h
    split at h
    · rcases List.mem_cons.mp h with rfl | h
      · exact .inl rfl
      · exact .inr (.tail e h)
    · rcases List.mem_cons.mp h with rfl | h
      · exact .inr (.head es)
      · exact (ih h).imp id (.tail e)

theorem mem_of_mem_updateFirst {P : Fields → Bool} {f : Fields → Fields}
    (h : y ∈ updateFirst P f xs) : y ∈ xs ∨ ∃ x ∈ xs, P x = true ∧ y = f x := by
  induction xs with
  | nil => exact .inl h
  | cons e es ih =>
    unfold updateFirst at h
    split at h
    · next hP =>
      rcases List.mem_cons.mp h with rfl | h
      · exact .inr ⟨e, .head es, hP, rfl⟩
      · exact .inl (.tail e h)
    · rcases List.mem_cons.mp h with rfl | h
      · exact .inl (.head es)
      · rcases ih h with h | ⟨x, hx, hP, rfl⟩
        · exact .inl (.tail e h)
        · exact .inr ⟨x, .tail e hx, hP, rfl⟩

/-- The grant as it is marked. -/
def markedGrant (revocation x : Fields) : Fields :=
  assign (x.set "status" (.str "revoked")) "revoked_at" (revocation.get "revoked_at")

theorem isRevoked_markedGrant {revocation : Fields} : IsRevoked ((markedGrant revocation x).get "status") := by
  unfold markedGrant
  rw [get_assign (by decide), Fields.get_set, if_pos rfl]
  rfl

theorem id_markedGrant {revocation : Fields} : (markedGrant revocation x).get "id" = x.get "id" := by
  unfold markedGrant
  rw [get_assign (by decide), Fields.get_set, if_neg (by decide)]

theorem get_markedGrant {revocation : Fields} (hstatus : k ≠ "status") (hrevoked : k ≠ "revoked_at") :
    (markedGrant revocation x).get k = x.get k := by
  unfold markedGrant
  rw [get_assign hrevoked, Fields.get_set, if_neg hstatus]

theorem map_id_markRevoked {g : String} {revocation : Fields} :
    (markRevoked g revocation xs).map (·.get "id") = xs.map (·.get "id") := by
  unfold markRevoked
  induction xs with
  | nil => rfl
  | cons e es ih =>
    unfold updateFirst
    split
    · exact congrArg (· :: es.map (·.get "id")) id_markedGrant
    · exact congrArg (e.get "id" :: ·) ih

theorem mem_map_upsert {id : Option Json} :
    id ∈ (upsert "id" x (fun _ => x) xs).map (·.get "id") ↔
      id = x.get "id" ∨ id ∈ xs.map (·.get "id") := by
  induction xs with
  | nil => exact List.mem_singleton.trans (or_iff_left nofun).symm
  | cons e es ih =>
    unfold upsert
    split
    · next heq =>
      rw [List.map_cons, List.map_cons, List.mem_cons, List.mem_cons, eq_of_strictEq heq]
      tauto
    · rw [List.map_cons, List.map_cons, List.mem_cons, List.mem_cons, ih]
      tauto

/-- The artifact that is put in has an id that `===` finds again. -/
theorem nodup_upsert (hself : strictEq (x.get "id") (x.get "id") = true)
    (h : (xs.map (·.get "id")).Nodup) : ((upsert "id" x (fun _ => x) xs).map (·.get "id")).Nodup := by
  induction xs with
  | nil => exact List.nodup_singleton _
  | cons e es ih =>
    obtain ⟨hnot, htail⟩ := List.nodup_cons.mp h
    dsimp only at hnot
    unfold upsert
    split
    · next heq =>
      rw [eq_of_strictEq heq] at hnot
      exact List.nodup_cons.mpr ⟨hnot, htail⟩
    · next hne =>
      refine List.nodup_cons.mpr ⟨fun hmem => ?_, ih htail⟩
      obtain ⟨y, hy, hid⟩ := List.mem_map.mp hmem
      dsimp only at hid
      rcases mem_of_mem_upsert hy with rfl | hy
      · rw [← hid] at hne
        exact hne hself
      · exact hnot (List.mem_map.mpr ⟨y, hy, hid⟩)

end

/-! ## A grant that is built -/

section
variable {p : Platform} {input grant : Fields} {now : Number}

theorem assertCapabilityInput_eq_ok {capability scope : String} :
    assertCapabilityInput input = .ok (capability, scope) ↔
      strOrEmpty (input.get "capability") = .ok capability ∧
        strOrEmpty (input.get "scope") = .ok scope ∧ (capability ≠ "" ∧ scope ≠ "") ∧
          includes capability '*' = false ∧ includes scope '*' = false := by
  unfold assertCapabilityInput
  simp only [bind_eq_ok, throwUnless_eq_ok, pure_eq_ok, Except.ok.injEq, Prod.mk.injEq]
  constructor
  · rintro ⟨c, hc, s, hs, -, hne, -, hstar, rfl, rfl⟩
    exact ⟨hc, hs, by simpa using hne, by simpa using hstar⟩
  · rintro ⟨hc, hs, hne, hstar⟩
    exact ⟨capability, hc, scope, hs, (), by simpa using hne, (), by simpa using hstar, rfl, rfl⟩

theorem orArtifactId_truthy (e : Option Json) (tag : String) (v : Json) (n : Nat) :
    (orArtifactId p e tag v n).truthy = true := by
  refine orElse_truthy (decide_eq_true fun h => ?_)
  have hlength := congrArg String.length h
  unfold artifactId at hlength
  simp at hlength

theorem lowerOf_lower {e : Option Json} {fallback s : String} (h : lowerOf p e fallback = .ok s) :
    p.lower s = s := by
  obtain ⟨t, -, rfl⟩ := map_eq_ok.mp h
  exact p.lower_lower t

theorem keyAddressOrNull_gives {v : Option Json} {key : Json} (h : keyAddressOrNull p v = .ok key) :
    key = .null ∨ ∃ k, key = .str k ∧ normalizeKeyAddress p v = some k := by
  unfold keyAddressOrNull at h
  split at h
  · obtain ⟨k, hk, rfl⟩ := map_eq_ok.mp h
    exact .inr ⟨k, rfl, assertKeyAddress_eq_ok.mp hk⟩
  · cases h
    exact .inl rfl

/-- What a control grant that is built holds. -/
structure Built (p : Platform) (grant : Fields) : Prop where
  id : ∃ id, grant.get "id" = some id ∧ id.truthy = true
  entity : ∃ entity, grant.get "entity_l1_address" = some (.str entity) ∧
    normalizeEntityAddress p (some (.str entity)) = some entity
  key : grant.get "key_l1_address" = some .null ∨
    ∃ key, grant.get "key_l1_address" = some (.str key) ∧
      normalizeKeyAddress p (some (.str key)) = some key
  capability : ∃ capability, grant.get "capability" = some (.str capability) ∧
    capability ≠ "" ∧ includes capability '*' = false
  scope : ∃ scope, grant.get "scope" = some (.str scope) ∧ scope ≠ "" ∧ includes scope '*' = false
  policy : ∃ a : Policy, grant.get "policy" = some (.str a.text) ∧ p.lower a.text = a.text
  status : ∃ status, grant.get "status" = some (.str status) ∧ status ≠ "" ∧ p.lower status = status
  granted_at : ∃ v, grant.get "granted_at" = some v ∧ v.truthy = true

theorem buildControlGrant_gives (h : buildControlGrant p input now = .ok grant) :
    Built p grant := by
  unfold buildControlGrant at h
  simp only [bind_eq_ok, throwUnless_eq_ok, pure_eq_ok, Except.ok.injEq] at h
  obtain ⟨⟨capability, scope⟩, hcapability, entity, hentity, key, hkey, status, hstatus, policy,
    hpolicy, -, hstatuses, -, hpolicies, granted_at, hgranted, granted_by, -, rfl⟩ := h
  obtain ⟨-, -, ⟨hcap, hscope⟩, hcapstar, hscopestar⟩ := assertCapabilityInput_eq_ok.mp hcapability
  refine ⟨⟨_, rfl, orArtifactId_truthy _ _ _ _⟩, ⟨entity, rfl, ?_⟩, ?_, ⟨capability, rfl, hcap, hcapstar⟩,
    ⟨scope, rfl, hscope, hscopestar⟩, ?_, ?_, ⟨granted_at, rfl, orNow_truthy hgranted⟩⟩
  · exact normalizeEntityAddress_idem (assertEntityAddress_eq_ok.mp hentity)
  · rcases keyAddressOrNull_gives hkey with rfl | ⟨key, rfl, hnormal⟩
    · exact .inl rfl
    · exact .inr ⟨key, rfl, normalizeKeyAddress_idem hnormal⟩
  · have hlower := lowerOf_lower hpolicy
    simp only [List.contains_eq_mem, decide_eq_true_eq, List.mem_cons, List.not_mem_nil, or_false]
      at hpolicies
    rcases hpolicies with rfl | rfl | rfl | rfl
    · exact ⟨.deny, rfl, hlower⟩
    · exact ⟨.require_quorum, rfl, hlower⟩
    · exact ⟨.require_approval, rfl, hlower⟩
    · exact ⟨.allow, rfl, hlower⟩
  · refine ⟨status, rfl, ?_, lowerOf_lower hstatus⟩
    rintro rfl
    exact absurd hstatuses (by decide)

end

/-! ## What a call leaves -/

section
variable {p : Platform} {ledger : Ledger} {input grant : Fields} {now : Number} {s : Store}

theorem buildCapability_of_built (h : Built p grant) (now : Number) : ∃ capability,
    buildCapability p (Fields.ofOptions [("id", grant.get "capability_id"),
      ("capability", grant.get "capability"), ("scope", grant.get "scope"),
      ("created_at", grant.get "granted_at")]) now = .ok capability := by
  obtain ⟨capability, hcapability, hcapability_ne, hcapability_star⟩ := h.capability
  obtain ⟨scope, hscope, hscope_ne, hscope_star⟩ := h.scope
  obtain ⟨granted_at, hgranted_at, htruthy⟩ := h.granted_at
  have hinput : assertCapabilityInput (Fields.ofOptions [("id", grant.get "capability_id"),
      ("capability", grant.get "capability"), ("scope", grant.get "scope"),
      ("created_at", grant.get "granted_at")]) = .ok (capability, scope) := by
    rw [assertCapabilityInput_eq_ok]
    simp [hcapability, hscope, hcapability_ne, hscope_ne, hcapability_star, hscope_star]
  unfold buildCapability
  rw [hinput, ok_bind]
  simp [hgranted_at, orNow, htruthy]

theorem after_createControlGrant (ledger : Ledger) (h : buildControlGrant p input now = .ok grant) :
    (after (createControlGrant p input now) ledger).stores .control_grants =
        upsert "id" grant (fun _ => grant) (ledger.stores .control_grants) ∧
      (after (createControlGrant p input now) ledger).stores .capability_grants =
        upsert "id" (grantToCreGrant grant) (fun _ => grantToCreGrant grant)
          (ledger.stores .capability_grants) := by
  obtain ⟨capability, hcapability⟩ :=
    buildCapability_of_built (buildControlGrant_gives h) now
  unfold createControlGrant registerCapability
  constructor
  · simp [after_bind, h, hcapability, stores_setStore_of_ne]
  · simp [after_bind, h, hcapability, stores_setStore_of_ne]

theorem after_createControlGrant_error {e : Error} (h : buildControlGrant p input now = .error e) :
    after (createControlGrant p input now) ledger = ledger := by
  unfold createControlGrant
  rw [h]
  rfl

theorem after_registerCapability (hs : s.IsGrants) :
    (after (registerCapability p input now) ledger).stores s = ledger.stores s := by
  unfold registerCapability
  cases buildCapability p input now with
  | error e => rfl
  | ok capability => rcases hs with rfl | rfl <;> rfl

theorem outcome_buildAuthorization :
    outcome (buildAuthorization p input now) ledger = authorizationOf p ledger input now := by
  unfold buildAuthorization
  rw [outcome_bind, outcome_reading]
  cases authorizationOf p ledger input now <;> rfl

theorem after_buildAuthorization (hs : s.IsGrants) :
    (after (buildAuthorization p input now) ledger).stores s = ledger.stores s := by
  unfold buildAuthorization
  rw [after_bind, outcome_reading, after_reading]
  cases authorizationOf p ledger input now with
  | error e => rfl
  | ok authorization => rcases hs with rfl | rfl <;> rfl

theorem after_revokeControlGrant {grantId : String} {revocation : Fields}
    (h : revocationOf p ledger input now = .ok (grantId, revocation)) (hs : s.IsGrants) :
    (after (revokeControlGrant p input now) ledger).stores s =
      markRevoked grantId revocation (ledger.stores s) := by
  unfold revokeControlGrant
  rw [after_bind, outcome_reading, after_reading, h]
  rcases hs with rfl | rfl
  · simp [after_bind, stores_setStore_of_ne]
  · simp [after_bind, stores_setStore_of_ne]

theorem outcome_revokeControlGrant :
    outcome (revokeControlGrant p input now) ledger = Prod.snd <$> revocationOf p ledger input now := by
  unfold revokeControlGrant
  rw [outcome_bind, outcome_reading]
  cases revocationOf p ledger input now <;> rfl

theorem grant_id_of_revocationOf {g : String} {revocation : Fields}
    (h : revocationOf p ledger input now = .ok (g, revocation)) :
    revocation.get "grant_id" = some (.str g) := by
  unfold revocationOf at h
  simp only [bind_eq_ok, throwUnless_eq_ok, pure_eq_ok, Except.ok.injEq, Prod.mk.injEq] at h
  obtain ⟨g', -, -, -, -, -, revokedAt, -, revoked_by, -, rfl, rfl⟩ := h
  rfl

/-- The revocation that is returned names the grant it has marked. -/
theorem revokeControlGrant_eq_ok {ledger' : Ledger} {revocation : Fields} {g : String}
    (h : revokeControlGrant p input now ledger = .ok revocation ledger')
    (hid : revocation.get "grant_id" = some (.str g)) :
    revocationOf p ledger input now = .ok (g, revocation) ∧
      ∀ s : Store, s.IsGrants → ledger'.stores s = markRevoked g revocation (ledger.stores s) := by
  have houtcome := outcome_of_ok h
  rw [outcome_revokeControlGrant] at houtcome
  obtain ⟨⟨g', r⟩, hrevocation, hsame⟩ := map_eq_ok.mp houtcome
  cases hsame
  rw [grant_id_of_revocationOf hrevocation] at hid
  cases hid
  refine ⟨hrevocation, fun s hs => ?_⟩
  rw [← after_of_ok h, after_revokeControlGrant hrevocation hs]

theorem after_revokeControlGrant_error {e : Error} (h : revocationOf p ledger input now = .error e) :
    after (revokeControlGrant p input now) ledger = ledger := by
  unfold revokeControlGrant
  rw [after_bind, outcome_reading, after_reading, h]

end

/-! ## Authorizations -/

section
variable {p : Platform} {ledger : Ledger} {grant : Fields}

theorem mem_matched_grants {matchedGrants : List Fields} {id : Json}
    (h : id ∈ (decisionOf p matchedGrants).matched_grants) :
    ∃ grant ∈ matchedGrants, grant.get "id" = some id := by
  have hids : ∀ {grants : List Fields}, id ∈ grantIds grants → ∃ grant ∈ grants, grant.get "id" = some id :=
    fun h => List.mem_filterMap.mp (List.mem_filter.mp h).1
  unfold decisionOf at h
  split at h
  · cases h
  · split at h
    · obtain ⟨grant, hmem, hid⟩ := hids h
      exact ⟨grant, (List.mem_filter.mp hmem).1, hid⟩
    · exact hids h

@[simp] theorem id_grantToCreGrant : (grantToCreGrant grant).get "id" = grant.get "id" := by
  simp [grantToCreGrant]

@[simp] theorem status_grantToCreGrant : (grantToCreGrant grant).get "status" = grant.get "status" := by
  simp [grantToCreGrant]

/-- The authorization records the decision on what was asked for. -/
structure Records (p : Platform) (ledger : Ledger) (now : Number) (authorization : Fields)
    (cre : CreInput) (d : CapabilityDecision) : Prop where
  normal : cre.IsNormal p
  decided : decideCapability p (activeControlGrants ledger) cre.entity cre.keyJson cre.capability
    cre.scope now = .ok d
  entity : authorization.get "entity_l1_address" = some (.str cre.entity)
  key : authorization.get "proof_key_l1_address" = some cre.keyJson
  capability : authorization.get "capability" = some (.str cre.capability)
  scope : authorization.get "scope" = some (.str cre.scope)
  matched : authorization.get "matched_grants" = some (.arr d.matched_grants)
  allows : authorization.get "can_execute" = some (.bool true) → d.decision = "allow"

theorem authorizationOf_gives {input authorization : Fields} {now : Number}
    (h : authorizationOf p ledger input now = .ok authorization) :
    ∃ cre d, Records p ledger now authorization cre d := by
  unfold authorizationOf at h
  obtain ⟨entity, hentity, h⟩ := bind_eq_ok.mp h
  obtain ⟨key, hkey, h⟩ := bind_eq_ok.mp h
  obtain ⟨⟨capability, scope⟩, -, h⟩ := bind_eq_ok.mp h
  obtain ⟨d, hd, h⟩ := bind_eq_ok.mp h
  simp only [bind_eq_ok, pure_eq_ok, Except.ok.injEq] at h
  obtain ⟨binding, -, authorized_at, -, expires_at, -, rfl⟩ := h
  have hallow : ∀ {c : Bool}, some (Json.bool (d.decision == "allow" && c && binding.ok)) =
      some (Json.bool true) → d.decision = "allow" := by
    intro c hc
    simp only [Option.some.injEq, Json.bool.injEq, Bool.and_eq_true, beq_iff_eq] at hc
    exact hc.1.1
  have hentity := normalizeEntityAddress_idem (assertEntityAddress_eq_ok.mp hentity)
  rcases keyAddressOrNull_gives hkey with rfl | ⟨k, rfl, hnormal⟩
  · exact ⟨⟨entity, none, capability, scope⟩, d, ⟨hentity, nofun⟩, hd, rfl, rfl, rfl, rfl, rfl, hallow⟩
  · refine ⟨⟨entity, some k, capability, scope⟩, d, ⟨hentity, ?_⟩, hd, rfl, rfl, rfl, rfl, rfl, hallow⟩
    rintro _ ⟨⟩
    exact normalizeKeyAddress_idem hnormal

theorem mem_activeControlGrants (h : grant ∈ activeControlGrants ledger) :
    ∃ s : Store, s.IsGrants ∧ ∃ x ∈ ledger.stores s, grant = grantToCreGrant x := by
  obtain ⟨x, hx, rfl⟩ := List.mem_map.mp h
  rcases List.mem_append.mp hx with hx | hx
  · exact ⟨.control_grants, .inl rfl, x, hx, rfl⟩
  · exact ⟨.capability_grants, .inr rfl, x, (List.mem_filter.mp hx).1, rfl⟩

/-- A grant with a field of `matched_grants` as its id was taken. -/
theorem Records.exists_grant {now : Number} {authorization : Fields} {cre : CreInput}
    {d : CapabilityDecision} (h : Records p ledger now authorization cre d) {id : Json}
    (hid : id ∈ d.matched_grants) : ∃ grant ∈ activeControlGrants ledger,
      grant.get "id" = some id ∧ Applies p cre now grant := by
  obtain ⟨-, normalized, active, hmap, hfilter, rfl⟩ := (decideCapability_eq_ok h.normal).mp h.decided
  obtain ⟨g, hg, hid⟩ := mem_matched_grants hid
  obtain ⟨grant, hmem, hnormalized, happlies⟩ := (mem_matched hmap hfilter).mp hg
  exact ⟨grant, hmem, (normalizeGrant_gives hnormalized).id ▸ hid, happlies⟩

end

end SimpleL1.Node
