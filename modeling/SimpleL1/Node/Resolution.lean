import SimpleL1.Lib.Precedence
import SimpleL1.Node.Keys
import SimpleL1.Node.Failure

/-!
# Capability resolution

By the protocol a decision is the policy that takes precedence among those of the
grants that match. `decideCapability` decides so, but for grants whose key is no
key address: it takes them for grants without a key.
-/

namespace SimpleL1.Node

open SimpleL1.Js SimpleL1.Lib

/-! ## Policies -/

inductive Policy where
  | allow
  | require_approval
  | require_quorum
  | deny
  deriving DecidableEq, Repr

namespace Policy

def rank : Policy → Nat
  | allow => 0
  | require_approval => 1
  | require_quorum => 2
  | deny => 3

theorem rank_injective : Function.Injective rank := by
  intro a b h
  cases a <;> cases b <;> first | rfl | cases h

instance linearOrder : LinearOrder Policy := LinearOrder.lift' rank rank_injective

theorem le_deny (a : Policy) : a ≤ deny := by cases a <;> decide

instance orderTop : OrderTop Policy where
  top := deny
  le_top := le_deny

def text : Policy → String
  | allow => "allow"
  | require_approval => "require_approval"
  | require_quorum => "require_quorum"
  | deny => "deny"

def decision : Policy → String
  | allow => "allow"
  | require_approval => "approval"
  | require_quorum => "quorum"
  | deny => "deny"

theorem text_injective : Function.Injective text := by
  intro a b h
  cases a <;> cases b <;> first | rfl | exact absurd h (by decide)

theorem decision_injective : Function.Injective decision := by
  intro a b h
  cases a <;> cases b <;> first | rfl | exact absurd h (by decide)

/-- All policies, those that take precedence first. -/
def order : List Policy := [deny, require_quorum, require_approval, allow]

theorem order_sorted : order.Pairwise fun a b => b ≤ a := by decide

theorem mem_order (a : Policy) : a ∈ order := by cases a <;> decide

end Policy

theorem precedence_eq : POLICY_PRECEDENCE = Policy.order.map fun a => (a.text, a.decision) := rfl

theorem exists_prevails (S : Set Policy) : ∃ a, Prevails S a := by
  classical
  have h := prevails_of_find? (p := fun a => decide (a ∈ S)) Policy.order_sorted
    fun a _ => Policy.mem_order a
  exact ⟨_, by simpa using h⟩

/-! ## What the protocol says -/

/-- What is asked for, with the addresses in normal form. -/
structure CreInput where
  entity : String
  proofKey : Option String
  capability : String
  scope : String

/-- The input has a valid entity address and no proof key or a valid one. -/
structure IsInput (p : Platform) (input : Fields) (cre : CreInput) : Prop where
  entity : normalizeEntityAddress p (input.get "entity_l1_address") = some cre.entity
  proofKey : (truthy (input.get "proof_key_l1_address") = false ∧ cre.proofKey = none) ∨
    (truthy (input.get "proof_key_l1_address") = true ∧ ∃ key, cre.proofKey = some key ∧
      normalizeKeyAddress p (input.get "proof_key_l1_address") = some key)
  capability : strOrEmpty (input.get "capability") = .ok cre.capability
  scope : strOrEmpty (input.get "scope") = .ok cre.scope

/-- The texts name one capability and one scope. -/
def CreInput.IsExact (cre : CreInput) : Prop :=
  (cre.capability ≠ "" ∧ cre.scope ≠ "") ∧
    includes cre.capability '*' = false ∧ includes cre.scope '*' = false

section
variable (p : Platform) (cre : CreInput) (now : Number) (grant : Fields)

/-- The grant is in force for the entity, the capability and the scope. -/
structure InForce : Prop where
  entity : lowerOf p (grant.get "entity_l1_address") "" = .ok cre.entity
  capability : strOrEmpty (grant.get "capability") = .ok cre.capability
  scope : strOrEmpty (grant.get "scope") = .ok cre.scope
  active : lowerOf p (grant.get "status") "active" = .ok "active"
  unexpired : truthy (grant.get "expires_at") = true →
    ∃ t, newDate p (grant.get "expires_at") = .ok t ∧ now.lt t = true

/-- The address of the key, if it is one. -/
def grantKey : JsM (Option String) :=
  (fun s => normalizeKeyAddress p (some (.str s))) <$> lowerOf p (grant.get "key_l1_address") ""

structure Matches : Prop extends InForce p cre now grant where
  key : truthy (grant.get "key_l1_address") = true →
    ∃ key, grantKey p grant = .ok (some key) ∧ cre.proofKey = some key

/-- The grant has a key that is no key address. -/
def KeyMalformed : Prop :=
  truthy (grant.get "key_l1_address") = true ∧ grantKey p grant = .ok none

def HasPolicy (a : Policy) : Prop := lowerOf p (grant.get "policy") "deny" = .ok a.text

end

/-- The policies of the grants in `S`. -/
def policies (p : Platform) (S : Fields → Prop) (grants : List Fields) : Set Policy :=
  {a | ∃ grant ∈ grants, S grant ∧ HasPolicy p grant a}

/-! ## What the code does -/

/-- `decideCapability` on the object its callers pass. -/
def decideCapabilityFor (p : Platform) (grants : List Fields) (input : Fields) (now : Number) :
    JsM CapabilityDecision := do
  let entityAddress ← assertEntityAddress p (input.get "entity_l1_address")
  let proofKeyAddress ← keyAddressOrNull p (input.get "proof_key_l1_address")
  let capability ← strOrEmpty (input.get "capability")
  let scope ← strOrEmpty (input.get "scope")
  decideCapability p grants entityAddress proofKeyAddress capability scope now

def CreInput.keyJson (cre : CreInput) : Json :=
  match cre.proofKey with
  | none => .null
  | some key => .str key

section
variable {p : Platform} {cre : CreInput} {now : Number} {grants : List Fields} {grant g : Fields}

/-- The last filters on a normalised grant. -/
def appliesTo (p : Platform) (cre : CreInput) (grant : Fields) : Bool :=
  strictEq (grant.get "entity_l1_address") (some (.str cre.entity))
    && strictEq (grant.get "capability") (some (.str cre.capability))
    && strictEq (grant.get "scope") (some (.str cre.scope))
    && match normalizeKeyAddress p (grant.get "key_l1_address") with
      | none => true
      | some key => strictEq (some cre.keyJson) (some (.str key))

/-- What follows from the grants that are left. -/
def decisionOf (p : Platform) (matchedGrants : List Fields) : CapabilityDecision :=
  if matchedGrants.isEmpty then ⟨"deny", [], ["NO_MATCHING_GRANT"]⟩
  else
    match POLICY_PRECEDENCE.find? fun policy =>
        matchedGrants.any fun grant => strictEq (grant.get "policy") (some (.str policy.1)) with
    | some (policy, decision) => ⟨decision,
        grantIds (matchedGrants.filter fun g => strictEq (g.get "policy") (some (.str policy))),
        ["MATCHED_" ++ p.upper policy ++ "_GRANT"]⟩
    | none => ⟨"deny", grantIds matchedGrants, ["NO_SUPPORTED_POLICY"]⟩

/-- The input is in normal form already. -/
structure CreInput.IsNormal (p : Platform) (cre : CreInput) : Prop where
  entity : normalizeEntityAddress p (some (.str cre.entity)) = some cre.entity
  proofKey : ∀ key ∈ cre.proofKey, normalizeKeyAddress p (some (.str key)) = some key

theorem normalizeAddress_eq_some {tag : String} {n : Nat} {v : Option Json} {a : String}
    (h : normalizeAddress p tag n v = some a) : matchesAddress tag n a = true ∧ p.lower a = a := by
  unfold normalizeAddress at h
  split at h
  · dsimp only at h
    split at h
    · next hmatches =>
      cases h
      exact ⟨hmatches, p.lower_lower _⟩
    · cases h
  · cases h

theorem ne_empty_of_normalizeKeyAddress {v : Option Json} {key : String}
    (h : normalizeKeyAddress p v = some key) : key ≠ "" := by
  rintro rfl
  exact absurd (normalizeAddress_eq_some h).1 (by decide)

theorem keyAddressOrNull_keyJson (hcre : cre.IsNormal p) :
    keyAddressOrNull p (some cre.keyJson) = .ok cre.keyJson := by
  unfold CreInput.keyJson
  cases hkey : cre.proofKey with
  | none => rfl
  | some key =>
    have hnormal := hcre.proofKey key hkey
    unfold keyAddressOrNull
    dsimp only
    rw [truthy_str, if_pos (decide_eq_true (ne_empty_of_normalizeKeyAddress hnormal)),
      assertKeyAddress_eq_ok.mpr hnormal]
    rfl

theorem decideCapability_eq_ok (hcre : cre.IsNormal p) {d : CapabilityDecision} :
    decideCapability p grants cre.entity cre.keyJson cre.capability cre.scope now = .ok d ↔
      cre.IsExact ∧ ∃ normalized active, grants.mapM (normalizeGrant p) = .ok normalized ∧
        filter (isActiveGrant p now) normalized = .ok active ∧
          d = decisionOf p (active.filter (appliesTo p cre)) := by
  unfold decideCapability
  rw [assertEntityAddress_eq_ok.mpr hcre.entity, ok_bind, keyAddressOrNull_keyJson hcre, ok_bind,
    throwUnless_bind_eq_ok, throwUnless_bind_eq_ok, ← and_assoc]
  refine and_congr ?_ ?_
  · unfold CreInput.IsExact
    simp
  · rw [bind_eq_ok]
    refine exists_congr fun normalized => ?_
    rw [bind_eq_ok, ← exists_and_left]
    refine exists_congr fun active => and_congr_right fun _ => and_congr_right fun _ => ?_
    have hend : (.ok (decisionOf p (active.filter (appliesTo p cre))) : JsM _) = .ok d ↔
        d = decisionOf p (active.filter (appliesTo p cre)) :=
      ⟨fun h => (Except.ok.inj h).symm, fun h => congrArg Except.ok h.symm⟩
    refine Iff.trans (iff_of_eq (congrArg (· = Except.ok d) ?_)) hend
    generalize hresult : decisionOf p (active.filter (appliesTo p cre)) = result
    rw [List.filter_congr (q := appliesTo p cre) (l := active) ?happlies, ← hresult]
    case happlies => exact fun _ _ => rfl
    unfold decisionOf
    dsimp only
    split
    · rfl
    · generalize List.find? _ _ = found
      cases found <;> rfl

/-! ## Normalised grants -/

theorem normalizeGrant_eq_ok :
    normalizeGrant p grant = .ok g ↔ ∃ entity key capability scope policy status,
      lowerOf p (grant.get "entity_l1_address") "" = .ok entity ∧
      (if truthy (grant.get "key_l1_address") then
        Json.str <$> lowerOf p (grant.get "key_l1_address") "" else pure .null) = .ok key ∧
      strOrEmpty (grant.get "capability") = .ok capability ∧
      strOrEmpty (grant.get "scope") = .ok scope ∧
      lowerOf p (grant.get "policy") "deny" = .ok policy ∧
      lowerOf p (grant.get "status") "active" = .ok status ∧
      g = merge grant [("entity_l1_address", .str entity), ("key_l1_address", key),
        ("capability", .str capability), ("scope", .str scope), ("policy", .str policy),
        ("status", .str status)] := by
  unfold normalizeGrant
  simp only [ite_bind, bind_eq_ok, pure_eq_ok, Except.ok.injEq, exists_and_left, eq_comm (a := g)]

theorem isActiveGrant_eq_true :
    isActiveGrant p now g = .ok true ↔ strictEq (g.get "status") (some (.str "active")) = true ∧
      (truthy (g.get "expires_at") = true →
        ∃ t, newDate p (g.get "expires_at") = .ok t ∧ now.lt t = true) := by
  unfold isActiveGrant
  cases strictEq (g.get "status") (some (.str "active")) with
  | false => exact ⟨nofun, nofun⟩
  | true =>
    cases truthy (g.get "expires_at") with
    | false => exact ⟨fun _ => ⟨rfl, nofun⟩, fun _ => rfl⟩
    | true =>
      simp only [Bool.not_true, Bool.false_eq_true, if_false, bind_eq_ok, pure_eq_ok,
        Except.ok.injEq, true_and, true_implies]

/-- The value is the text that `x` reads. -/
def ReadsAs (x : JsM String) (v : Option Json) : Prop := ∃ s, x = .ok s ∧ v = some (.str s)

theorem ReadsAs.strictEq_iff {x : JsM String} {v : Option Json} (h : ReadsAs x v) {s : String} :
    strictEq v (some (.str s)) = true ↔ x = .ok s := by
  obtain ⟨t, rfl, rfl⟩ := h
  rw [strictEq_str, beq_iff_eq, Except.ok.injEq]

/-- The grant `g` is `grant` with the fields that are compared read as texts. -/
structure Normalized (p : Platform) (grant g : Fields) : Prop where
  entity : ReadsAs (lowerOf p (grant.get "entity_l1_address") "") (g.get "entity_l1_address")
  key : (truthy (grant.get "key_l1_address") = true ∧
      ReadsAs (lowerOf p (grant.get "key_l1_address") "") (g.get "key_l1_address")) ∨
    (truthy (grant.get "key_l1_address") = false ∧ g.get "key_l1_address" = some .null)
  capability : ReadsAs (strOrEmpty (grant.get "capability")) (g.get "capability")
  scope : ReadsAs (strOrEmpty (grant.get "scope")) (g.get "scope")
  policy : ReadsAs (lowerOf p (grant.get "policy") "deny") (g.get "policy")
  status : ReadsAs (lowerOf p (grant.get "status") "active") (g.get "status")
  expires_at : g.get "expires_at" = grant.get "expires_at"
  id : g.get "id" = grant.get "id"

theorem normalizeGrant_gives (h : normalizeGrant p grant = .ok g) : Normalized p grant g := by
  obtain ⟨entity, key, capability, scope, policy, status, hentity, hkey, hcapability, hscope,
    hpolicy, hstatus, rfl⟩ := normalizeGrant_eq_ok.mp h
  refine ⟨⟨entity, hentity, ?_⟩, ?_, ⟨capability, hcapability, ?_⟩, ⟨scope, hscope, ?_⟩,
    ⟨policy, hpolicy, ?_⟩, ⟨status, hstatus, ?_⟩, ?_, ?_⟩
  case refine_2 =>
    cases htruthy : truthy (grant.get "key_l1_address") with
    | false =>
      rw [htruthy] at hkey
      cases hkey
      exact .inr ⟨rfl, by simp [merge, Fields.get_set]⟩
    | true =>
      rw [htruthy] at hkey
      obtain ⟨s, hs, rfl⟩ := map_eq_ok.mp hkey
      exact .inl ⟨rfl, s, hs, by simp [merge, Fields.get_set]⟩
  all_goals simp [merge, Fields.get_set]

/-- The grants that the code takes. -/
structure Applies (p : Platform) (cre : CreInput) (now : Number) (grant : Fields) : Prop
    extends InForce p cre now grant where
  key : truthy (grant.get "key_l1_address") = true →
    ∃ key, grantKey p grant = .ok key ∧ (key = none ∨ cre.proofKey = key)

theorem strictEq_keyJson {key : String} :
    strictEq (some cre.keyJson) (some (.str key)) = true ↔ cre.proofKey = some key := by
  unfold CreInput.keyJson
  cases cre.proofKey with
  | none => exact ⟨nofun, nofun⟩
  | some key' => rw [strictEq_str, beq_iff_eq, Option.some.injEq]

theorem Normalized.key_iff (h : Normalized p grant g) :
    (match normalizeKeyAddress p (g.get "key_l1_address") with
      | none => true
      | some key => strictEq (some cre.keyJson) (some (.str key))) = true ↔
    (truthy (grant.get "key_l1_address") = true →
      ∃ key, grantKey p grant = .ok key ∧ (key = none ∨ cre.proofKey = key)) := by
  rcases h.key with ⟨htruthy, s, hs, hget⟩ | ⟨htruthy, hget⟩
  · have hkey : grantKey p grant = .ok (normalizeKeyAddress p (g.get "key_l1_address")) := by
      unfold grantKey
      rw [hs, hget]
      rfl
    rw [htruthy, hkey]
    cases normalizeKeyAddress p (g.get "key_l1_address") with
    | none => exact ⟨fun _ _ => ⟨none, rfl, .inl rfl⟩, fun _ => rfl⟩
    | some key =>
      refine strictEq_keyJson.trans ?_
      constructor
      · exact fun hproof _ => ⟨some key, rfl, .inr hproof⟩
      · intro himp
        obtain ⟨key', heq, hnone | hproof⟩ := himp rfl
        · cases hnone
          cases heq
        · cases heq
          exact hproof
  · rw [htruthy, hget]
    exact ⟨fun _ => nofun, fun _ => rfl⟩

theorem applies_iff (h : Normalized p grant g) :
    isActiveGrant p now g = .ok true ∧ appliesTo p cre g = true ↔ Applies p cre now grant := by
  unfold appliesTo
  simp only [Bool.and_eq_true]
  rw [isActiveGrant_eq_true, h.status.strictEq_iff, h.entity.strictEq_iff, h.capability.strictEq_iff,
    h.scope.strictEq_iff, h.key_iff, h.expires_at]
  constructor
  · rintro ⟨⟨hactive, hunexpired⟩, ⟨⟨hentity, hcapability⟩, hscope⟩, hkey⟩
    exact ⟨⟨hentity, hcapability, hscope, hactive, hunexpired⟩, hkey⟩
  · rintro ⟨⟨hentity, hcapability, hscope, hactive, hunexpired⟩, hkey⟩
    exact ⟨⟨hactive, hunexpired⟩, ⟨⟨hentity, hcapability⟩, hscope⟩, hkey⟩

theorem mem_matched {normalized active : List Fields} (hmap : grants.mapM (normalizeGrant p) = .ok normalized)
    (hfilter : filter (isActiveGrant p now) normalized = .ok active) :
    g ∈ active.filter (appliesTo p cre) ↔
      ∃ grant ∈ grants, normalizeGrant p grant = .ok g ∧ Applies p cre now grant := by
  rw [List.mem_filter, mem_filter hfilter, mem_mapM hmap]
  constructor
  · rintro ⟨⟨⟨grant, hmem, hnormal⟩, hactive⟩, happlies⟩
    exact ⟨grant, hmem, hnormal, (applies_iff (normalizeGrant_gives hnormal)).mp ⟨hactive, happlies⟩⟩
  · rintro ⟨grant, hmem, hnormal, happlied⟩
    obtain ⟨hactive, happlies⟩ := (applies_iff (normalizeGrant_gives hnormal)).mpr happlied
    exact ⟨⟨⟨grant, hmem, hnormal⟩, hactive⟩, happlies⟩

/-! ## The decision -/

/-- The policy that takes precedence decides. -/
theorem decisionOf_decision (matchedGrants : List Fields) :
    ∃ a, Prevails {a : Policy | (matchedGrants.any fun g =>
        strictEq (g.get "policy") (some (.str a.text))) = true} a ∧
      (decisionOf p matchedGrants).decision = a.decision := by
  refine ⟨_, prevails_of_find? Policy.order_sorted fun a _ => Policy.mem_order a, ?_⟩
  unfold decisionOf
  rw [precedence_eq, List.find?_map]
  split
  · next hempty =>
    rw [List.isEmpty_iff.mp hempty]
    rfl
  · cases hfind : Policy.order.find? fun a =>
      matchedGrants.any fun g => strictEq (g.get "policy") (some (.str a.text)) with
    | none =>
      rw [show Policy.order.find? ((fun policy : String × String => matchedGrants.any fun g =>
        strictEq (g.get "policy") (some (.str policy.1))) ∘ fun a => (a.text, a.decision)) = none
        from hfind]
      rfl
    | some a =>
      rw [show Policy.order.find? ((fun policy : String × String => matchedGrants.any fun g =>
        strictEq (g.get "policy") (some (.str policy.1))) ∘ fun a => (a.text, a.decision)) = some a
        from hfind]
      rfl

theorem any_policy_iff {matchedGrants : List Fields} {S : Fields → Prop}
    (h : ∀ g, g ∈ matchedGrants ↔ ∃ grant ∈ grants, normalizeGrant p grant = .ok g ∧ S grant)
    (hread : ∀ grant ∈ grants, ∃ g, normalizeGrant p grant = .ok g) :
    {a : Policy | (matchedGrants.any fun g => strictEq (g.get "policy") (some (.str a.text))) = true} =
      policies p S grants := by
  ext a
  show (matchedGrants.any _) = true ↔ ∃ grant ∈ grants, S grant ∧ HasPolicy p grant a
  rw [List.any_eq_true]
  constructor
  · rintro ⟨g, hg, hpolicy⟩
    obtain ⟨grant, hmem, hnormal, hS⟩ := (h g).mp hg
    exact ⟨grant, hmem, hS, (normalizeGrant_gives hnormal).policy.strictEq_iff.mp hpolicy⟩
  · rintro ⟨grant, hmem, hS, hpolicy⟩
    obtain ⟨g, hnormal⟩ := hread grant hmem
    exact ⟨g, (h g).mpr ⟨grant, hmem, hnormal, hS⟩,
      (normalizeGrant_gives hnormal).policy.strictEq_iff.mpr hpolicy⟩

/-- The decision is the policy that takes precedence among those of the grants that are taken. -/
theorem decideCapability_decision (hcre : cre.IsNormal p) {d : CapabilityDecision}
    (h : decideCapability p grants cre.entity cre.keyJson cre.capability cre.scope now = .ok d) :
    ∃ a, Prevails (policies p (Applies p cre now) grants) a ∧ d.decision = a.decision := by
  obtain ⟨-, normalized, active, hmap, hfilter, rfl⟩ := (decideCapability_eq_ok hcre).mp h
  rw [← any_policy_iff (fun _ => mem_matched hmap hfilter) (exists_mapM.mp ⟨normalized, hmap⟩)]
  exact decisionOf_decision _

/-- The fields that are compared can be read as texts, and the expiry as a time where it is read. -/
def IsReadable (p : Platform) (now : Number) (grant : Fields) : Prop :=
  ∃ g active, normalizeGrant p grant = .ok g ∧ isActiveGrant p now g = .ok active

theorem exists_decision (hcre : cre.IsNormal p) :
    (∃ d, decideCapability p grants cre.entity cre.keyJson cre.capability cre.scope now = .ok d) ↔
      cre.IsExact ∧ ∀ grant ∈ grants, IsReadable p now grant := by
  simp only [decideCapability_eq_ok hcre]
  constructor
  · rintro ⟨d, hexact, normalized, active, hmap, hfilter, -⟩
    refine ⟨hexact, fun grant hmem => ?_⟩
    obtain ⟨g, hg⟩ := exists_mapM.mp ⟨normalized, hmap⟩ grant hmem
    obtain ⟨keep, hkeep⟩ := exists_filter.mp ⟨active, hfilter⟩ g ((mem_mapM hmap).mpr ⟨grant, hmem, hg⟩)
    exact ⟨g, keep, hg, hkeep⟩
  · rintro ⟨hexact, hread⟩
    obtain ⟨normalized, hmap⟩ := exists_mapM.mpr fun grant hmem =>
      (hread grant hmem).imp fun g ⟨_, hg, _⟩ => hg
    have hactive : ∀ g ∈ normalized, ∃ keep, isActiveGrant p now g = .ok keep := by
      intro g hg
      obtain ⟨grant, hmem, hnormal⟩ := (mem_mapM hmap).mp hg
      obtain ⟨g', keep, hnormal', hkeep⟩ := hread grant hmem
      rw [hnormal] at hnormal'
      cases hnormal'
      exact ⟨keep, hkeep⟩
    obtain ⟨active, hfilter⟩ := exists_filter.mpr hactive
    exact ⟨_, hexact, normalized, active, hmap, hfilter, rfl⟩

/-! ## Addresses in normal form -/

theorem isWhite_of_isHexDigit {c : Char} (h : isHexDigit c = true) : isWhite c = false := by
  have hrange : 48 ≤ c.toNat ∧ c.toNat ≤ 102 := by
    simp only [isHexDigit, Char.isDigit, Bool.or_eq_true, Bool.and_eq_true, decide_eq_true_eq] at h
    rcases h with ⟨hlow, hhigh⟩ | ⟨hlow, hhigh⟩
    · exact ⟨UInt32.le_iff_toNat_le.mp hlow, (UInt32.le_iff_toNat_le.mp hhigh).trans (by decide)⟩
    · exact ⟨le_trans (by decide) (UInt32.le_iff_toNat_le.mp hlow), UInt32.le_iff_toNat_le.mp hhigh⟩
  simp [isWhite]
  omega

theorem toLower_of_isWhite {c : Char} (h : isWhite c = true) : c.toLower = c := by
  unfold Char.toLower
  refine dif_neg fun ⟨hlow, hhigh⟩ => ?_
  have hlow : 65 ≤ c.toNat := UInt32.le_iff_toNat_le.mp hlow
  have hhigh : c.toNat ≤ 90 := UInt32.le_iff_toNat_le.mp hhigh
  simp [isWhite] at h
  omega

theorem trim_of_matchesAddress {tag : String} {n : Nat} {s : String}
    (htag : tag.toList.all (!isWhite ·) = true) (h : matchesAddress tag n s = true) : trim s = s := by
  refine trim_of_none fun c hc => Bool.eq_false_of_not_eq_true fun hwhite => ?_
  unfold matchesAddress at h
  simp only [Bool.and_eq_true, beq_iff_eq] at h
  obtain ⟨⟨htake, -⟩, hhex⟩ := h
  have hmem : c ∈ s.toList.map Char.toLower :=
    List.mem_map.mpr ⟨c, hc, toLower_of_isWhite hwhite⟩
  rw [← List.take_append_drop tag.length (s.toList.map Char.toLower), htake] at hmem
  have hnot : isWhite c = false := by
    rcases List.mem_append.mp hmem with hmem | hmem
    · simpa using List.all_eq_true.mp htag c hmem
    · exact isWhite_of_isHexDigit (List.all_eq_true.mp hhex c hmem)
  rw [hwhite] at hnot
  cases hnot

/-- An address is its own normal form. -/
theorem normalizeAddress_idem {tag : String} {n : Nat} {v : Option Json} {a : String}
    (htag : tag.toList.all (!isWhite ·) = true) (h : normalizeAddress p tag n v = some a) :
    normalizeAddress p tag n (some (.str a)) = some a := by
  obtain ⟨hmatches, hlower⟩ := normalizeAddress_eq_some h
  unfold normalizeAddress
  dsimp only
  rw [trim_of_matchesAddress htag hmatches, hlower, if_pos hmatches]

theorem normalizeEntityAddress_idem {v : Option Json} {a : String}
    (h : normalizeEntityAddress p v = some a) : normalizeEntityAddress p (some (.str a)) = some a :=
  normalizeAddress_idem (by decide) h

theorem normalizeKeyAddress_idem {v : Option Json} {a : String}
    (h : normalizeKeyAddress p v = some a) : normalizeKeyAddress p (some (.str a)) = some a :=
  normalizeAddress_idem (by decide) h

theorem IsInput.isNormal {input : Fields} (h : IsInput p input cre) : cre.IsNormal p where
  entity := normalizeEntityAddress_idem h.entity
  proofKey key hkey := by
    rcases h.proofKey with ⟨-, hnone⟩ | ⟨-, key', hsome, hnormal⟩
    · rw [hnone] at hkey
      cases hkey
    · rw [hsome] at hkey
      cases hkey
      exact normalizeKeyAddress_idem hnormal

theorem IsInput.decide_eq {input : Fields} (h : IsInput p input cre) :
    decideCapabilityFor p grants input now =
      decideCapability p grants cre.entity cre.keyJson cre.capability cre.scope now := by
  have hkey : keyAddressOrNull p (input.get "proof_key_l1_address") = .ok cre.keyJson := by
    unfold keyAddressOrNull CreInput.keyJson
    rcases h.proofKey with ⟨hfalsy, hnone⟩ | ⟨htruthy, key, hsome, hnormal⟩
    · rw [hfalsy, hnone]
      rfl
    · rw [htruthy, hsome, assertKeyAddress_eq_ok.mpr hnormal]
      rfl
  unfold decideCapabilityFor
  rw [assertEntityAddress_eq_ok.mpr h.entity, ok_bind, hkey, ok_bind, h.capability, ok_bind, h.scope,
    ok_bind]

/-! ## What the code decides by the protocol -/

theorem applies_iff_matches {grant : Fields} :
    Applies p cre now grant ↔ Matches p cre now grant ∨ (InForce p cre now grant ∧ KeyMalformed p grant) := by
  constructor
  · intro h
    cases htruthy : truthy (grant.get "key_l1_address") with
    | false => exact .inl ⟨h.toInForce, fun htrue => nomatch htruthy.symm.trans htrue⟩
    | true =>
      obtain ⟨key, hkey, rfl | hproof⟩ := h.key htruthy
      · exact .inr ⟨h.toInForce, htruthy, hkey⟩
      · cases key with
        | none => exact .inr ⟨h.toInForce, htruthy, hkey⟩
        | some key => exact .inl ⟨h.toInForce, fun _ => ⟨key, hkey, hproof⟩⟩
  · rintro (h | ⟨hforce, htruthy, hkey⟩)
    · refine ⟨h.toInForce, fun htruthy => ?_⟩
      obtain ⟨key, hkey, hproof⟩ := h.key htruthy
      exact ⟨some key, hkey, .inr hproof⟩
    · exact ⟨hforce, fun _ => ⟨none, hkey, .inl rfl⟩⟩

theorem HasPolicy.unique {a b : Policy} (h : HasPolicy p grant a) (h' : HasPolicy p grant b) : a = b :=
  Policy.text_injective (Except.ok.inj (h.symm.trans h'))

/-- The policies of the grants that are taken though their key is no key address. -/
def loosePolicies (p : Platform) (cre : CreInput) (now : Number) (grants : List Fields) : Set Policy :=
  policies p (fun grant => InForce p cre now grant ∧ KeyMalformed p grant) grants

theorem policies_applies :
    policies p (Applies p cre now) grants =
      policies p (Matches p cre now) grants ∪ loosePolicies p cre now grants := by
  ext a
  constructor
  · rintro ⟨grant, hmem, happlied, hpolicy⟩
    rcases applies_iff_matches.mp happlied with h | h
    · exact .inl ⟨grant, hmem, h, hpolicy⟩
    · exact .inr ⟨grant, hmem, h, hpolicy⟩
  · rintro (⟨grant, hmem, h, hpolicy⟩ | ⟨grant, hmem, h, hpolicy⟩)
    · exact ⟨grant, hmem, applies_iff_matches.mpr (.inl h), hpolicy⟩
    · exact ⟨grant, hmem, applies_iff_matches.mpr (.inr h), hpolicy⟩

theorem Matches.not_malformed (h : Matches p cre now grant) : ¬ KeyMalformed p grant := by
  rintro ⟨htruthy, hnone⟩
  obtain ⟨key, hkey, -⟩ := h.key htruthy
  rw [hnone] at hkey
  cases hkey

/-- Grants that do not match, the order and repetitions change no policy. -/
theorem policies_matches_eq {grants' : List Fields} (hsub : ∀ grant ∈ grants', grant ∈ grants)
    (hall : ∀ grant ∈ grants, Matches p cre now grant → grant ∈ grants') :
    policies p (Matches p cre now) grants' = policies p (Matches p cre now) grants := by
  ext a
  constructor
  · rintro ⟨grant, hmem, hmatches, hpolicy⟩
    exact ⟨grant, hsub grant hmem, hmatches, hpolicy⟩
  · rintro ⟨grant, hmem, hmatches, hpolicy⟩
    exact ⟨grant, hall grant hmem hmatches, hmatches, hpolicy⟩

end

/-- The decision is that of the policy that takes precedence among the grants that match; it stays so
for every order and repetition of the grants, and without grants that do not match. -/
def DecidesAsSpecified (p : Platform) (grants : List Fields) (input : Fields) (cre : CreInput)
    (now : Number) : Prop :=
  ∀ grants' : List Fields, (∀ grant ∈ grants', grant ∈ grants) →
    (∀ grant ∈ grants, Matches p cre now grant → grant ∈ grants') →
      ∃ d a, decideCapabilityFor p grants' input now = .ok d ∧
        Prevails (policies p (Matches p cre now) grants) a ∧ d.decision = a.decision

/-- The texts are exact, all grants can be read, and of the grants in force none whose key is no key
address outranks those that match. -/
structure WellKeyed (p : Platform) (grants : List Fields) (cre : CreInput) (now : Number) : Prop where
  exact : cre.IsExact
  readable : ∀ grant ∈ grants, IsReadable p now grant
  keys : ∀ grant ∈ grants, InForce p cre now grant → KeyMalformed p grant →
    ∀ a, HasPolicy p grant a → Outranked (policies p (Matches p cre now) grants) a

section
variable {p : Platform} {cre : CreInput} {now : Number} {grants : List Fields} {input : Fields}

theorem wellKeyed_of_decides (hinput : IsInput p input cre)
    (h : DecidesAsSpecified p grants input cre now) : WellKeyed p grants cre now := by
  obtain ⟨d, -, hd, -⟩ := h grants (fun _ => id) fun _ hmem _ => hmem
  rw [hinput.decide_eq] at hd
  obtain ⟨hexact, hread⟩ := (exists_decision hinput.isNormal).mp ⟨d, hd⟩
  refine ⟨hexact, hread, fun grant hmem hforce hkey a hpolicy => ?_⟩
  -- The grants that match, and this one.
  classical
  have hsub : ∀ g ∈ grant :: grants.filter (fun g => Matches p cre now g), g ∈ grants := by
    refine List.forall_mem_cons.mpr ⟨hmem, fun g hg => (List.mem_filter.mp hg).1⟩
  have hkept : ∀ g ∈ grants, Matches p cre now g →
      g ∈ grant :: grants.filter (fun g => Matches p cre now g) := fun g hg hmatches =>
    .tail grant (List.mem_filter.mpr ⟨hg, decide_eq_true hmatches⟩)
  obtain ⟨d, b, hd, hb, hdecision⟩ := h _ hsub hkept
  rw [hinput.decide_eq] at hd
  obtain ⟨c, hc, hdecision'⟩ := decideCapability_decision hinput.isNormal hd
  cases Policy.decision_injective (hdecision.symm.trans hdecision')
  refine hb.outranked ?_
  rw [policies_applies, policies_matches_eq hsub hkept] at hc
  rwa [show loosePolicies p cre now _ = {a} from ?_] at hc
  ext b
  constructor
  · rintro ⟨g, hg, ⟨-, hloose⟩, hpolicy'⟩
    rcases List.mem_cons.mp hg with rfl | hg
    · exact hpolicy'.unique hpolicy
    · exact absurd hloose (of_decide_eq_true (List.mem_filter.mp hg).2).not_malformed
  · rintro rfl
    exact ⟨grant, .head _, ⟨hforce, hkey⟩, hpolicy⟩

theorem decides_of_wellKeyed (hinput : IsInput p input cre) (h : WellKeyed p grants cre now) :
    DecidesAsSpecified p grants input cre now := by
  intro grants' hsub hall
  have hread : ∀ grant ∈ grants', IsReadable p now grant := fun grant hmem =>
    h.readable grant (hsub grant hmem)
  obtain ⟨d, hd⟩ := (exists_decision hinput.isNormal).mpr ⟨h.exact, hread⟩
  obtain ⟨c, hc, hdecision⟩ := decideCapability_decision hinput.isNormal hd
  obtain ⟨a, ha⟩ := exists_prevails (policies p (Matches p cre now) grants)
  refine ⟨d, a, hinput.decide_eq.trans hd, ha, ?_⟩
  rw [hdecision]
  refine congrArg Policy.decision (hc.unique ?_)
  rw [policies_applies, policies_matches_eq hsub hall]
  refine ha.union fun b hb => ?_
  obtain ⟨grant, hmem, ⟨hforce, hkey⟩, hpolicy⟩ := hb
  exact h.keys grant (hsub grant hmem) hforce hkey b hpolicy

end

theorem decides_as_specified_iff (p : Platform) (grants : List Fields) (input : Fields)
    {cre : CreInput} (hinput : IsInput p input cre) (now : Number) :
    DecidesAsSpecified p grants input cre now ↔ WellKeyed p grants cre now :=
  ⟨wellKeyed_of_decides hinput, decides_of_wellKeyed hinput⟩

/-! ## A grant with a mistyped key -/

/-- Alice may pay in the shop, if the key is right. -/
def payGrant (key : Json) : Fields :=
  [("id", .str "grant_1"), ("entity_l1_address", .str aliceAddress), ("key_l1_address", key),
    ("capability", .str "pay"), ("scope", .str "shop"), ("policy", .str "allow")]

def payInput : Fields :=
  [("entity_l1_address", .str aliceAddress), ("capability", .str "pay"), ("scope", .str "shop")]

def payCre : CreInput := ⟨aliceAddress, none, "pay", "shop"⟩

theorem payInput_isInput : IsInput plainPlatform payInput payCre where
  entity := by decide +kernel
  proofKey := .inl ⟨rfl, rfl⟩
  capability := rfl
  scope := rfl

theorem payCre_isExact : payCre.IsExact := ⟨⟨by decide, by decide⟩, by decide, by decide⟩

theorem payGrant_inForce (key : Json) : InForce plainPlatform payCre (.int 0) (payGrant key) where
  entity := rfl
  capability := rfl
  scope := rfl
  active := rfl
  unexpired := nofun

theorem payGrant_hasPolicy (key : Json) : HasPolicy plainPlatform (payGrant key) .allow := rfl

theorem decides_as_specified_iff_pay :
    DecidesAsSpecified plainPlatform [payGrant .null] payInput payCre (.int 0) := by
  refine (decides_as_specified_iff plainPlatform _ payInput payInput_isInput (.int 0)).mpr
    ⟨payCre_isExact, ?_, ?_⟩
  · refine List.forall_mem_singleton.mpr ?_
    exact ⟨_, true, rfl, rfl⟩
  · exact List.forall_mem_singleton.mpr fun _ hkey => nomatch hkey.1

/-- The grant allows the payment without any key. -/
theorem mistyped_key_allows :
    ¬ DecidesAsSpecified plainPlatform [payGrant (.str "sl1_typo")] payInput payCre (.int 0) := by
  intro h
  have hkey : KeyMalformed plainPlatform (payGrant (.str "sl1_typo")) := ⟨rfl, by decide +kernel⟩
  rcases (wellKeyed_of_decides payInput_isInput h).keys _ (.head []) (payGrant_inForce _) hkey .allow
    (payGrant_hasPolicy _) with ⟨a, ⟨grant, hmem, hmatches, -⟩, -⟩ | ⟨-, htop⟩
  · cases List.mem_singleton.mp hmem
    exact hmatches.not_malformed hkey
  · cases htop

end SimpleL1.Node
