import SimpleL1.Node.StaleAuthorization

/-!
# The intent approval behind an authorization

An authorization names an intent approval by its id, carries one along as an
object, or does both. An object that comes along is taken as it is, whether the
ledger holds it or not; an id is looked up, and let pass where the ledger holds
no approvals at all.
-/

namespace SimpleL1.Node

open SimpleL1.Js SimpleL1.Lib.Effect

/-! ## What the checks establish -/

/-- The approval is pending, and has not expired at `now`. -/
structure Stands (p : Platform) (approval : Json) (now : Number) : Prop where
  pending : lowerOf p (approval.prop "status") "" = .ok "pending"
  unexpired : truthy (approval.prop "expires_at") = true →
    ∃ e, newDate p (approval.prop "expires_at") = .ok e ∧ e.le now = false

/-- The approval is by the key of the authorization, for its entity, and for the intent of the input
where that names one. -/
structure Binds (p : Platform) (approval : Json) (input authorization : Fields) (now : Number) : Prop
    extends Stands p approval now where
  entity : ∃ entity, normalizeEntityAddress p (approval.prop "entity_l1_address") = some entity ∧
    authorization.get "entity_l1_address" = some (.str entity)
  controller : ∃ key, normalizeKeyAddress p (approval.prop "controller_l1_address") = some key ∧
    authorization.get "proof_key_l1_address" = some (.str key)
  intent : truthy (input.get "intent_id") = true →
    ∃ id, toStr (approval.prop "intent_id") = .ok id ∧ toStr (input.get "intent_id") = .ok id

section
variable {p : Platform} {approval : Json} {context input : Fields} {now : Number} {ledger : Ledger}

theorem not_isOpen_of_truthy {v : Option Json} (h : truthy v = true) : isOpen v = false := by
  cases v with
  | none => cases h
  | some v =>
    cases v with
    | null => cases h
    | str s => simpa [isOpen] using h
    | _ => rfl

/-- No comparison speaks against the approval. -/
theorem comparisonReasons_eq_nil {comparisons : List (String × String × Reading)}
    (h : comparisonReasons approval context comparisons = .ok []) {c : String × String × Reading}
    (hc : c ∈ comparisons) (hgiven : isOpen (context.get c.1) = false) :
    ∃ v, c.2.2 (approval.prop c.1) = .ok v ∧ c.2.2 (context.get c.1) = .ok v := by
  induction comparisons with
  | nil => cases hc
  | cons d rest ih =>
    obtain ⟨key, reasonCode, normalize⟩ := d
    unfold comparisonReasons at h
    split at h
    · next hopen =>
      rcases List.mem_cons.mp hc with rfl | hc
      · exact absurd hopen (by simp [hgiven])
      · exact ih h hc
    · obtain ⟨stored, hstored, h⟩ := bind_eq_ok.mp h
      obtain ⟨expected, hexpected, h⟩ := bind_eq_ok.mp h
      obtain ⟨codes, hcodes, h⟩ := bind_eq_ok.mp h
      split at h
      · next hsame =>
        cases h
        rcases List.mem_cons.mp hc with rfl | hc
        · exact ⟨stored, hstored, beq_iff_eq.mp hsame ▸ hexpected⟩
        · exact ih hcodes hc
      · cases h

theorem verifyIntentApproval_passes {c : Checked} (h : verifyIntentApproval p approval context now = .ok c)
    (hok : c.ok = true) :
    Stands p approval now ∧ comparisonReasons approval context (approvalComparisons p) = .ok [] := by
  unfold verifyIntentApproval at h
  dsimp only at h
  simp only [ite_bind] at h
  obtain ⟨status, hstatus, h⟩ := bind_eq_ok.mp h
  obtain ⟨expired, hexpired, h⟩ := bind_eq_ok.mp h
  obtain ⟨codes, hcodes, h⟩ := bind_eq_ok.mp h
  cases h
  simp only [List.isEmpty_iff, List.append_eq_nil_iff] at hok
  obtain ⟨⟨hpending, hunexpired⟩, rfl⟩ := hok
  refine ⟨⟨?_, fun hexpires => ?_⟩, hcodes⟩
  · split at hpending
    · next heq => exact beq_iff_eq.mp heq ▸ hstatus
    · cases hpending
  · rw [if_pos hexpires] at hexpired
    obtain ⟨e, he, hle⟩ := map_eq_ok.mp hexpired
    refine ⟨e, he, ?_⟩
    cases hexp : e.le now with
    | false => rfl
    | true =>
      rw [hexp] at hle
      rw [← hle] at hunexpired
      cases hunexpired

/-- The checks on a resolved approval. -/
theorem verifyIntentApprovalBinding_passes {entity : String} {key : Json} {c : Checked}
    (hresolve : resolveIntentApproval ledger input = some approval)
    (h : verifyIntentApprovalBinding p ledger input entity key now = .ok c) (hok : c.ok = true) :
    Stands p approval now ∧
      normalizeEntityAddress p (approval.prop "entity_l1_address") = some entity ∧
      (∃ k, key = .str k ∧ k ≠ "" ∧ normalizeKeyAddress p (approval.prop "controller_l1_address") =
        normalizeKeyAddress p (some (.str k))) ∧
      (truthy (input.get "intent_id") = true →
        ∃ id, toStr (approval.prop "intent_id") = .ok id ∧ toStr (input.get "intent_id") = .ok id) := by
  unfold verifyIntentApprovalBinding at h
  rw [hresolve] at h
  dsimp only at h
  simp only [← bind_assoc, ite_bind] at h
  obtain ⟨differs, -, h⟩ := bind_eq_ok.mp h
  obtain ⟨status, hstatus, h⟩ := bind_eq_ok.mp h
  cases h
  simp only [Bool.and_eq_true, List.isEmpty_iff, List.append_eq_nil_iff] at hok
  obtain ⟨⟨⟨hentity, hcontroller⟩, -⟩, hchecked⟩ := hok
  obtain ⟨hstands, hcomparisons⟩ := verifyIntentApproval_passes hstatus hchecked
  have hentity : normalizeEntityAddress p (approval.prop "entity_l1_address") = some entity := by
    split at hentity
    · next heq => exact beq_iff_eq.mp heq
    · cases hentity
  obtain ⟨k, rfl, hk⟩ : ∃ k, key = .str k ∧ k ≠ "" := by
    split at hcontroller
    · next heq =>
      obtain ⟨htruthy, heq⟩ := heq
      have heq := eq_of_strictEq heq
      cases hc : normalizeKeyAddress p (or (approval.prop "controller_l1_address")
          (or (approval.prop "proof_key_l1_address") (approval.prop "key_l1_address"))) with
      | none => rw [hc] at heq; cases heq
      | some k =>
        rw [hc] at heq
        cases heq
        exact ⟨k, rfl, by simpa [Json.truthy] using htruthy⟩
    · cases hcontroller
  refine ⟨hstands, hentity, ⟨k, rfl, hk, ?_⟩, fun hintent => ?_⟩
  · obtain ⟨v, hstored, hexpected⟩ := comparisonReasons_eq_nil hcomparisons
      (c := ("controller_l1_address", "INTENT_APPROVAL_CONTROLLER_MISMATCH",
        fun v => pure (normalizeKeyAddress p v))) (.tail _ (.head _)) (by simp [isOpen, hk])
    simp only [Fields.get_ofOptions_cons, pure_eq_ok] at hstored hexpected
    exact Except.ok.inj (hstored.trans hexpected.symm)
  · have hgiven := not_isOpen_of_truthy hintent
    obtain ⟨v, hstored, hexpected⟩ := comparisonReasons_eq_nil hcomparisons
      (c := ("intent_id", "INTENT_APPROVAL_INTENT_MISMATCH", readText))
      (.tail _ (.tail _ (.head _))) (by simpa [or_of_truthy hintent] using hgiven)
    simp only [readText, Fields.get_ofOptions_cons, or_of_truthy hintent] at hstored hexpected
    obtain ⟨id, hid, rfl⟩ := map_eq_ok.mp hstored
    obtain ⟨id', hid', heq⟩ := map_eq_ok.mp hexpected
    cases heq
    exact ⟨id, hid, by simpa using hid'⟩

/-- An executable authorization passed the check of its approval. -/
theorem authorizationOf_binding {a : Fields} (h : authorizationOf p ledger input now = .ok a)
    (hexecutes : a.get "can_execute" = some (.bool true)) :
    ∃ entity key binding, a.get "entity_l1_address" = some (.str entity) ∧
      a.get "proof_key_l1_address" = some key ∧
      keyAddressOrNull p (input.get "proof_key_l1_address") = .ok key ∧
      verifyIntentApprovalBinding p ledger input entity key now = .ok binding ∧ binding.ok = true := by
  unfold authorizationOf at h
  obtain ⟨entity, -, h⟩ := bind_eq_ok.mp h
  obtain ⟨key, hkey, h⟩ := bind_eq_ok.mp h
  obtain ⟨⟨capability, scope⟩, -, h⟩ := bind_eq_ok.mp h
  obtain ⟨d, -, h⟩ := bind_eq_ok.mp h
  simp only [bind_eq_ok, pure_eq_ok, Except.ok.injEq] at h
  obtain ⟨binding, hbinding, authorized_at, -, expires_at, -, rfl⟩ := h
  refine ⟨entity, key, binding, rfl, rfl, hkey, hbinding, ?_⟩
  have hallow : (d.decision == "allow" && policyDecisionAllows ledger (input.get "policy_decision_id")
      && binding.ok) = true := Json.bool.inj (Option.some.inj hexecutes)
  exact (Bool.and_eq_true_iff.mp hallow).2

theorem binds_of_resolved {a : Fields} (h : authorizationOf p ledger input now = .ok a)
    (hexecutes : a.get "can_execute" = some (.bool true))
    (hresolve : resolveIntentApproval ledger input = some approval) : Binds p approval input a now := by
  obtain ⟨entity, key, binding, hentity, hkey, hgiven, hbinding, hok⟩ := authorizationOf_binding h hexecutes
  obtain ⟨hstands, hsame, ⟨k, rfl, hne, hcontroller⟩, hintent⟩ :=
    verifyIntentApprovalBinding_passes hresolve hbinding hok
  have hnormal : normalizeKeyAddress p (some (.str k)) = some k := by
    rcases keyAddressOrNull_gives hgiven with hnull | ⟨k', hk', hnormal⟩
    · cases hnull
    · cases hk'
      exact normalizeKeyAddress_idem hnormal
  exact ⟨hstands, ⟨entity, hsame, hentity⟩, ⟨k, hcontroller.trans hnormal, hkey⟩, hintent⟩

end

/-! ## Authorizations that execute -/

/-- The ledger holds the approval with the id the input gives. -/
def HoldsApproval (p : Platform) (ledger : Ledger) (input authorization : Fields) (now : Number) : Prop :=
  ∃ approval ∈ ledger.stores .intent_approvals,
    approval.get "id" = input.get "intent_approval_id" ∧ Binds p (.obj approval) input authorization now

/-- The input carries an approval along. -/
def CarriesApproval (input : Fields) (approval : Json) : Prop :=
  input.get "intent_approval" = some approval ∧ approval.isObject = true

/-- Where an authorization that executes is given the id of an approval, the ledger holds it. -/
def NeedsApproval (p : Platform) (ledger : Ledger) (input : Fields) (now : Number) : Prop :=
  ∀ authorization, outcome (buildAuthorization p input now) ledger = .ok authorization →
    truthy (input.get "intent_approval_id") = true →
    authorization.get "can_execute" = some (.bool true) → HoldsApproval p ledger input authorization now

section
variable {p : Platform} {ledger : Ledger} {input : Fields} {approval : Json}

theorem resolve_carried (h : CarriesApproval input approval) :
    resolveIntentApproval ledger input = some approval := by
  obtain ⟨hget, hobject⟩ := h
  unfold resolveIntentApproval
  rw [hget]
  cases approval with
  | arr xs => rfl
  | obj fs => rfl
  | _ => cases hobject

theorem resolve_stored (hnone : ∀ v, ¬ CarriesApproval input v)
    (hid : truthy (input.get "intent_approval_id") = true) :
    resolveIntentApproval ledger input =
      (findById (ledger.stores .intent_approvals) (input.get "intent_approval_id")).map .obj := by
  unfold resolveIntentApproval
  split
  · next heq => exact absurd ⟨heq, rfl⟩ (hnone _)
  · next heq => exact absurd ⟨heq, rfl⟩ (hnone _)
  · rw [if_pos hid]

end

/-- An authorization that executes rests on an approval that binds it: the one the input carries
along or, where it carries none and the ledger holds any, the one the ledger holds under the id. -/
theorem authorization_rests_on_approval (p : Platform) (ledger : Ledger) {input authorization : Fields}
    {now : Number} (h : outcome (buildAuthorization p input now) ledger = .ok authorization)
    (hid : truthy (input.get "intent_approval_id") = true)
    (hexecutes : authorization.get "can_execute" = some (.bool true)) :
    (∀ approval, CarriesApproval input approval → Binds p approval input authorization now) ∧
      ((∀ approval, ¬ CarriesApproval input approval) → ledger.stores .intent_approvals ≠ [] →
        HoldsApproval p ledger input authorization now) := by
  rw [outcome_buildAuthorization] at h
  refine ⟨fun approval hcarried => binds_of_resolved h hexecutes (resolve_carried hcarried), ?_⟩
  intro hnone hstore
  have hresolve : resolveIntentApproval ledger input =
      (findById (ledger.stores .intent_approvals) (input.get "intent_approval_id")).map .obj :=
    resolve_stored hnone hid
  cases hfind : findById (ledger.stores .intent_approvals) (input.get "intent_approval_id") with
  | some approval =>
    rw [hfind] at hresolve
    exact ⟨approval, List.mem_of_find?_eq_some hfind,
      eq_of_strictEq (List.find?_some (p := fun c : Fields => strictEq (c.get "id") _) hfind),
      binds_of_resolved h hexecutes hresolve⟩
  | none =>
    -- With approvals in the ledger an id that none of them has is refused.
    obtain ⟨entity, key, binding, -, -, -, hbinding, hok⟩ := authorizationOf_binding h hexecutes
    rw [hfind] at hresolve
    unfold verifyIntentApprovalBinding at hbinding
    rw [hresolve, or_of_truthy hid] at hbinding
    simp only [Option.map_none, hid, Bool.not_true, Bool.false_eq_true, if_false, pure_eq_ok,
      Except.ok.injEq] at hbinding
    subst hbinding
    simp only [Bool.not_not, List.isEmpty_iff] at hok
    exact absurd hok hstore

/-- A grant to pay in the shop, and the approvals `approvals`. -/
def approvedLedger (approvals : List Fields) : Ledger :=
  (afterCalls plainPlatform policyLedger [expiringGrant]).setStore .intent_approvals approvals

def payApproval (id status : String) : Fields :=
  [("id", .str id), ("status", .str status), ("entity_l1_address", .str aliceAddress),
    ("controller_l1_address", .str aliceKey), ("intent_id", .str "intent_1"),
    ("expires_at", .num (.int 100))]

def approvedRequest : Fields :=
  payRequest ++ [("proof_key_l1_address", .str aliceKey), ("intent_approval_id", .str "iap_1"),
    ("intent_id", .str "intent_1")]

theorem approvedRequest_executes : ∃ authorization,
    outcome (buildAuthorization plainPlatform approvedRequest (.int 0))
      (approvedLedger [payApproval "iap_1" "pending"]) = .ok authorization ∧
    authorization.get "can_execute" = some (.bool true) := ⟨_, rfl, rfl⟩

theorem approvedRequest_rests_on_approval : ∃ authorization,
    outcome (buildAuthorization plainPlatform approvedRequest (.int 0))
      (approvedLedger [payApproval "iap_1" "pending"]) = .ok authorization ∧
    HoldsApproval plainPlatform (approvedLedger [payApproval "iap_1" "pending"]) approvedRequest
      authorization (.int 0) := by
  obtain ⟨authorization, hbuild, hexecutes⟩ := approvedRequest_executes
  have hnone : ∀ approval, ¬ CarriesApproval approvedRequest approval := by
    rintro approval ⟨hget, -⟩
    cases hget
  exact ⟨authorization, hbuild, (authorization_rests_on_approval plainPlatform _ hbuild rfl hexecutes).2
    hnone (by simp [approvedLedger, Ledger.setStore])⟩

/-- Without approvals in the ledger any id will do, and so it will beside an approval that is carried
along, in a ledger whose own approval of that id is revoked. -/
theorem unheld_approval_executes :
    ¬ NeedsApproval plainPlatform (approvedLedger []) approvedRequest (.int 0) ∧
    ¬ NeedsApproval plainPlatform (approvedLedger [payApproval "iap_1" "revoked"])
      (approvedRequest ++ [("intent_approval", .obj (payApproval "iap_2" "pending"))]) (.int 0) := by
  constructor
  · intro h
    obtain ⟨approval, hmem, -⟩ := h _ rfl rfl rfl
    cases hmem
  · intro h
    obtain ⟨approval, hmem, -, hbinds⟩ := h _ rfl rfl rfl
    cases List.mem_singleton.mp hmem
    exact absurd (Except.ok.inj hbinds.pending) (by decide)

end SimpleL1.Node
