import SimpleL1.Lib.Scan
import SimpleL1.Settlement.Constitution

/-!
# The order of the rules

What a constitution says of an intent, read off its rules as it is documented: the
first rule that denies or allows where its condition holds decides, the rules
before it that require something are noted, and the rules after it do not count. Where no rule
allows, the order of the rules does not matter either.
-/

namespace SimpleL1.Settlement.PolicyEngine

open SimpleL1.Js SimpleL1.Lib.Scan

/-! ## Decisions -/

/-- Whether the intent may go on, if the action settles that. -/
def DslAction.decides : DslAction → Option Bool
  | .deny => some false
  | .allow => some true
  | .require | .unknown _ => none

def DslAction.requires : DslAction → Bool
  | .require => true
  | _ => false

def DslRule.requirement (rule : DslRule) : Requirement :=
  ⟨rule.id, rule.reason, rule.requirements.getD (.obj [])⟩

section
variable (test : String → String → JsM Bool) (facts : Fields)

/-- What the rule settles on these facts. -/
def DslRule.decision (rule : DslRule) : JsM (Option Bool) := do
  return if ← rule.applies test facts then rule.action.decides else none

/-- The rule applies and requires something. -/
def DslRule.requiring (rule : DslRule) : Bool :=
  match rule.applies test facts with
  | .ok conditionMet => conditionMet && rule.action.requires
  | .error _ => false

def requirementsOf (rules : List DslRule) : List Requirement :=
  (rules.filter (DslRule.requiring test facts)).map DslRule.requirement

/-- The documented reading of the rules of a policy. -/
inductive Reading (rules : List DslRule) : JsM DslOutcome → Prop where
  | denied {pre rule post} (h : rules = pre ++ rule :: post) (hopen : Open (DslRule.decision test facts) pre)
      (hrule : rule.decision test facts = .ok (some false)) :
      Reading rules (.ok (.violation rule.id rule.reason (snapshot facts)))
  | allowed {pre rule post} (h : rules = pre ++ rule :: post) (hopen : Open (DslRule.decision test facts) pre)
      (hrule : rule.decision test facts = .ok (some true)) :
      Reading rules (.ok (.pass (pre.length + 1) (requirementsOf test facts pre)))
  | passed (hopen : Open (DslRule.decision test facts) rules) :
      Reading rules (.ok (.pass rules.length (requirementsOf test facts rules)))
  | threw {pre rule post e} (h : rules = pre ++ rule :: post) (hopen : Open (DslRule.decision test facts) pre)
      (hrule : rule.decision test facts = .error e) : Reading rules (.error e)

end

/-! ## One rule -/

section
variable {test : String → String → JsM Bool} {facts : Fields} {rule : DslRule} {rules : List DslRule}

theorem decision_of_skipped (h : rule.applies test facts = .ok false) :
    rule.decision test facts = .ok none := by
  rw [DslRule.decision, h]
  rfl

theorem decision_of_applies (h : rule.applies test facts = .ok true) :
    rule.decision test facts = .ok rule.action.decides := by
  rw [DslRule.decision, h]
  rfl

theorem decision_of_error {e : Error} (h : rule.applies test facts = .error e) :
    rule.decision test facts = .error e := by
  rw [DslRule.decision, h]
  rfl

theorem decision_eq_some_iff {b : Bool} : rule.decision test facts = .ok (some b) ↔
    rule.applies test facts = .ok true ∧ rule.action.decides = some b := by
  cases h : rule.applies test facts with
  | error e =>
    rw [decision_of_error h]
    exact ⟨fun h => (by cases h), fun h => (by cases h.1)⟩
  | ok conditionMet =>
    cases conditionMet with
    | false =>
      rw [decision_of_skipped h]
      exact ⟨fun h => (by cases h), fun h => (by cases h.1)⟩
    | true =>
      rw [decision_of_applies h]
      exact ⟨fun h => ⟨rfl, Except.ok.inj h⟩, fun h => congrArg Except.ok h.2⟩

/-- What comes before is counted and noted beforehand. -/
theorem evaluateRules_skip (h : rule.decision test facts = .ok none) (n : Nat) (noted : List Requirement) :
    evaluateRules test facts (rule :: rules) n noted =
      evaluateRules test facts rules (n + 1) (noted ++ requirementsOf test facts [rule]) := by
  cases happlies : rule.applies test facts with
  | error e => cases h.symm.trans (decision_of_error happlies)
  | ok conditionMet =>
    cases conditionMet with
    | false => simp [evaluateRules, requirementsOf, DslRule.requiring, happlies]
    | true =>
      rw [decision_of_applies happlies, Except.ok.injEq] at h
      cases haction : rule.action with
      | deny | allow => cases haction ▸ h
      | require | unknown name =>
        simp [evaluateRules, requirementsOf, DslRule.requiring, DslAction.requires, DslRule.requirement,
          happlies, haction]

theorem evaluateRules_append (h : Open (DslRule.decision test facts) rules) (rest : List DslRule) (n : Nat)
    (noted : List Requirement) :
    evaluateRules test facts (rules ++ rest) n noted =
      evaluateRules test facts rest (n + rules.length) (noted ++ requirementsOf test facts rules) := by
  induction rules generalizing n noted with
  | nil => simp [requirementsOf]
  | cons rule rules ih =>
    obtain ⟨hrule, hrules⟩ := open_cons.mp h
    have hnoted : requirementsOf test facts [rule] ++ requirementsOf test facts rules =
        requirementsOf test facts (rule :: rules) := by
      simp only [requirementsOf, ← List.map_append, ← List.filter_append, List.singleton_append]
    rw [List.cons_append, evaluateRules_skip hrule, ih hrules, List.append_assoc, hnoted, List.length_cons,
      Nat.add_right_comm, Nat.add_assoc n]

theorem evaluateRules_deny (h : rule.decision test facts = .ok (some false)) (n : Nat)
    (noted : List Requirement) :
    evaluateRules test facts (rule :: rules) n noted =
      .ok (.violation rule.id rule.reason (snapshot facts)) := by
  obtain ⟨happlies, haction⟩ := decision_eq_some_iff.mp h
  cases hrule : rule.action with
  | deny => simp [evaluateRules, happlies, hrule]
  | allow | require | unknown name => cases hrule ▸ haction

theorem evaluateRules_allow (h : rule.decision test facts = .ok (some true)) (n : Nat)
    (noted : List Requirement) :
    evaluateRules test facts (rule :: rules) n noted = .ok (.pass (n + 1) noted) := by
  obtain ⟨happlies, haction⟩ := decision_eq_some_iff.mp h
  cases hrule : rule.action with
  | allow => simp [evaluateRules, happlies, hrule]
  | deny | require | unknown name => cases hrule ▸ haction

theorem evaluateRules_throw {e : Error} (h : rule.decision test facts = .error e) (n : Nat)
    (noted : List Requirement) : evaluateRules test facts (rule :: rules) n noted = .error e := by
  cases happlies : rule.applies test facts with
  | error e' =>
    cases h.symm.trans (decision_of_error happlies)
    rw [evaluateRules, happlies]
    rfl
  | ok conditionMet =>
    rw [DslRule.decision, happlies] at h
    cases h

/-! ## All rules -/

theorem reading_evaluateRules : Reading test facts rules (evaluateRules test facts rules 0 []) := by
  rcases open_or_first (DslRule.decision test facts) rules with hopen | ⟨pre, rule, post, d, rfl, hopen, hrule⟩ |
    ⟨pre, rule, post, e, rfl, hopen, hrule⟩
  · have h := evaluateRules_append hopen [] 0 []
    rw [List.append_nil, Nat.zero_add, List.nil_append] at h
    rw [h]
    exact .passed hopen
  · rw [evaluateRules_append hopen, Nat.zero_add, List.nil_append]
    cases d with
    | false =>
      rw [evaluateRules_deny hrule]
      exact .denied rfl hopen hrule
    | true =>
      rw [evaluateRules_allow hrule]
      exact .allowed rfl hopen hrule
  · rw [evaluateRules_append hopen, evaluateRules_throw hrule]
    exact .threw rfl hopen hrule

/-- Rules have one reading. -/
theorem Reading.eq_evaluateRules {r : JsM DslOutcome} (h : Reading test facts rules r) :
    evaluateRules test facts rules 0 [] = r := by
  cases h with
  | denied h hopen hrule => rw [h, evaluateRules_append hopen, evaluateRules_deny hrule]
  | allowed h hopen hrule =>
    rw [h, evaluateRules_append hopen, evaluateRules_allow hrule, Nat.zero_add, List.nil_append]
  | passed hopen =>
    have h := evaluateRules_append hopen [] 0 []
    rw [List.append_nil, Nat.zero_add, List.nil_append] at h
    exact h
  | threw h hopen hrule => rw [h, evaluateRules_append hopen, evaluateRules_throw hrule]

end

/-- The interpreter says of an intent what the last policy of its type says, read as documented; an
intent of a type without a policy passes. -/
theorem evaluatePolicies_iff_reading (test : String → String → JsM Bool) (facts : Fields)
    (policies : List DslPolicy) (intent_type : String) (r : JsM DslOutcome) :
    evaluatePolicies test policies intent_type facts = r ↔
      (∃ pre policy post, policies = pre ++ policy :: post ∧ policy.intent_type = intent_type
        ∧ (∀ later ∈ post, later.intent_type ≠ intent_type) ∧ Reading test facts policy.rules r)
      ∨ (∀ policy ∈ policies, policy.intent_type ≠ intent_type)
        ∧ r = if intent_type ∈ objectPrototype then .error (.typeError "policy.rules is not iterable")
          else .ok (.pass 0 []) := by
  have hreading : ∀ {rules r}, evaluateRules test facts rules 0 [] = r ↔ Reading test facts rules r :=
    ⟨fun h => h ▸ reading_evaluateRules, Reading.eq_evaluateRules⟩
  unfold evaluatePolicies
  cases hfind : policies.reverse.find? (·.intent_type = intent_type) with
  | some policy =>
    obtain ⟨pre, post, hpolicies, htype, hpost⟩ := find_reverse_eq_some_iff.mp hfind
    dsimp only
    rw [hreading]
    constructor
    · intro h
      exact .inl ⟨pre, policy, post, hpolicies, of_decide_eq_true htype,
        fun later hlater => of_decide_eq_false (hpost later hlater), h⟩
    · rintro (⟨pre', policy', post', hsplit, htype', hlater, h⟩ | ⟨hnone, -⟩)
      · have hfind' := find_reverse_eq_some_iff.mpr ⟨pre', post', hsplit, decide_eq_true htype',
          fun later hmem => decide_eq_false (hlater later hmem)⟩
        rw [hfind] at hfind'
        exact Option.some.inj hfind' ▸ h
      · have hmem : policy ∈ policies := hpolicies ▸ List.mem_append_right _ List.mem_cons_self
        exact absurd (of_decide_eq_true htype) (hnone policy hmem)
  | none =>
    have hnone : ∀ policy ∈ policies, policy.intent_type ≠ intent_type := fun policy hpolicy =>
      of_decide_eq_false (find_reverse_eq_none_iff.mp hfind policy hpolicy)
    dsimp only
    constructor
    · intro h
      exact .inr ⟨hnone, h.symm⟩
    · rintro (⟨pre, policy, post, rfl, htype, -, -⟩ | ⟨-, rfl⟩)
      · exact absurd htype (hnone policy (List.mem_append_right _ List.mem_cons_self))
      · rfl

/-! ## Rules that only deny and require -/

/-- No rule allows, and every condition has a value. -/
structure Orderless (test : String → String → JsM Bool) (facts : Fields) (rules : List DslRule) : Prop where
  never_allows : ∀ rule ∈ rules, rule.action ≠ .allow
  evaluates : ∀ rule ∈ rules, ∃ conditionMet, rule.applies test facts = .ok conditionMet

/-- Both deny; or both pass with as many rules evaluated and the same requirements, in any order. -/
def DslOutcome.Alike : DslOutcome → DslOutcome → Prop
  | .violation .., .violation .. => True
  | .pass n noted, .pass n' noted' => n = n' ∧ noted.Perm noted'
  | _, _ => False

section
variable {test : String → String → JsM Bool} {facts : Fields} {rules rules' : List DslRule}

theorem Orderless.perm (h : Orderless test facts rules) (hperm : rules.Perm rules') :
    Orderless test facts rules' where
  never_allows rule hrule := h.never_allows rule (hperm.mem_iff.mpr hrule)
  evaluates rule hrule := h.evaluates rule (hperm.mem_iff.mpr hrule)

theorem decides_ne_true {action : DslAction} (h : action ≠ .allow) : action.decides ≠ some true := by
  cases action with
  | allow => exact absurd rfl h
  | deny | require | unknown name => exact fun h => by cases h

/-- Such rules deny where one of them does, and pass otherwise. -/
theorem Orderless.outcome (h : Orderless test facts rules) :
    (∃ rule ∈ rules, rule.decision test facts = .ok (some false)
      ∧ ∃ id reason, evaluateRules test facts rules 0 [] = .ok (.violation id reason (snapshot facts)))
    ∨ Open (DslRule.decision test facts) rules
      ∧ evaluateRules test facts rules 0 [] = .ok (.pass rules.length (requirementsOf test facts rules)) := by
  have hreading : Reading test facts rules (evaluateRules test facts rules 0 []) := reading_evaluateRules
  generalize hout : evaluateRules test facts rules 0 [] = out at hreading
  cases hreading with
  | @denied pre rule post hrules hopen hrule =>
    exact .inl ⟨rule, hrules ▸ List.mem_append_right _ List.mem_cons_self, hrule, _, _, rfl⟩
  | passed hopen => exact .inr ⟨hopen, rfl⟩
  | @allowed pre rule post hrules hopen hrule =>
    have hmem : rule ∈ rules := hrules ▸ List.mem_append_right _ List.mem_cons_self
    exact absurd (decision_eq_some_iff.mp hrule).2 (decides_ne_true (h.never_allows rule hmem))
  | @threw pre rule post e hrules hopen hrule =>
    obtain ⟨conditionMet, happlies⟩ := h.evaluates rule (hrules ▸ List.mem_append_right _ List.mem_cons_self)
    rw [DslRule.decision, happlies] at hrule
    cases hrule

end

/-- The order of rules that only deny and require does not matter. -/
theorem rules_order_free (test : String → String → JsM Bool) (facts : Fields) (rules rules' : List DslRule)
    (h : Orderless test facts rules) (hperm : rules.Perm rules') :
    ∃ outcome outcome', evaluateRules test facts rules 0 [] = .ok outcome
      ∧ evaluateRules test facts rules' 0 [] = .ok outcome' ∧ outcome.Alike outcome' := by
  rcases h.outcome with ⟨rule, hrule, hdecides, id, reason, hdenied⟩ | ⟨hopen, hpassed⟩
  · rcases (h.perm hperm).outcome with ⟨-, -, -, id', reason', hdenied'⟩ | ⟨hopen', -⟩
    · exact ⟨_, _, hdenied, hdenied', trivial⟩
    · cases (hopen' rule (hperm.mem_iff.mp hrule)).symm.trans hdecides
  · rcases (h.perm hperm).outcome with ⟨rule, hrule, hdecides, -⟩ | ⟨-, hpassed'⟩
    · cases (hopen rule (hperm.mem_iff.mpr hrule)).symm.trans hdecides
    · exact ⟨_, _, hpassed, hpassed', hperm.length_eq, (hperm.filter _).map _⟩

/-- The rules of the constitution for transfers. -/
def transferRules : List DslRule :=
  CONSTITUTION.flatMap fun policy => if policy.intent_type = "TRANSFER" then policy.rules else []

/-- The facts of a transfer to oneself. -/
def toOneself : Fields := [("self_transfer", .bool true), ("amount", .num (.int 5))]

theorem transferRules_orderless : Orderless (fun _ _ => .ok false) toOneself transferRules where
  never_allows rule hrule := by
    simp [transferRules, CONSTITUTION] at hrule
    rcases hrule with rfl | rfl <;> exact fun h => by cases h
  evaluates rule hrule := by
    simp [transferRules, CONSTITUTION] at hrule
    rcases hrule with rfl | rfl
    · exact ⟨false, rfl⟩
    · exact ⟨true, rfl⟩

/-- A transfer to oneself is denied before its amount is looked at, too. -/
theorem transfer_rules_reversed : ∃ outcome outcome',
    evaluateRules (fun _ _ => .ok false) toOneself transferRules 0 [] = .ok outcome
      ∧ evaluateRules (fun _ _ => .ok false) toOneself transferRules.reverse 0 [] = .ok outcome'
      ∧ outcome.Alike outcome' :=
  rules_order_free _ _ _ _ transferRules_orderless (List.reverse_perm _).symm

/-- More rules deny more: what some rules deny, all rules together deny. -/
theorem stricter_denies (test : String → String → JsM Bool) (facts : Fields) (rules rules' : List DslRule)
    (h : Orderless test facts rules') (hsub : rules ⊆ rules') (id reason : String) (snap : Fields)
    (hdenied : evaluateRules test facts rules 0 [] = .ok (.violation id reason snap)) :
    ∃ id' reason', evaluateRules test facts rules' 0 [] = .ok (.violation id' reason' (snapshot facts)) := by
  have hrules : Orderless test facts rules :=
    ⟨fun rule hrule => h.never_allows rule (hsub hrule), fun rule hrule => h.evaluates rule (hsub hrule)⟩
  rcases hrules.outcome with ⟨rule, hrule, hdecides, -⟩ | ⟨-, hpassed⟩
  · rcases h.outcome with ⟨-, -, -, id', reason', hdenied'⟩ | ⟨hopen, -⟩
    · exact ⟨id', reason', hdenied'⟩
    · cases (hopen rule (hsub hrule)).symm.trans hdecides
  · cases hpassed.symm.trans hdenied

/-- What denies a transfer to oneself denies it among all rules for transfers. -/
theorem self_transfer_denied_anyway : ∃ id' reason',
    evaluateRules (fun _ _ => .ok false) toOneself transferRules 0 [] =
      .ok (.violation id' reason' (snapshot toOneself)) :=
  stricter_denies _ _ [⟨"transfer:self-transfer", some (.compare ["self_transfer"] .eq (.bool true)), .deny,
    "Self-transfer is not constitutionally admissible", none⟩] _ transferRules_orderless
    (by simp [transferRules, CONSTITUTION]) "transfer:self-transfer"
    "Self-transfer is not constitutionally admissible" _ rfl

end SimpleL1.Settlement.PolicyEngine
