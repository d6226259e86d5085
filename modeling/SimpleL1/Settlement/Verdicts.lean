import SimpleL1.Lib.Window
import SimpleL1.Settlement.DailyLimit

/-!
# Verdicts and the audit log

The engine refuses what the constitution denies and what a rule of its own is
against, and nothing else. Over a run, the audit log shows the last of the verdicts that
were returned, in their order; a call that throws leaves no trace.
-/

namespace SimpleL1.Settlement.PolicyEngine

open SimpleL1.Js SimpleL1.Lib

/-- The rules of the engine for an intent, none for a type it has no policy for. -/
def codeRules (policies : List (String × List Rule)) (intent_type : String) : List Rule :=
  (policies.lookup intent_type).getD []

/-- The audit entry of a verdict. -/
def recorded (c : Call) (amount : Number) : Result → AuditEntry
  | .pass .. => entryOf c amount none none "PASS"
  | .violation rule reason _ => entryOf c amount rule reason "VIOLATION"

/-! ## One verdict -/

section
variable {p : Node.Platform} {policies : List (String × List Rule)} {c : Call} {log log' : AuditLog}
  {r : Result}

/-- How a verdict comes about. -/
inductive Judged (p : Node.Platform) (policies : List (String × List Rule)) (c : Call) (log : AuditLog) :
    Result → Prop where
  | denied {dsl} (hdsl : c.dsl = .ok dsl) (hok : dsl.ok = false) :
      Judged p policies c log (.violation dsl.rule_id dsl.reason dsl.context)
  | violated {dsl rule context} (hdsl : c.dsl = .ok dsl) (hok : dsl.ok = true)
      (hrule : firstViolation p c log (codeRules policies c.intent_type) = .ok (some (rule, context))) :
      Judged p policies c log (.violation (some (.str rule.name)) rule.reason context)
  | passed {dsl n} (hdsl : c.dsl = .ok dsl) (hok : dsl.ok = true)
      (hrules : ∀ rule ∈ codeRules policies c.intent_type, evaluateRule p c log rule = .ok none) :
      Judged p policies c log (.pass n c.clock.passTime)

theorem codeRules_of_rulesFor {rules : Option (List Rule)} (h : rulesFor policies c.intent_type = .ok rules) :
    codeRules policies c.intent_type = rules.getD [] := by
  unfold rulesFor at h
  unfold codeRules
  cases hlookup : policies.lookup c.intent_type with
  | some found =>
    rw [hlookup] at h
    cases h
    rfl
  | none =>
    rw [hlookup] at h
    dsimp only at h
    split at h
    · cases h
    · cases h
      rfl

/-- A verdict comes about in one of three ways, and is recorded. -/
theorem evaluate_judged (h : evaluate p policies c log = .ok (r, log')) :
    Judged p policies c log r
      ∧ ∃ amount, c.amount = .ok amount ∧ log' = bounded (log ++ [recorded c amount r]) := by
  obtain ⟨dsl, hdsl, h⟩ := bind_eq_ok.mp h
  cases hok : dsl.ok with
  | false =>
    rw [hok] at h
    obtain ⟨entries, haudit, h⟩ := bind_eq_ok.mp h
    cases h
    obtain ⟨amount, hamount, rfl⟩ := audit_eq_ok.mp haudit
    exact ⟨.denied hdsl hok, amount, hamount, rfl⟩
  | true =>
    rw [hok] at h
    obtain ⟨found, hfound, h⟩ := bind_eq_ok.mp h
    have hrules := codeRules_of_rulesFor hfound
    cases found with
    | none =>
      obtain ⟨entries, haudit, h⟩ := bind_eq_ok.mp h
      cases h
      obtain ⟨amount, hamount, rfl⟩ := audit_eq_ok.mp haudit
      exact ⟨.passed hdsl hok (hrules ▸ fun _ hrule => absurd hrule List.not_mem_nil), amount, hamount, rfl⟩
    | some found =>
      obtain ⟨violated, hviolated, h⟩ := bind_eq_ok.mp h
      rw [Option.getD_some] at hrules
      rw [← hrules] at hviolated
      cases violated with
      | some violated =>
        obtain ⟨entries, haudit, h⟩ := bind_eq_ok.mp h
        cases h
        obtain ⟨amount, hamount, rfl⟩ := audit_eq_ok.mp haudit
        exact ⟨.violated hdsl hok hviolated, amount, hamount, rfl⟩
      | none =>
        obtain ⟨entries, haudit, h⟩ := bind_eq_ok.mp h
        cases h
        obtain ⟨amount, hamount, rfl⟩ := audit_eq_ok.mp haudit
        exact ⟨.passed hdsl hok (firstViolation_eq_none.mp hviolated), amount, hamount, rfl⟩

/-- A pass is what neither layer is against. -/
theorem Judged.passes_iff (h : Judged p policies c log r) : r.passes = true ↔
    (∃ dsl, c.dsl = .ok dsl ∧ dsl.ok = true)
      ∧ ∀ rule ∈ codeRules policies c.intent_type, evaluateRule p c log rule = .ok none := by
  cases h with
  | denied hdsl hok =>
    refine ⟨fun h => (by cases h), ?_⟩
    rintro ⟨⟨dsl, hdsl', hok'⟩, -⟩
    cases hdsl.symm.trans hdsl'
    cases hok.symm.trans hok'
  | violated hdsl hok hrule =>
    refine ⟨fun h => (by cases h), ?_⟩
    rintro ⟨-, hrules⟩
    cases hrule.symm.trans (firstViolation_eq_none.mpr hrules)
  | passed hdsl hok hrules => exact ⟨fun _ => ⟨⟨_, hdsl, hok⟩, hrules⟩, fun _ => rfl⟩

end

/-! ## Runs -/

/-- The verdict of a call, and the audit log it was given on. -/
structure Verdict where
  call : Call
  before : AuditLog
  result : Result

/-- The audit log, and the verdicts so far. -/
structure Trail where
  log : AuditLog
  verdicts : List Verdict

section
variable (p : Node.Platform) (policies : List (String × List Rule))

def Trail.step (s : Trail) (c : Call) : Trail :=
  match evaluate p policies c s.log with
  | .ok (result, log) => ⟨log, s.verdicts ++ [⟨c, s.log, result⟩]⟩
  | .error _ => s

/-- The verdict passes just when neither layer is against the intent. -/
def Verdict.Sound (v : Verdict) : Prop :=
  v.result.passes = true ↔ (∃ dsl, v.call.dsl = .ok dsl ∧ dsl.ok = true)
    ∧ ∀ rule ∈ codeRules policies v.call.intent_type, evaluateRule p v.call v.before rule = .ok none

end

/-- The entry tells of the verdict. -/
def Verdict.Tells (v : Verdict) (e : AuditEntry) : Prop :=
  ∃ amount, v.call.amount = .ok amount ∧ e = recorded v.call amount v.result

/-- Over any run, the engine passes what neither layer is against, and its audit log shows the last 5000
verdicts. -/
theorem audit_shows_verdicts (p : Node.Platform) (policies : List (String × List Rule)) (calls : List Call) :
    ∃ entries, List.Forall₂ Verdict.Tells (calls.foldl (Trail.step p policies) ⟨[], []⟩).verdicts entries
      ∧ (calls.foldl (Trail.step p policies) ⟨[], []⟩).log = entries.rtake 5000
      ∧ ∀ v ∈ (calls.foldl (Trail.step p policies) ⟨[], []⟩).verdicts, v.Sound p policies := by
  induction calls using List.reverseRecOn with
  | nil => exact ⟨[], .nil, rfl, fun _ hv => absurd hv List.not_mem_nil⟩
  | append_singleton calls c ih =>
    obtain ⟨entries, htells, hlog, hsound⟩ := ih
    rw [List.foldl_append, List.foldl_cons, List.foldl_nil]
    generalize calls.foldl (Trail.step p policies) ⟨[], []⟩ = s at *
    unfold Trail.step
    cases hrun : evaluate p policies c s.log with
    | error e => exact ⟨entries, htells, hlog, hsound⟩
    | ok result =>
      obtain ⟨r, log'⟩ := result
      obtain ⟨hjudged, amount, hamount, rfl⟩ := evaluate_judged hrun
      refine ⟨entries ++ [recorded c amount r], ?_, ?_, ?_⟩
      · exact List.rel_append htells (.cons ⟨amount, hamount, rfl⟩ .nil)
      · have hpush : bounded (s.log ++ [recorded c amount r]) = Window.push 5000 s.log (recorded c amount r) :=
          rfl
        have hlength : s.log.length ≤ 5000 := hlog ▸ Window.length_rtake_le 5000 entries
        dsimp only
        rw [hpush, Window.push_eq_rtake hlength, hlog, Window.rtake_rtake_append]
      · intro v hv
        rcases List.mem_append.mp hv with hv | hv
        · exact hsound v hv
        · cases List.mem_singleton.mp hv
          exact hjudged.passes_iff

end SimpleL1.Settlement.PolicyEngine
