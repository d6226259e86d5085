import SimpleL1.Settlement.Policy
import SimpleL1.Settlement.Outcomes

/-!
# The daily withdrawal limit

The limit reads the withdrawals of the day from the audit log. It holds over a run of calls
as long as no such withdrawal is dropped from the log, and every withdrawal is checked with
the amount that is recorded: `daily_limit_holds`.
-/

namespace SimpleL1.Settlement.PolicyEngine

open SimpleL1.Js

variable {p : Node.Platform}

/-! ## Sums -/

def total (amounts : List Number) : Number := amounts.foldl Number.add (.int 0)

theorem total_append_singleton (amounts : List Number) (n : Number) :
    total (amounts ++ [n]) = (total amounts).add n :=
  List.foldl_append

theorem amount_or_zero (t : Int) :
    (if (Number.int t).truthy then Number.int t else .int 0) = .int t := by
  by_cases h : t = 0
  · subst h
    rfl
  · rw [if_pos (by simpa [Number.truthy] using h)]

theorem sumAmounts_eq_total {log : AuditLog} (h : ∀ e ∈ log, ∃ t, e.amount = .int t) :
    sumAmounts log = total (log.map (·.amount)) := by
  unfold sumAmounts total
  rw [List.foldl_map]
  refine List.foldl_ext _ _ _ fun sum e he => ?_
  obtain ⟨t, ht⟩ := h e he
  rw [ht, amount_or_zero]

/-! ## What a call appends -/

variable {policies : List (String × List Rule)} {rules : List Rule} {c : Call} {log log' : AuditLog}

def Result.passes : Result → Bool
  | pass .. => true
  | violation .. => false

def Result.outcome (r : Result) : String := if r.passes then "PASS" else "VIOLATION"

theorem audit_eq_ok {rule reason : Option Json} {outcome : String} :
    audit c log rule reason outcome = .ok log' ↔
      ∃ amount, c.amount = .ok amount ∧ log' = bounded (log ++ [entryOf c amount rule reason outcome]) := by
  unfold audit
  rw [bind_eq_ok]
  refine exists_congr fun amount => and_congr_right fun _ => ?_
  exact ⟨fun h => (Except.ok.inj h).symm, fun h => congrArg Except.ok h.symm⟩

theorem firstViolation_eq_none :
    firstViolation p c log rules = .ok none ↔ ∀ rule ∈ rules, evaluateRule p c log rule = .ok none := by
  induction rules with
  | nil => exact ⟨fun _ _ h => (List.not_mem_nil h).elim, fun _ => rfl⟩
  | cons rule rules ih =>
    rw [List.forall_mem_cons, ← ih, firstViolation, bind_eq_ok]
    constructor
    · rintro ⟨context, hrule, hrest⟩
      cases context with
      | some context => cases hrest
      | none => exact ⟨hrule, hrest⟩
    · rintro ⟨hrule, hrest⟩
      exact ⟨none, hrule, hrest⟩

/-- One entry is appended, of which the outcome is the result; a pass has met every rule of its type. -/
theorem evaluate_eq_ok {result : Result} (h : evaluate p policies c log = .ok (result, log')) :
    (∃ amount rule reason, c.amount = .ok amount ∧
      log' = bounded (log ++ [entryOf c amount rule reason result.outcome])) ∧
    (result.passes = true → policies.lookup c.intent_type = some rules →
      ∀ rule ∈ rules, evaluateRule p c log rule = .ok none) := by
  obtain ⟨dslResult, -, h⟩ := bind_eq_ok.mp h
  split at h
  · obtain ⟨entries, haudit, h⟩ := bind_eq_ok.mp h
    cases h
    obtain ⟨amount, hamount, hlog⟩ := audit_eq_ok.mp haudit
    exact ⟨⟨amount, _, _, hamount, hlog⟩, nofun⟩
  · obtain ⟨found, hfound, h⟩ := bind_eq_ok.mp h
    cases found with
    | none =>
      obtain ⟨entries, haudit, h⟩ := bind_eq_ok.mp h
      cases h
      obtain ⟨amount, hamount, hlog⟩ := audit_eq_ok.mp haudit
      refine ⟨⟨amount, _, _, hamount, hlog⟩, fun _ hrules => ?_⟩
      unfold rulesFor at hfound
      rw [hrules] at hfound
      cases hfound
    | some found =>
      obtain ⟨violated, hviolated, h⟩ := bind_eq_ok.mp h
      cases violated with
      | some violated =>
        obtain ⟨entries, haudit, h⟩ := bind_eq_ok.mp h
        cases h
        obtain ⟨amount, hamount, hlog⟩ := audit_eq_ok.mp haudit
        exact ⟨⟨amount, _, _, hamount, hlog⟩, nofun⟩
      | none =>
        obtain ⟨entries, haudit, h⟩ := bind_eq_ok.mp h
        cases h
        obtain ⟨amount, hamount, hlog⟩ := audit_eq_ok.mp haudit
        refine ⟨⟨amount, _, _, hamount, hlog⟩, fun _ hrules => ?_⟩
        unfold rulesFor at hfound
        rw [hrules] at hfound
        cases hfound
        exact firstViolation_eq_none.mp hviolated

theorem within_of_dailyLimit {max : Number} {reason : String}
    (h : evaluateRule p c log (.dailyLimit max reason) = .ok none) :
    ∃ sl1_address asset amount, Node.member c.intent "sl1_address" = .ok sl1_address ∧
      Node.member c.intent "asset" = .ok asset ∧ amountOf [Node.member c.intent "amount"] = .ok amount ∧
      max.lt ((todayTotal log (isoDay c.clock.ruleTime) sl1_address asset).add amount) = false := by
  obtain ⟨sl1_address, haddress, h⟩ := bind_eq_ok.mp h
  obtain ⟨asset, hasset, h⟩ := bind_eq_ok.mp h
  obtain ⟨amount, hamount, h⟩ := bind_eq_ok.mp h
  refine ⟨sl1_address, asset, amount, haddress, hasset, hamount, ?_⟩
  dsimp only at h
  by_contra hover
  rw [if_pos (by simpa using hover)] at h
  cases h

/-! ## Runs -/

/-- Whose withdrawals are counted, and on which day. -/
structure Account where
  sl1_address : Option Json
  asset : Option Json
  day : List Char

namespace Account

variable (a : Account)

/-- The entry is a withdrawal of the account that passed. -/
def counts (e : AuditEntry) : Bool := isWithdrawal a.day a.sl1_address a.asset e

/-- The amount of the call, if it is a withdrawal of the account and the result is a pass. -/
def withdrawnBy (c : Call) (result : Result) : List Number :=
  if c.intent_type = "CROSS_CHAIN_WITHDRAWAL" && result.passes &&
      strictEq (field c.intent "sl1_address") a.sl1_address && strictEq (field c.intent "asset") a.asset then
    match c.amount with
    | .ok amount => [amount]
    | .error _ => []
  else []

/-- The audit log, and the amounts that were withdrawn from the account so far. -/
structure State where
  log : AuditLog
  withdrawn : List Number

def step (p : Node.Platform) (policies : List (String × List Rule)) (s : State) (c : Call) : State :=
  match evaluate p policies c s.log with
  | .ok (result, log) => ⟨log, s.withdrawn ++ a.withdrawnBy c result⟩
  | .error _ => s

/-- What the log says was withdrawn from the account. -/
def logged (log : AuditLog) : Number := todayTotal log a.day a.sl1_address a.asset

/-- The call is made on the day, with an integer amount. -/
structure OnDay (c : Call) : Prop where
  rule : isoDay c.clock.ruleTime = a.day
  audit : a.day.isPrefixOf c.clock.auditTime.toList = true
  integer : ∀ amount, c.amount = .ok amount → ∃ t, amount = .int t

/-- No withdrawal of the account drops out of a full log, and the amount of a withdrawal is not
taken from elsewhere. -/
structure Kept (s : State) (c : Call) : Prop where
  oldest : 5000 ≤ s.log.length → ∀ e, s.log.head? = some e → a.counts e = false
  amount : c.intent_type = "CROSS_CHAIN_WITHDRAWAL" →
    truthy (field c.intent "amount") = true ∨ truthy (field c.intent "expected_amount") = false

def EveryKept (p : Node.Platform) (policies : List (String × List Rule)) : State → List Call → Prop
  | _, [] => True
  | s, c :: calls => a.Kept s c ∧ EveryKept p policies (a.step p policies s c) calls

/-- What the log says of the account is what was withdrawn, within the limit. -/
structure Tallied (max : Number) (s : State) : Prop where
  logged : (s.log.filter a.counts).map (·.amount) = s.withdrawn
  integer : ∀ n ∈ s.withdrawn, ∃ t, n = .int t
  within : s.withdrawn = [] ∨ max.lt (total s.withdrawn) = false

variable {a : Account} {s : State} {max : Number}

theorem filter_bounded {keep : AuditEntry → Bool} {e : AuditEntry}
    (h : 5000 ≤ log.length → ∀ x, log.head? = some x → keep x = false) :
    (bounded (log ++ [e])).filter keep = log.filter keep ++ [e].filter keep := by
  unfold bounded
  rw [List.length_append, List.length_singleton]
  split
  · next hlong =>
    cases log with
    | nil => simp at hlong
    | cons x xs =>
      have hx := h (by simp only [List.length_cons] at hlong ⊢; omega) x rfl
      have hdrop : (x :: xs).filter keep = xs.filter keep := List.filter_cons_of_neg (by simp [hx])
      rw [hdrop, List.cons_append, List.tail_cons, List.filter_append]
  · rw [List.filter_append]

/-- What is appended is counted exactly when something is withdrawn. -/
theorem withdrawnBy_eq {result : Result} {amount : Number} {rule reason : Option Json} (hday : a.OnDay c)
    (hamount : c.amount = .ok amount) :
    a.withdrawnBy c result = ([entryOf c amount rule reason result.outcome].filter a.counts).map (·.amount) := by
  have hcounts : a.counts (entryOf c amount rule reason result.outcome) =
      (c.intent_type = "CROSS_CHAIN_WITHDRAWAL" && result.passes &&
        strictEq (field c.intent "sl1_address") a.sl1_address &&
        strictEq (field c.intent "asset") a.asset) := by
    unfold counts isWithdrawal
    dsimp only [entryOf]
    rw [hday.audit, Bool.and_true]
    cases result <;> rfl
  unfold withdrawnBy
  rw [List.filter_singleton, hcounts, hamount]
  split
  · next hcond => rw [hcond]; rfl
  · next hcond => rw [Bool.not_eq_true _ |>.mp hcond]; rfl

theorem amount_eq {v : Json} {n m : Number} (hv : Node.member (some v) "amount" = .ok (v.prop "amount"))
    (hkept : truthy (v.prop "amount") = true ∨ truthy (v.prop "expected_amount") = false)
    (hn : amountOf [Node.member (some v) "amount"] = .ok n)
    (hm : amountOf [.ok (v.prop "amount"), .ok (v.prop "expected_amount")] = .ok m) : n = m := by
  have hsources : amountOf [Node.member (some v) "amount"] =
      amountOf [.ok (v.prop "amount"), .ok (v.prop "expected_amount")] := by
    unfold amountOf
    simp only [firstTruthy]
    rw [hv]
    cases ha : truthy (v.prop "amount") with
    | true => simp [ha, bind, Except.bind]
    | false =>
      have he := hkept.resolve_left (by simp [ha])
      simp [ha, he, bind, Except.bind]
  rw [hsources, hm] at hn
  exact (Except.ok.inj hn).symm

theorem withdrawnBy_cases {result : Result} {amount : Number} (hamount : c.amount = .ok amount) :
    a.withdrawnBy c result = [] ∨
      c.intent_type = "CROSS_CHAIN_WITHDRAWAL" ∧ result.passes = true ∧
        field c.intent "sl1_address" = a.sl1_address ∧ field c.intent "asset" = a.asset ∧
        a.withdrawnBy c result = [amount] := by
  unfold withdrawnBy
  split
  · next hcond =>
    simp only [Bool.and_eq_true, decide_eq_true_eq] at hcond
    obtain ⟨⟨⟨htype, hpasses⟩, haddress⟩, hasset⟩ := hcond
    rw [hamount]
    exact .inr ⟨htype, hpasses, eq_of_strictEq haddress, eq_of_strictEq hasset, rfl⟩
  · exact .inl rfl

theorem Tallied.logged_eq (ht : a.Tallied max s) : a.logged s.log = total s.withdrawn := by
  have hints : ∀ e ∈ s.log.filter a.counts, ∃ t, e.amount = .int t := fun e he =>
    ht.integer _ (ht.logged ▸ List.mem_map_of_mem he)
  exact (sumAmounts_eq_total hints).trans (congrArg total ht.logged)

/-- A withdrawal that passes has been added to what was withdrawn before, and compared with the limit. -/
theorem Tallied.within_step {reason : String} {amount : Number} (ht : a.Tallied max s) (hday : a.OnDay c)
    (hkept : truthy (field c.intent "amount") = true ∨ truthy (field c.intent "expected_amount") = false)
    (haddress : field c.intent "sl1_address" = a.sl1_address) (hasset : field c.intent "asset" = a.asset)
    (hamount : c.amount = .ok amount)
    (hlimit : evaluateRule p c s.log (.dailyLimit max reason) = .ok none) :
    max.lt (total (s.withdrawn ++ [amount])) = false := by
  obtain ⟨sl1_address, asset, checked, hsl1, has, hchecked, hwithin⟩ := within_of_dailyLimit hlimit
  unfold Call.amount at hamount
  cases hintent : c.intent with
  | none => rw [hintent] at hsl1; cases hsl1
  | some v =>
    rw [hintent] at hsl1 has hchecked hamount hkept haddress hasset
    obtain ⟨hnull, rfl⟩ := Node.member_eq_ok.mp hsl1
    obtain ⟨-, rfl⟩ := Node.member_eq_ok.mp has
    have hread : Node.member (some v) "amount" = .ok (v.prop "amount") := Node.member_eq_ok.mpr ⟨hnull, rfl⟩
    have hsame : checked = amount := amount_eq hread hkept hchecked hamount
    have htotal : todayTotal s.log a.day (v.prop "sl1_address") (v.prop "asset") = total s.withdrawn := by
      rw [← ht.logged_eq, Account.logged, ← haddress, ← hasset]
      rfl
    rw [hday.rule, htotal, hsame] at hwithin
    rw [total_append_singleton]
    exact hwithin

theorem Tallied.step {reason : String} (hrules : policies.lookup "CROSS_CHAIN_WITHDRAWAL" = some rules)
    (hlimit : .dailyLimit max reason ∈ rules) (ht : a.Tallied max s) (hday : a.OnDay c)
    (hkept : a.Kept s c) : a.Tallied max (a.step p policies s c) := by
  unfold Account.step
  cases heval : evaluate p policies c s.log with
  | error e => exact ht
  | ok r =>
    obtain ⟨result, log'⟩ := r
    obtain ⟨⟨amount, rule, reason', hamount, rfl⟩, hpass⟩ :
        _ ∧ (result.passes = true → policies.lookup c.intent_type = some rules → _) := evaluate_eq_ok heval
    have hlogged : ((bounded (s.log ++ [entryOf c amount rule reason' result.outcome])).filter a.counts).map
        (·.amount) = s.withdrawn ++ a.withdrawnBy c result := by
      rw [filter_bounded hkept.oldest, List.map_append, ht.logged, withdrawnBy_eq hday hamount]
    obtain hnone | ⟨htype, hpasses, haddress, hasset, hone⟩ := withdrawnBy_cases (a := a) hamount
    · dsimp only
      rw [hnone, List.append_nil] at hlogged ⊢
      exact ⟨hlogged, ht.integer, ht.within⟩
    · dsimp only
      rw [hone] at hlogged ⊢
      refine ⟨hlogged, fun n hn => ?_, .inr ?_⟩
      · obtain hn | hn := List.mem_append.mp hn
        · exact ht.integer n hn
        · rw [List.mem_singleton.mp hn]
          exact hday.integer amount hamount
      · exact ht.within_step hday (hkept.amount htype) haddress hasset hamount
          (hpass hpasses (htype ▸ hrules) _ hlimit)

theorem Tallied.run {reason : String} (hrules : policies.lookup "CROSS_CHAIN_WITHDRAWAL" = some rules)
    (hlimit : .dailyLimit max reason ∈ rules) (calls : List Call) (ht : a.Tallied max s)
    (hday : ∀ c ∈ calls, a.OnDay c) (hkept : a.EveryKept p policies s calls) :
    a.Tallied max (calls.foldl (a.step p policies) s) := by
  induction calls generalizing s with
  | nil => exact ht
  | cons c calls ih =>
    exact ih (ht.step hrules hlimit (hday c List.mem_cons_self) hkept.1)
      (fun d hd => hday d (List.mem_cons_of_mem c hd)) hkept.2

end Account

/-- From a log without withdrawals of the account on that day, what is withdrawn stays within the limit. -/
theorem daily_limit_holds (p : Node.Platform) (policies : List (String × List Rule)) (rules : List Rule)
    (max : Number) (reason : String) (hrules : policies.lookup "CROSS_CHAIN_WITHDRAWAL" = some rules)
    (hlimit : .dailyLimit max reason ∈ rules) (a : Account) (log : AuditLog)
    (hlog : ∀ e ∈ log, a.counts e = false) (calls : List Call) (hday : ∀ c ∈ calls, a.OnDay c)
    (hkept : a.EveryKept p policies ⟨log, []⟩ calls) :
    (calls.foldl (a.step p policies) ⟨log, []⟩).withdrawn = [] ∨
      max.lt (total (calls.foldl (a.step p policies) ⟨log, []⟩).withdrawn) = false := by
  have hstart : a.Tallied max ⟨log, []⟩ :=
    ⟨by rw [List.filter_eq_nil_iff.mpr fun e he => by simp [hlog e he]]; rfl, nofun, .inl rfl⟩
  exact (hstart.run hrules hlimit calls hday hkept).within

/-! ## Unrelated traffic -/

def noon : String := "2026-06-26T12:00:00.000Z"

def alicesEth : Account where
  sl1_address := some (.str "sl1e_alice")
  asset := some (.str "ETH")
  day := isoDay noon

/-- A withdrawal of half a million, signed by the treasury. -/
def halfMillion : Call where
  intent_type := "CROSS_CHAIN_WITHDRAWAL"
  intent := some (.obj [("sl1_address", .str "sl1e_alice"), ("network", .str "ethereum"),
    ("asset", .str "ETH"), ("amount", .num (.int 500000))])
  context := .obj [("treasury_signature", .bool true)]
  dsl := .ok { ok := true, rule_id := none, reason := none, context := none, rules_evaluated := 6 }
  clock := { now := .int 0, ruleTime := noon, passTime := noon, auditTime := noon }

/-- An intent of a type that has no policy. -/
def ping : Call where
  intent_type := "PING"
  intent := some (.obj [])
  dsl := .ok { ok := true, rule_id := none, reason := none, context := none, rules_evaluated := 0 }
  clock := { now := .int 0, ruleTime := noon, passTime := noon, auditTime := noon }

def halfMillionEntry : AuditEntry := entryOf halfMillion (.int 500000) none none "PASS"

def pingEntry : AuditEntry := entryOf ping (.int 0) none none "PASS"

theorem evaluate_ping (log : AuditLog) :
    evaluate p DEFAULT_POLICIES ping log = .ok (.pass 0 noon, bounded (log ++ [pingEntry])) := by
  rfl

theorem dailyLimit_halfMillion
    (h : (Number.int 2000000).lt ((alicesEth.logged log).add (.int 500000)) = false) :
    evaluateRule p halfMillion log (.dailyLimit (.int 2000000) "Daily withdrawal limit exceeded") = .ok none := by
  have hrule : evaluateRule p halfMillion log (.dailyLimit (.int 2000000) "Daily withdrawal limit exceeded") =
      .ok (if (Number.int 2000000).lt ((alicesEth.logged log).add (.int 500000)) = true then
        some (details [("today_total", number (alicesEth.logged log)), ("this_amount", number (.int 500000)),
          ("daily_limit", number (.int 2000000))]) else none) := by
    rfl
  rw [hrule, if_neg (by simp [h])]

theorem evaluate_halfMillion
    (h : (Number.int 2000000).lt ((alicesEth.logged log).add (.int 500000)) = false) :
    evaluate p DEFAULT_POLICIES halfMillion log = .ok (.pass 13 noon, bounded (log ++ [halfMillionEntry])) := by
  have hrules : rulesFor DEFAULT_POLICIES halfMillion.intent_type =
      .ok (some ((DEFAULT_POLICIES.lookup halfMillion.intent_type).getD [])) := rfl
  -- the rules before the limit and the one after it do not read the log
  have hviolation : firstViolation p halfMillion log
      ((DEFAULT_POLICIES.lookup halfMillion.intent_type).getD []) = .ok none := by
    refine firstViolation_eq_none.mpr fun rule hrule => ?_
    simp only [DEFAULT_POLICIES, halfMillion, List.lookup_cons, Option.getD_some] at hrule
    rcases hrule with _ | ⟨_, _ | ⟨_, _ | ⟨_, _ | ⟨_, _ | ⟨_, _ | ⟨_, _ | ⟨_, h⟩⟩⟩⟩⟩⟩⟩
    · rfl
    · rfl
    · rfl
    · rfl
    · rfl
    · exact dailyLimit_halfMillion h
    · rfl
    · cases h
  unfold evaluate
  rw [show halfMillion.dsl = .ok _ from rfl, ok_bind, hrules]
  simp only [ok_bind, hviolation]
  rfl

theorem step_ping (withdrawn : List Number) : alicesEth.step p DEFAULT_POLICIES ⟨log, withdrawn⟩ ping =
    ⟨bounded (log ++ [pingEntry]), withdrawn⟩ := by
  unfold Account.step
  rw [evaluate_ping]
  dsimp only
  rw [show alicesEth.withdrawnBy ping (.pass 0 noon) = [] from rfl, List.append_nil]

theorem step_halfMillion (withdrawn : List Number)
    (h : (Number.int 2000000).lt ((alicesEth.logged log).add (.int 500000)) = false) :
    alicesEth.step p DEFAULT_POLICIES ⟨log, withdrawn⟩ halfMillion =
      ⟨bounded (log ++ [halfMillionEntry]), withdrawn ++ [.int 500000]⟩ := by
  unfold Account.step
  rw [evaluate_halfMillion h]
  rfl

def newest (log : AuditLog) : AuditLog := log.drop (log.length - 5000)

theorem bounded_newest (e : AuditEntry) : bounded (newest log ++ [e]) = newest (log ++ [e]) := by
  unfold newest
  rw [← List.drop_append_of_le_length (Nat.sub_le _ _), List.length_append, List.length_singleton]
  unfold bounded
  rw [List.length_drop, List.length_append, List.length_singleton, List.tail_drop]
  split
  · next hlong => exact congrArg (List.drop · (log ++ [e])) (by omega)
  · next hshort => exact congrArg (List.drop · (log ++ [e])) (by omega)

theorem newest_of_le (h : log.length ≤ 5000) : newest log = log := by
  unfold newest
  rw [Nat.sub_eq_zero_of_le h, List.drop_zero]

/-- The log after some pings is the newest part of the log with the pings. -/
theorem run_pings (withdrawn : List Number) (hlog : log.length ≤ 5000) (k : Nat) :
    (List.replicate k ping).foldl (alicesEth.step p DEFAULT_POLICIES) ⟨log, withdrawn⟩ =
      ⟨newest (log ++ List.replicate k pingEntry), withdrawn⟩ := by
  induction k with
  | zero =>
    have hnone : log ++ List.replicate 0 pingEntry = log := List.append_nil log
    rw [hnone, newest_of_le hlog]
    rfl
  | succ k ih =>
    rw [List.replicate_succ', List.foldl_append, ih, List.foldl_cons, List.foldl_nil, step_ping, bounded_newest,
      List.replicate_succ', List.append_assoc]

/-- After 5000 pings nothing is left of what was in the log before. -/
theorem logged_after_pings :
    alicesEth.logged (newest (log ++ List.replicate 5000 pingEntry)) = .int 0 := by
  have hnewest : newest (log ++ List.replicate 5000 pingEntry) = List.replicate 5000 pingEntry := by
    unfold newest
    rw [List.length_append, List.length_replicate, Nat.add_sub_cancel, List.drop_left]
  have hnone : (List.replicate 5000 pingEntry).filter alicesEth.counts = [] :=
    List.filter_eq_nil_iff.mpr fun e he => by
      rw [List.eq_of_mem_replicate he]
      decide
  rw [hnewest]
  exact congrArg sumAmounts hnone

theorem run_withdrawals {k : Nat} (hk : k ≤ 4) :
    (List.replicate k halfMillion).foldl (alicesEth.step p DEFAULT_POLICIES) ⟨[], []⟩ =
      ⟨List.replicate k halfMillionEntry, List.replicate k (.int 500000)⟩ := by
  have hwithin : ∀ k < 4, (Number.int 2000000).lt
      ((alicesEth.logged (List.replicate k halfMillionEntry)).add (.int 500000)) = false := by
    decide
  induction k with
  | zero => rfl
  | succ k ih =>
    have hshort : ¬ (List.replicate k halfMillionEntry ++ [halfMillionEntry]).length > 5000 := by
      rw [List.length_append, List.length_replicate, List.length_singleton]
      omega
    rw [List.replicate_succ', List.foldl_append, ih (by omega), List.foldl_cons, List.foldl_nil,
      step_halfMillion _ (hwithin k (by omega)), bounded, if_neg hshort, List.replicate_succ',
      List.replicate_succ']

/-- Four withdrawals, 5000 pings and a fifth withdrawal. -/
def fiveWithdrawals : List Call :=
  List.replicate 4 halfMillion ++ List.replicate 5000 ping ++ [halfMillion]

theorem run_fiveWithdrawals : (fiveWithdrawals.foldl (alicesEth.step p DEFAULT_POLICIES) ⟨[], []⟩).withdrawn =
    List.replicate 5 (.int 500000) := by
  unfold fiveWithdrawals
  rw [List.foldl_append, List.foldl_append, run_withdrawals (Nat.le_refl 4), run_pings _ (by simp),
    List.foldl_cons, List.foldl_nil, step_halfMillion _ (by rw [logged_after_pings]; decide)]
  rfl

theorem onDay_halfMillion : alicesEth.OnDay halfMillion :=
  ⟨rfl, by decide, fun _ h => ⟨500000, (Except.ok.inj h).symm⟩⟩

theorem onDay_ping : alicesEth.OnDay ping :=
  ⟨rfl, by decide, fun _ h => ⟨0, (Except.ok.inj h).symm⟩⟩

theorem onDay_fiveWithdrawals : ∀ c ∈ fiveWithdrawals, alicesEth.OnDay c := by
  intro c hc
  unfold fiveWithdrawals at hc
  rw [List.mem_append, List.mem_append, List.mem_singleton] at hc
  obtain (hc | hc) | rfl := hc
  · exact List.eq_of_mem_replicate hc ▸ onDay_halfMillion
  · exact List.eq_of_mem_replicate hc ▸ onDay_ping
  · exact onDay_halfMillion

/-- The fifth withdrawal is past the limit of two million. -/
theorem limit_forgotten : ∃ (p : Node.Platform) (calls : List Call), (∀ c ∈ calls, alicesEth.OnDay c) ∧
    (Number.int 2000000).lt (total (calls.foldl (alicesEth.step p DEFAULT_POLICIES) ⟨[], []⟩).withdrawn) = true :=
  ⟨GovernanceEngine.plainPlatform, fiveWithdrawals, onDay_fiveWithdrawals, by rw [run_fiveWithdrawals]; decide⟩

/-- Two withdrawals with a ping between them. -/
theorem twoWithdrawals_within : (Number.int 2000000).lt (total
    ([halfMillion, ping, halfMillion].foldl (alicesEth.step GovernanceEngine.plainPlatform DEFAULT_POLICIES)
      ⟨[], []⟩).withdrawn) = false := by
  have hday : ∀ c ∈ [halfMillion, ping, halfMillion], alicesEth.OnDay c := by
    rw [List.forall_mem_cons, List.forall_mem_cons, List.forall_mem_singleton]
    exact ⟨onDay_halfMillion, onDay_ping, onDay_halfMillion⟩
  have hkept : alicesEth.EveryKept GovernanceEngine.plainPlatform DEFAULT_POLICIES ⟨[], []⟩
      [halfMillion, ping, halfMillion] := by
    refine ⟨⟨fun h => absurd h (by decide), fun _ => .inl rfl⟩, ⟨fun h => absurd h ?_, nofun⟩,
      ⟨fun h => absurd h ?_, fun _ => .inl rfl⟩, trivial⟩
    · decide
    · decide
  obtain hnone | hwithin := daily_limit_holds GovernanceEngine.plainPlatform DEFAULT_POLICIES _ (.int 2000000)
    "Daily withdrawal limit exceeded" rfl (by simp) alicesEth [] nofun _ hday hkept
  · rw [hnone]
    decide
  · exact hwithin

end SimpleL1.Settlement.PolicyEngine
