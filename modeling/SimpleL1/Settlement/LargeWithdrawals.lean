import SimpleL1.Settlement.Constitution
import SimpleL1.Settlement.DailyLimit

/-!
# Large withdrawals

A large withdrawal passes with the signature of the treasury, and a day after it
was verified if its history says when that was. Both are asked by the rules in the
code, which read the amount of the intent first; the constitution reads facts that
the context may replace. An intent whose history is missing, or says nothing of a
verification, does not wait.
-/

namespace SimpleL1.Settlement.PolicyEngine

open SimpleL1.Js

variable {p : Node.Platform} {c : Call} {log log' : AuditLog} {amount : Number}

/-! ## What the rules ask -/

theorem le_trans_int {a b : Int} {x : Number} (hab : a ≤ b) (h : (Number.int b).le x = true) :
    (Number.int a).le x = true := by
  cases x with
  | nan => simp [Number.le] at h
  | infinity neg => cases neg <;> simp_all [Number.le, Number.lt, Number.fraction]
  | int n =>
    simp [Number.le, Number.lt, Number.fraction] at h ⊢
    omega
  | dec m k =>
    simp only [Number.le, Number.lt, Number.fraction] at h ⊢
    simp at h ⊢
    have hpow : a * 10 ^ (k + 1) ≤ b * 10 ^ (k + 1) := Int.mul_le_mul_of_nonneg_right hab (by positivity)
    omega

/-- The amount of an intent that is not zero goes before that of the context. -/
theorem amountOf_own {x : JsM (Option Json)} {more : List (JsM (Option Json))}
    (h : amountOf [x] = .ok amount) (hlarge : (Number.int 50000).le amount = true) :
    amountOf (x :: more) = .ok amount := by
  unfold amountOf at h ⊢
  obtain ⟨v, hv, hamount⟩ := bind_eq_ok.mp h
  obtain ⟨w, hw, hfirst⟩ := bind_eq_ok.mp hv
  by_cases htruthy : truthy w = true
  · rw [if_pos htruthy] at hfirst
    cases hfirst
    refine bind_eq_ok.mpr ⟨v, bind_eq_ok.mpr ⟨v, hw, ?_⟩, hamount⟩
    rw [if_pos htruthy]
  · rw [if_neg htruthy] at hfirst
    cases hfirst
    -- `parseFloat(0)` is no large amount
    have hzero : parseFloat (some (.num (.int 0))) = .ok (.int 0) := by decide +kernel
    rw [hzero] at hamount
    cases hamount
    cases hlarge

theorem signed_of_multisig {reason : String}
    (hamount : amountOf [Node.member c.intent "amount"] = .ok amount)
    (hlarge : (Number.int 50000).le amount = true)
    (h : evaluateRule p c log (.treasuryMultisig (.int 10000) reason) = .ok none) :
    c.context.prop "treasury_signature" = some (.bool true) := by
  obtain ⟨amount', hamount', h⟩ := bind_eq_ok.mp h
  rw [amountOf_own hamount hlarge] at hamount'
  cases hamount'
  have hover : (if (Number.int 10000).truthy then Number.int 10000 else .int 10000).le amount = true :=
    le_trans_int (by decide) hlarge
  dsimp only at h
  rw [hover, Bool.true_and] at h
  refine eq_of_strictEq ?_
  by_contra hunsigned
  rw [if_pos (by simpa using hunsigned)] at h
  cases h

/-- The entry of a state history says that the intent was verified. -/
def isVerified (entry : Json) : Bool := strictEq (entry.prop "to") (some (.str "VERIFIED"))

theorem find_agrees {α : Type} {f : α → JsM Bool} {g : α → Bool} (hfg : ∀ x b, f x = .ok b → b = g x)
    {xs : List α} {found : Option α} (h : Js.find f xs = .ok found) : found = xs.find? g := by
  induction xs with
  | nil =>
    cases h
    rfl
  | cons x xs ih =>
    obtain ⟨b, hb, h⟩ := bind_eq_ok.mp h
    rw [List.find?_cons, ← hfg x b hb]
    cases b with
    | true =>
      cases h
      rfl
    | false => exact ih h

theorem sinceVerified_of_first {entries : List Json} {entry : Json} {verified : Int}
    {since : Option (Number × Number)} (hfirst : entries.find? isVerified = some entry)
    (hdate : Node.newDate p (entry.prop "at") = .ok (.int verified))
    (h : sinceVerified p c (some (.arr entries)) = .ok since) :
    since = some (c.clock.now.add (.int (-verified)), .int verified) := by
  obtain ⟨found, hfound, h⟩ := bind_eq_ok.mp h
  have hsame : found = entries.find? isVerified := by
    refine find_agrees ?_ hfound
    intro x b hx
    obtain ⟨target, htarget, hb⟩ := bind_eq_ok.mp hx
    cases hb
    rw [(Node.member_eq_ok.mp htarget).2]
    rfl
  rw [hsame, hfirst] at h
  obtain ⟨date, hdate', h⟩ := bind_eq_ok.mp h
  rw [hdate] at hdate'
  cases hdate'
  cases h
  rfl

theorem waited_of_timeDelay {reason : String} {now verified : Int} {entries : List Json} {entry : Json}
    (hnow : c.clock.now = .int now) (hamount : amountOf [Node.member c.intent "amount"] = .ok amount)
    (hlarge : (Number.int 50000).le amount = true)
    (hhistory : field c.intent "state_history" = some (.arr entries))
    (hfirst : entries.find? isVerified = some entry)
    (hdate : Node.newDate p (entry.prop "at") = .ok (.int verified))
    (h : evaluateRule p c log (.timeDelay (.int 0) (.int 50000) (.int 86400000) reason) = .ok none) :
    verified + 86400000 ≤ now := by
  obtain ⟨state_history, hread, h⟩ := bind_eq_ok.mp h
  have hsame : state_history = some (.arr entries) := by
    cases hintent : c.intent with
    | none =>
      rw [hintent] at hhistory
      cases hhistory
    | some v =>
      rw [hintent] at hread hhistory
      rw [(Node.member_eq_ok.mp hread).2]
      exact hhistory
  subst hsame
  rw [if_neg (by exact nofun)] at h
  obtain ⟨amount', hamount', h⟩ := bind_eq_ok.mp h
  rw [amountOf_own hamount hlarge] at hamount'
  cases hamount'
  have hthreshold : (if (Number.int 50000).truthy then Number.int 50000 else .infinity false).le amount = true :=
    hlarge
  dsimp only at h
  rw [hthreshold, if_pos rfl, if_neg (by decide)] at h
  obtain ⟨since, hsince, h⟩ := bind_eq_ok.mp h
  rw [sinceVerified_of_first hfirst hdate hsince, hnow] at h
  by_contra hearly
  have hlt : ((Number.int now).add (.int (-verified))).lt (.int 86400000) = true := by
    rw [Number.add_int]
    simp only [Number.lt, Number.fraction, decide_eq_true_eq]
    omega
  dsimp only at h
  rw [if_pos hlt] at h
  obtain ⟨unlocks, -, h⟩ := bind_eq_ok.mp h
  cases h

/-! ## Both layers -/

/-- A platform on which every date is the start of 1970. -/
def epochPlatform : Node.Platform :=
  { GovernanceEngine.plainPlatform with parseDate := fun _ => .int 0 }

/-- A withdrawal of 50000, with the further fields given. -/
def largeWithdrawal (more : Fields) : Json :=
  .obj ([("sl1_address", .str "sl1e_alice"), ("network", .str "ethereum"), ("asset", .str "ETH"),
    ("amount", .num (.int 50000))] ++ more)

def largeCall (more : Fields) : Call :=
  shippedCall epochPlatform (fun _ _ => .ok false) "CROSS_CHAIN_WITHDRAWAL" (some (largeWithdrawal more))
    (.obj [("treasury_signature", .bool true)]) (.int 86400000)
    ⟨.int 86400000, "1970-01-02T00:00:00.000Z", "1970-01-02T00:00:00.000Z", "1970-01-02T00:00:00.000Z"⟩

/-- Verified at the start of 1970. -/
def verifiedHistory : Fields :=
  [("state_history", .arr [.obj [("to", .str "VERIFIED"), ("at", .str "1970-01-01T00:00:00.000Z")]])]

theorem evaluate_large_verified : evaluate epochPlatform DEFAULT_POLICIES (largeCall verifiedHistory) []
    = .ok (.pass 13 "1970-01-02T00:00:00.000Z", [entryOf (largeCall verifiedHistory) (.int 50000) none none "PASS"]) := by
  rfl

end SimpleL1.Settlement.PolicyEngine
