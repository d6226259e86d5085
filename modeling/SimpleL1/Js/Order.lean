import SimpleL1.Js.Arithmetic
import Mathlib.Data.Rat.Cast.Order
import Mathlib.Tactic.FieldSimp
import Mathlib.Tactic.Linarith

/-!
# Differences and their order

A difference keeps the order of what is subtracted from, except where it is `NaN`. Finite numbers are
compared as rationals; an infinite one is below or above everything that is not `NaN`.
-/

namespace SimpleL1.Js

namespace Number

/-- `x - y`. -/
def sub (x y : Number) : Number := add x (neg y)

/-- `Math.max(0, x)`. -/
def maxZero (x : Number) : Number := if x = nan then nan else if x.lt (int 0) then int 0 else x

/-- The value of a finite number. -/
def rat (x : Number) : ℚ :=
  match x.fraction with
  | some (a, j) => a / 10 ^ j
  | none => 0

theorem fraction_of_isFinite {x : Number} (h : x.isFinite = true) : ∃ a j, x.fraction = some (a, j) := by
  cases x with
  | int n => exact ⟨n, 0, rfl⟩
  | dec m k => exact ⟨m, k + 1, rfl⟩
  | nan | infinity => cases h

theorem fraction_ofFraction (m : Int) (k : Nat) : (ofFraction m k).fraction = some (m, k) := by
  cases k <;> rfl

theorem isFinite_of_fraction {x : Number} {q : Int × Nat} (h : x.fraction = some q) : x.isFinite = true := by
  cases x with
  | int | dec => rfl
  | nan | infinity => cases h

theorem lt_iff_rat {x y : Number} (hx : x.isFinite = true) (hy : y.isFinite = true) :
    x.lt y = true ↔ x.rat < y.rat := by
  obtain ⟨a, j, ha⟩ := fraction_of_isFinite hx
  obtain ⟨b, k, hb⟩ := fraction_of_isFinite hy
  have hj : (0 : ℚ) < 10 ^ j := by positivity
  have hk : (0 : ℚ) < 10 ^ k := by positivity
  unfold lt rat
  rw [ha, hb]
  dsimp only
  rw [decide_eq_true_eq, div_lt_div_iff₀ hj hk]
  exact_mod_cast Iff.rfl

theorem fraction_neg {y : Number} {b : Int} {k : Nat} (h : y.fraction = some (b, k)) :
    (neg y).fraction = some (-b, k) := by
  cases y with
  | int | dec => cases h; rfl
  | nan | infinity => cases h

theorem rat_sub {x y : Number} (hx : x.isFinite = true) (hy : y.isFinite = true) :
    (sub x y).isFinite = true ∧ (sub x y).rat = x.rat - y.rat := by
  obtain ⟨a, j, ha⟩ := fraction_of_isFinite hx
  obtain ⟨b, k, hb⟩ := fraction_of_isFinite hy
  have hsub : (sub x y).fraction = some (a * 10 ^ k + -b * 10 ^ j, j + k) := by
    unfold sub add
    rw [ha, fraction_neg hb]
    exact fraction_ofFraction _ _
  refine ⟨isFinite_of_fraction hsub, ?_⟩
  unfold rat
  rw [hsub, ha, hb]
  dsimp only
  push_cast
  rw [pow_add]
  field_simp
  ring

/-! ## Infinities -/

theorem cases_finite (x : Number) : x = nan ∨ x = infinity true ∨ x = infinity false ∨ x.isFinite = true := by
  cases x with
  | nan => exact .inl rfl
  | infinity sign => cases sign <;> simp
  | int | dec => exact .inr (.inr (.inr rfl))

theorem lt_negInfinity (x : Number) : x.lt (infinity true) = false := by
  cases x with
  | infinity sign => cases sign <;> rfl
  | nan | int | dec => rfl

theorem infinity_lt (x : Number) : (infinity false).lt x = false := by
  cases x <;> rfl

theorem nan_lt (x : Number) : nan.lt x = false := by
  cases x <;> rfl

theorem lt_nan (x : Number) : x.lt nan = false := by
  cases x with
  | infinity sign => cases sign <;> rfl
  | nan | int | dec => rfl

theorem le_iff {x y : Number} : x.le y = true ↔ x ≠ nan ∧ y ≠ nan ∧ y.lt x = false := by
  unfold le
  rw [Bool.and_eq_true, Bool.and_eq_true, decide_eq_true_eq, decide_eq_true_eq, Bool.not_eq_true', and_assoc]

theorem sub_of_isFinite {x : Number} (h : x.isFinite = true) (sign : Bool) :
    sub x (infinity sign) = infinity !sign ∧ sub (infinity sign) x = infinity sign := by
  obtain ⟨a, j, ha⟩ := fraction_of_isFinite h
  unfold sub add
  rw [ha, fraction_neg ha]
  exact ⟨rfl, rfl⟩

theorem sub_nan (x : Number) : sub x nan = nan := by
  cases x with
  | infinity sign => cases sign <;> rfl
  | nan | int | dec => rfl

/-- Where neither difference is `NaN`, they are ordered as the numbers are. -/
theorem sub_le_sub {x y n : Number} (h : x.lt y = true) (hx : sub x n ≠ nan) (hy : sub y n ≠ nan) :
    (sub x n).le (sub y n) = true := by
  have hbelow : sub x n = infinity true → (sub x n).le (sub y n) = true := by
    intro heq
    rw [heq]
    exact le_iff.mpr ⟨by decide, hy, lt_negInfinity _⟩
  have habove : sub y n = infinity false → (sub x n).le (sub y n) = true := by
    intro heq
    rw [heq]
    exact le_iff.mpr ⟨hx, by decide, infinity_lt _⟩
  obtain rfl | rfl | rfl | hnf := cases_finite n
  · exact absurd (sub_nan x) hx
  · -- Nothing is below the negative infinity.
    obtain rfl | rfl | rfl | hyf := cases_finite y
    · rw [lt_nan] at h
      cases h
    · rw [lt_negInfinity] at h
      cases h
    · exact habove rfl
    · exact habove (sub_of_isFinite hyf true).1
  · obtain rfl | rfl | rfl | hxf := cases_finite x
    · rw [nan_lt] at h
      cases h
    · exact hbelow rfl
    · rw [infinity_lt] at h
      cases h
    · exact hbelow (sub_of_isFinite hxf false).1
  · obtain rfl | rfl | rfl | hxf := cases_finite x
    · rw [nan_lt] at h
      cases h
    · exact hbelow (sub_of_isFinite hnf true).2
    · rw [infinity_lt] at h
      cases h
    obtain rfl | rfl | rfl | hyf := cases_finite y
    · rw [lt_nan] at h
      cases h
    · rw [lt_negInfinity] at h
      cases h
    · exact habove (sub_of_isFinite hnf false).2
    · obtain ⟨hxn, hxr⟩ := rat_sub hxf hnf
      obtain ⟨hyn, hyr⟩ := rat_sub hyf hnf
      refine le_iff.mpr ⟨hx, hy, Bool.eq_false_iff.mpr fun hlt => ?_⟩
      have hlt := (lt_iff_rat hyn hxn).mp hlt
      have hxy := (lt_iff_rat hxf hyf).mp h
      linarith

/-- A difference that is `NaN` is of equal infinities, and what exceeds them by more exceeds every bound. -/
theorem sub_eq_of_nan {x y n : Number} (h : x.lt y = true) (hx : sub x n = nan) :
    sub y n = nan ∨ sub y n = infinity false := by
  obtain rfl | rfl | rfl | hnf := cases_finite n
  · exact .inl (sub_nan y)
  · obtain rfl | rfl | rfl | hyf := cases_finite y
    · exact .inl rfl
    · exact .inl rfl
    · exact .inr rfl
    · exact .inr (sub_of_isFinite hyf true).1
  · obtain rfl | rfl | rfl | hxf := cases_finite x
    · rw [nan_lt] at h
      cases h
    · cases hx
    · rw [infinity_lt] at h
      cases h
    · rw [(sub_of_isFinite hxf false).1] at hx
      cases hx
  · obtain rfl | rfl | rfl | hxf := cases_finite x
    · rw [nan_lt] at h
      cases h
    · rw [(sub_of_isFinite hnf true).2] at hx
      cases hx
    · rw [infinity_lt] at h
      cases h
    · have hfinite := (rat_sub hxf hnf).1
      rw [hx] at hfinite
      cases hfinite

/-! ## Clamping -/

theorem maxZero_of_lt {x : Number} (h : x.lt (int 0) = true) : maxZero x = int 0 := by
  unfold maxZero
  rw [if_neg, if_pos h]
  rintro rfl
  rw [nan_lt] at h
  cases h

theorem maxZero_of_not_lt {x : Number} (h : x.lt (int 0) = false) : maxZero x = x := by
  unfold maxZero
  rw [h]
  split
  · next hx => exact hx.symm
  · rfl

theorem maxZero_le_maxZero {x y : Number} (h : x.le y = true) : (maxZero x).le (maxZero y) = true := by
  obtain ⟨hx, hy, hnot⟩ := le_iff.mp h
  cases hx0 : x.lt (int 0) with
  | true =>
    rw [maxZero_of_lt hx0]
    cases hy0 : y.lt (int 0) with
    | true =>
      rw [maxZero_of_lt hy0]
      decide
    | false =>
      rw [maxZero_of_not_lt hy0]
      exact le_iff.mpr ⟨by decide, hy, hy0⟩
  | false =>
    have hy0 : y.lt (int 0) = false := by
      cases hy0 : y.lt (int 0) with
      | true => exact (lt_of_le_of_lt h hy0).symm.trans hx0
      | false => rfl
    rw [maxZero_of_not_lt hx0, maxZero_of_not_lt hy0]
    exact h

/-- A larger minuend does not leave a clamped difference below a bound that it was not below. -/
theorem lt_maxZero_sub {x y n r : Number} (h : x.lt y = true) (hlt : (maxZero (sub y n)).lt r = true) :
    (maxZero (sub x n)).lt r = true := by
  by_cases hx : sub x n = nan
  · obtain heq | heq := sub_eq_of_nan h hx
    · rw [heq, show maxZero nan = nan from rfl, nan_lt] at hlt
      cases hlt
    · rw [heq, maxZero_of_not_lt (infinity_lt _), infinity_lt] at hlt
      cases hlt
  · by_cases hy : sub y n = nan
    · rw [hy, show maxZero nan = nan from rfl, nan_lt] at hlt
      cases hlt
    · exact lt_of_le_of_lt (maxZero_le_maxZero (sub_le_sub h hx hy)) hlt

end Number

end SimpleL1.Js
