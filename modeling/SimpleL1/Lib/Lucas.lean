import Mathlib.NumberTheory.LucasPrimality
import Mathlib.Data.List.Prime
import Mathlib.Data.Nat.Prime.Basic

/-!
# Lucas's test

A number is prime if some `a` has order `p - 1` modulo it. The test needs the prime factors of
`p - 1`, which come with their proofs, and powers modulo `p`, by squaring.
-/

namespace SimpleL1.Lib.Lucas

/-- `a ^ n % m` for an exponent of so many binary digits, the highest first. -/
def powMod (m a : Nat) : Nat → Nat → Nat
  | 0, _ => 1 % m
  | bits + 1, n =>
    let root := powMod m a bits (n / 2)
    if n % 2 = 0 then root * root % m else root * root * a % m

theorem powMod_eq {m a bits n : Nat} (h : n < 2 ^ bits) : powMod m a bits n = a ^ n % m := by
  induction bits generalizing n with
  | zero =>
    obtain rfl : n = 0 := by omega
    rfl
  | succ bits ih =>
    have hhalf : n / 2 < 2 ^ bits := by
      rw [pow_succ] at h
      omega
    have hsquare : a ^ (n / 2) * a ^ (n / 2) = a ^ (2 * (n / 2)) := by rw [← pow_add, two_mul]
    unfold powMod
    rw [ih hhalf]
    dsimp only
    by_cases heven : n % 2 = 0
    · rw [if_pos heven, ← Nat.mul_mod, hsquare]
      congr 2
      omega
    · have hodd : 2 * (n / 2) + 1 = n := by omega
      rw [if_neg heven, Nat.mul_mod, ← Nat.mul_mod (a ^ (n / 2)), ← Nat.mul_mod, hsquare, ← pow_succ, hodd]

/-- The power of `a` at `p - 1` is 1, and at no proper divisor of it. -/
def test (p a bits : Nat) (factors : List Nat.Primes) : Bool :=
  decide (1 < p) && decide (p < 2 ^ bits) && (factors.map Subtype.val).prod + 1 == p &&
    powMod p a bits (p - 1) == 1 && factors.all fun q => powMod p a bits ((p - 1) / q.val) != 1

theorem pow_eq_one_iff {p : Nat} (hp : 1 < p) (a n : Nat) : (a : ZMod p) ^ n = 1 ↔ a ^ n % p = 1 := by
  have hone : 1 % p = 1 := Nat.mod_eq_of_lt hp
  have hcast : (a : ZMod p) ^ n = 1 ↔ ((a ^ n : Nat) : ZMod p) = ((1 : Nat) : ZMod p) := by
    rw [Nat.cast_pow, Nat.cast_one]
  rw [hcast, ZMod.natCast_eq_natCast_iff', hone]

theorem prime_of_test {p : Nat} (a bits : Nat) (factors : List Nat.Primes)
    (h : test p a bits factors = true) : p.Prime := by
  unfold test at h
  simp only [Bool.and_eq_true, decide_eq_true_eq, beq_iff_eq, List.all_eq_true, bne_iff_ne] at h
  obtain ⟨⟨⟨⟨hp, hbits⟩, hprod⟩, hone⟩, hne⟩ := h
  have hpow : ∀ n ≤ p - 1, powMod p a bits n = a ^ n % p := fun n hn => powMod_eq (by omega)
  refine lucas_primality p a ?_ fun q hq hdvd => ?_
  · rw [pow_eq_one_iff hp, ← hpow _ le_rfl]
    exact hone
  · have hfactors : p - 1 = (factors.map Subtype.val).prod := by omega
    rw [hfactors] at hdvd
    obtain ⟨_, hmem, hqf⟩ := (Prime.dvd_prod_iff hq.prime).mp hdvd
    obtain ⟨f, hf, rfl⟩ := List.mem_map.mp hmem
    obtain rfl : q = f.val := (Nat.prime_dvd_prime_iff_eq hq f.property).mp hqf
    rw [Ne, pow_eq_one_iff hp, ← hpow _ (Nat.div_le_self _ _)]
    exact hne f hf

end SimpleL1.Lib.Lucas
