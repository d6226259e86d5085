import SimpleL1.Lib.Lucas
import SimpleL1.Lib.Rounds
import Mathlib.LinearAlgebra.Matrix.Nondegenerate
import Mathlib.FieldTheory.Finite.Basic
import Mathlib.Tactic.NormNum.Prime
import Mathlib.Tactic.Ring

/-!
# The Poseidon engine

`PoseidonEngine`: a state of field elements goes through full and partial rounds, each of which adds
constants, takes fifth powers and mixes the state by the matrix `i + j + 1`. That matrix has rank two,
so beyond two elements every round loses something.
-/

namespace SimpleL1.Kernel.Poseidon

open SimpleL1.Lib Function

/-! ## The engine -/

def fieldPrime : Nat := 21888242871839275222246405745257275088548364400416034343698204186575808495617

def protocolId : Nat := 0x1000ead0beef8421c0de00000000000000000000000000000000000000001337

/-- The rounds are those of three elements: "Simplified for v1.0". -/
def fullRounds : Nat := 8

def partialRounds (t : Nat) : Nat := if t = 3 then 57 else 60

/-- A number that has been taken modulo the prime. -/
abbrev Fp := Fin fieldPrime

abbrev State (t : Nat) := Fin t → Fp

/-- `gmp_mod($n, $this->p)` -/
def reduce (n : Nat) : Fp := ⟨n % fieldPrime, Nat.mod_lt _ (by decide)⟩

/-- `gmp_powm($val, gmp_init($this->alpha), $this->p)` -/
def power (x : Fp) : Fp := reduce (x.val ^ 5)

/-- The outer index runs over the new state, the inner one over the old. -/
def applyMds {t : Nat} (state : State t) : State t := fun i =>
  (List.finRange t).foldl (fun acc j => reduce (acc.val + (state j).val * (i.val + j.val + 1))) (reduce 0)

section
variable (constants : Nat → Nat → Fp)

def addConstants {t : Nat} (round : Nat) (state : State t) : State t := fun i =>
  reduce ((state i).val + (constants round i.val).val)

def fullRound {t : Nat} (round : Nat) (state : State t) : State t :=
  applyMds fun i => power (addConstants constants round state i)

def partialRound {t : Nat} (round : Nat) (state : State t) : State t :=
  applyMds fun i =>
    if i.val = 0 then power (addConstants constants round state i) else addConstants constants round state i

/-- The rounds in their order. -/
def rounds (t : Nat) : List (State t → State t) :=
  (List.range' 0 (fullRounds / 2)).map (fullRound constants) ++
    (List.range' (fullRounds / 2) (partialRounds t)).map (partialRound constants) ++
    (List.range' (fullRounds / 2 + partialRounds t) (fullRounds / 2)).map (fullRound constants)

def permutation {t : Nat} (state : State t) : State t := Rounds.runAll (rounds constants t) state

/-- `gmp_mod` answers no negative number. -/
def toFp (input : Int) : Fp := reduce (input % fieldPrime).toNat

/-- The inputs come after the protocol's capacity; the answer is the first element. -/
def hash (inputs : List Int) : Nat :=
  let state : State (inputs.length + 1) := Fin.cons (reduce protocolId) fun i => toFp (inputs.get i)
  (permutation constants state 0).val

end

/-! ## The prime -/

open Lucas

/-- What `fieldPrime - 1` is made of, and what these are made of in turn. -/
def two : Nat.Primes := ⟨2, by norm_num⟩

def p12048837557 : Nat.Primes :=
  ⟨12048837557, prime_of_test 2 34 [two, two, ⟨7, by norm_num⟩, ⟨7, by norm_num⟩, ⟨661, by norm_num⟩,
    ⟨93001, by norm_num⟩] (by decide +kernel)⟩

def p5156902474397 : Nat.Primes :=
  ⟨5156902474397, prime_of_test 2 43 [two, two, ⟨107, by norm_num⟩, p12048837557] (by decide +kernel)⟩

def p1670836401704629 : Nat.Primes :=
  ⟨1670836401704629, prime_of_test 2 51 [two, two, ⟨3, by norm_num⟩, ⟨3, by norm_num⟩, ⟨3, by norm_num⟩,
    ⟨3, by norm_num⟩, p5156902474397] (by decide +kernel)⟩

def p639533339 : Nat.Primes :=
  ⟨639533339, prime_of_test 2 30 [two, ⟨229, by norm_num⟩, ⟨853, by norm_num⟩, ⟨1637, by norm_num⟩]
    (by decide +kernel)⟩

def p65865678001877903 : Nat.Primes :=
  ⟨65865678001877903, prime_of_test 5 56 [two, ⟨83, by norm_num⟩, ⟨379, by norm_num⟩, ⟨1637, by norm_num⟩,
    p639533339] (by decide +kernel)⟩

def p13818364434197438864469338081 : Nat.Primes :=
  ⟨13818364434197438864469338081, prime_of_test 3 94 [two, two, two, two, two, ⟨5, by norm_num⟩,
    ⟨823, by norm_num⟩, ⟨1593227, by norm_num⟩, p65865678001877903] (by decide +kernel)⟩

def p405928799 : Nat.Primes :=
  ⟨405928799, prime_of_test 22 29 [two, ⟨11, by norm_num⟩, ⟨3691, by norm_num⟩, ⟨4999, by norm_num⟩]
    (by decide +kernel)⟩

theorem prime_fieldPrime : fieldPrime.Prime :=
  prime_of_test 5 254 (List.replicate 28 two ++ [⟨3, by norm_num⟩, ⟨3, by norm_num⟩, ⟨13, by norm_num⟩,
    ⟨29, by norm_num⟩, ⟨983, by norm_num⟩, ⟨11003, by norm_num⟩, ⟨237073, by norm_num⟩, p405928799,
    p1670836401704629, p13818364434197438864469338081]) (by decide +kernel)

instance : Fact fieldPrime.Prime := ⟨prime_fieldPrime⟩

/-! ## The mixing matrix -/

section
variable {K : Type} [Field K]

def mixing (K : Type) [Field K] (t : Nat) : Matrix (Fin t) (Fin t) K := fun i j => ((i.val + j.val + 1 : Nat) : K)

/-- The second differences of a row of three or more entries vanish. -/
theorem mixing_mulVec_differences (t : Nat) :
    (mixing K (t + 3)).mulVec (Fin.cons 1 (Fin.cons (-2) (Fin.cons 1 0))) = 0 := by
  funext i
  simp only [Matrix.mulVec, dotProduct, mixing, Fin.sum_univ_succ, Fin.cons_zero, Fin.cons_succ, Fin.val_zero,
    Fin.val_succ, Pi.zero_apply, mul_zero, Finset.sum_const_zero, add_zero]
  push_cast
  ring

theorem mixing_injective_iff {t : Nat} : Injective (mixing K t).mulVec ↔ t ≤ 2 := by
  constructor
  · intro hinj
    by_contra ht
    obtain ⟨t, rfl⟩ : ∃ t', t = t' + 3 := ⟨t - 3, by omega⟩
    have hzero := hinj ((mixing_mulVec_differences t).trans (Matrix.mulVec_zero _).symm)
    exact one_ne_zero (congrFun hzero 0)
  · intro ht
    apply Matrix.mulVec_injective_of_det_ne_zero
    match t, ht with
    | 0, _ => simp
    | 1, _ => simp [mixing]
    | 2, _ =>
      rw [Matrix.det_fin_two]
      norm_num [mixing]

end

/-! ## The engine over the field -/

section
variable {t : Nat} {constants : Nat → Nat → Fp} {round : Nat}

def toField : Fp ≃ ZMod fieldPrime where
  toFun x := (x.val : ZMod fieldPrime)
  invFun z := ⟨z.val, ZMod.val_lt z⟩
  left_inv x := Fin.ext (ZMod.val_cast_of_lt x.isLt)
  right_inv z := ZMod.natCast_zmod_val z

def toFields : State t ≃ (Fin t → ZMod fieldPrime) := Equiv.piCongrRight fun _ => toField

theorem toField_reduce (n : Nat) : toField (reduce n) = (n : ZMod fieldPrime) := ZMod.natCast_mod n fieldPrime

theorem toField_add (x y : Fp) : toField (reduce (x.val + y.val)) = toField x + toField y := by
  rw [toField_reduce, Nat.cast_add]
  rfl

theorem toField_power (x : Fp) : toField (power x) = toField x ^ 5 := by
  unfold power
  rw [toField_reduce, Nat.cast_pow]
  rfl

theorem toField_foldl (state : State t) (i : Fin t) (js : List (Fin t)) (acc : Fp) :
    toField (js.foldl (fun acc j => reduce (acc.val + (state j).val * (i.val + j.val + 1))) acc) =
      toField acc + (js.map fun j => mixing (ZMod fieldPrime) t i j * toField (state j)).sum := by
  induction js generalizing acc with
  | nil => exact (add_zero _).symm
  | cons j js ih =>
    rw [List.foldl_cons, ih, toField_reduce, List.map_cons, List.sum_cons, ← add_assoc, Nat.cast_add, Nat.cast_mul,
      mul_comm]
    rfl

theorem toFields_applyMds (state : State t) :
    toFields (applyMds state) = (mixing (ZMod fieldPrime) t).mulVec (toFields state) := by
  funext i
  have hsum := toField_foldl state i (List.finRange t) (reduce 0)
  rw [toField_reduce, Nat.cast_zero, zero_add, ← Fin.sum_univ_def] at hsum
  exact hsum

/-- The substitution of a full round. -/
def fullSubstitution (constants : Nat → Nat → Fp) (round : Nat) (i : Fin t) (x : ZMod fieldPrime) : ZMod fieldPrime :=
  (x + toField (constants round i.val)) ^ 5

def partialSubstitution (constants : Nat → Nat → Fp) (round : Nat) (i : Fin t) (x : ZMod fieldPrime) :
    ZMod fieldPrime :=
  if i.val = 0 then fullSubstitution constants round i x else x + toField (constants round i.val)

theorem toFields_fullRound (state : State t) :
    toFields (fullRound constants round state) =
      Rounds.round (mixing (ZMod fieldPrime) t) (fullSubstitution constants round) (toFields state) := by
  unfold fullRound
  rw [toFields_applyMds]
  unfold Rounds.round
  congr 1
  funext i
  show toField (power (addConstants constants round state i)) = (toField (state i) + toField _) ^ 5
  rw [toField_power, ← toField_add]
  rfl

theorem toFields_partialRound (state : State t) :
    toFields (partialRound constants round state) =
      Rounds.round (mixing (ZMod fieldPrime) t) (partialSubstitution constants round) (toFields state) := by
  unfold partialRound
  rw [toFields_applyMds]
  unfold Rounds.round
  congr 1
  funext i
  show toField (if i.val = 0 then power (addConstants constants round state i)
    else addConstants constants round state i) = partialSubstitution constants round i (toField (state i))
  unfold partialSubstitution fullSubstitution
  split
  · rw [toField_power, ← toField_add]
    rfl
  · rw [← toField_add]
    rfl

/-- 5 does not divide `fieldPrime - 1`. -/
theorem fifth_bijective : Bijective fun x : ZMod fieldPrime => x ^ 5 := by
  refine Rounds.pow_bijective (by decide) ?_
  rw [Nat.card_eq_fintype_card, ZMod.card_units]
  decide +kernel

theorem fullSubstitution_bijective (i : Fin t) : Bijective (fullSubstitution constants round i) :=
  fifth_bijective.comp (Equiv.addRight (toField (constants round i.val))).bijective

theorem partialSubstitution_bijective (i : Fin t) : Bijective (partialSubstitution constants round i) := by
  by_cases hzero : i.val = 0
  · have hfull : partialSubstitution constants round i = fullSubstitution constants round i :=
      funext fun _ => if_pos hzero
    rw [hfull]
    exact fullSubstitution_bijective i
  · have hadd : partialSubstitution constants round i = (· + toField (constants round i.val)) :=
      funext fun _ => if_neg hzero
    rw [hadd]
    exact (Equiv.addRight (toField (constants round i.val))).bijective

theorem injective_iff_over {f : State t → State t} {g : (Fin t → ZMod fieldPrime) → Fin t → ZMod fieldPrime}
    (h : ∀ state, toFields (f state) = g (toFields state)) : Injective f ↔ Injective g := by
  have hcomp : toFields ∘ f = g ∘ toFields := funext h
  rw [← toFields.injective.of_comp_iff f, hcomp, Injective.of_comp_iff' g toFields.bijective]

theorem fullRound_injective_iff : Injective (fullRound constants round : State t → State t) ↔ t ≤ 2 := by
  rw [injective_iff_over toFields_fullRound, Rounds.round_injective_iff fullSubstitution_bijective,
    mixing_injective_iff]

theorem partialRound_injective_iff : Injective (partialRound constants round : State t → State t) ↔ t ≤ 2 := by
  rw [injective_iff_over toFields_partialRound, Rounds.round_injective_iff partialSubstitution_bijective,
    mixing_injective_iff]

theorem permutation_injective_iff : Injective (permutation constants : State t → State t) ↔ t ≤ 2 := by
  refine Rounds.runAll_injective_iff (by simp [rounds, fullRounds]) fun f hf => ?_
  simp only [rounds, List.mem_append, List.mem_map] at hf
  rcases hf with (⟨round, -, rfl⟩ | ⟨round, -, rfl⟩) | ⟨round, -, rfl⟩
  · exact fullRound_injective_iff
  · exact partialRound_injective_iff
  · exact fullRound_injective_iff

end

/-- What the first round loses. -/
theorem permutation_eq_of_fullRound {t : Nat} {constants : Nat → Nat → Fp} {x y : State t}
    (h : fullRound constants 0 x = fullRound constants 0 y) : permutation constants x = permutation constants y := by
  have hrounds : rounds constants t = fullRound constants 0 :: (rounds constants t).tail := rfl
  unfold permutation
  rw [hrounds, Rounds.runAll_cons, Rounds.runAll_cons, h]

/-! ## What the rounds keep apart -/

/-- Over so many inputs, each round and their whole sequence keep different states apart. -/
def Permutes (constants : Nat → Nat → Fp) (n : Nat) : Prop :=
  (∀ round, Injective (fullRound constants round : State (n + 1) → State (n + 1))) ∧
    (∀ round, Injective (partialRound constants round : State (n + 1) → State (n + 1))) ∧
      Injective (permutation constants : State (n + 1) → State (n + 1))

theorem permutes_iff (constants : Nat → Nat → Fp) (n : Nat) (hn : 1 ≤ n) : Permutes constants n ↔ n = 1 := by
  have hsize : n + 1 ≤ 2 ↔ n = 1 := by omega
  unfold Permutes
  simp only [fullRound_injective_iff, partialRound_injective_iff, permutation_injective_iff, hsize, forall_const,
    and_self]

theorem permutes_one : Permutes (fun round i => reduce (round + i)) 1 :=
  (permutes_iff _ 1 le_rfl).mpr rfl

/-- Two states of two inputs that a full round takes to one: their fifth powers differ by `1, -2, 1`. -/
theorem fullRound_collides :
    let x : State 3 := ![reduce 1,
      reduce 13403983225217187742982816928940614625402529640091189344938040398344511502811, reduce 1]
    let y : State 3 := ![reduce 0, reduce 0, reduce 0]
    x ≠ y ∧ fullRound (fun _ _ => reduce 0) 0 x = fullRound (fun _ _ => reduce 0) 0 y ∧
      permutation (fun _ _ => reduce 0) x = permutation (fun _ _ => reduce 0) y ∧
        ¬ Permutes (fun _ _ => reduce 0) 2 := by
  intro x y
  have hne : x ≠ y := by decide +kernel
  have hcollide : fullRound (fun _ _ => reduce 0) 0 x = fullRound (fun _ _ => reduce 0) 0 y := by decide +kernel
  exact ⟨hne, hcollide, permutation_eq_of_fullRound hcollide, fun h => hne (h.1 0 hcollide)⟩

end SimpleL1.Kernel.Poseidon
