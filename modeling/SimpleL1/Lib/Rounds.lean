import Mathlib.Data.Matrix.Mul
import Mathlib.GroupTheory.OrderOfElement
import Mathlib.Algebra.Field.Basic

/-!
# Rounds of substitution and mixing

A round puts every entry of a vector through a substitution of its own and mixes the entries by a
matrix. Over bijective substitutions it loses what the matrix loses, and so does a run of rounds.
-/

namespace SimpleL1.Lib.Rounds

variable {K ι α : Type*}

def round [Field K] [Fintype ι] (M : Matrix ι ι K) (σ : ι → K → K) (x : ι → K) : ι → K :=
  M.mulVec fun i => σ i (x i)

theorem round_injective_iff [Field K] [Fintype ι] {M : Matrix ι ι K} {σ : ι → K → K}
    (hσ : ∀ i, Function.Bijective (σ i)) :
    Function.Injective (round M σ) ↔ Function.Injective M.mulVec := by
  have hsubst : Function.Bijective fun (x : ι → K) i => σ i (x i) := Function.Bijective.piMap hσ
  exact Function.Injective.of_comp_iff' M.mulVec hsubst

/-- The functions one after the other. -/
def runAll (fs : List (α → α)) (x : α) : α := fs.foldl (fun x f => f x) x

theorem runAll_cons (f : α → α) (fs : List (α → α)) (x : α) : runAll (f :: fs) x = runAll fs (f x) := rfl

theorem runAll_injective {fs : List (α → α)} (h : ∀ f ∈ fs, Function.Injective f) :
    Function.Injective (runAll fs) := by
  induction fs with
  | nil => exact Function.injective_id
  | cons f fs ih =>
    obtain ⟨hf, hfs⟩ := List.forall_mem_cons.mp h
    exact (ih hfs).comp hf

/-- What the first function loses, the run has lost. -/
theorem runAll_injective_iff {fs : List (α → α)} {P : Prop} (hne : fs ≠ [])
    (h : ∀ f ∈ fs, Function.Injective f ↔ P) : Function.Injective (runAll fs) ↔ P := by
  constructor
  · intro hrun
    cases fs with
    | nil => exact absurd rfl hne
    | cons f fs =>
      have hfirst : Function.Injective (runAll fs ∘ f) := hrun
      exact (h f List.mem_cons_self).mp hfirst.of_comp
  · intro hP
    exact runAll_injective fun f hf => (h f hf).mpr hP

/-- A power that is prime to the number of units permutes a finite field. -/
theorem pow_bijective [Field K] [Finite K] {k : Nat} (hk : k ≠ 0) (hcoprime : (Nat.card Kˣ).Coprime k) :
    Function.Bijective fun x : K => x ^ k := by
  refine Finite.injective_iff_bijective.mp fun x y hxy => ?_
  replace hxy : x ^ k = y ^ k := hxy
  by_cases hx : x = 0
  · rw [hx, zero_pow hk] at hxy
    rw [hx, pow_eq_zero_iff hk |>.mp hxy.symm]
  · have hy : y ≠ 0 := by
      rintro rfl
      rw [zero_pow hk] at hxy
      exact hx ((pow_eq_zero_iff hk).mp hxy)
    have hunits : Units.mk0 x hx ^ k = Units.mk0 y hy ^ k := Units.ext hxy
    exact congrArg Units.val ((powCoprime hcoprime).injective hunits)

end SimpleL1.Lib.Rounds
