import Mathlib.Data.Fintype.Card

/-!
# Sets that have to meet

Two sets of at least `r` of `n` members share at least `2 * r - n` of them, and
no more can be promised: two sets of exactly `r` that cover what they can share
just as many.
-/

namespace SimpleL1.Lib.Quorum

variable {α : Type*} [Fintype α] [DecidableEq α] {r f : Nat}

/-- Any two sets of at least `r` members share more than `f`. -/
def Overlap (α : Type*) [Fintype α] [DecidableEq α] (r f : Nat) : Prop :=
  ∀ A B : Finset α, r ≤ A.card → r ≤ B.card → f < (A ∩ B).card

theorem card_add_card_le (A B : Finset α) :
    A.card + B.card ≤ Fintype.card α + (A ∩ B).card := by
  have hunion := Finset.card_union_add_card_inter A B
  have huniv := Finset.card_le_univ (A ∪ B)
  omega

/-- Two sets of `r` that share as little as they can. -/
theorem exists_card_inter_eq (hr : r ≤ Fintype.card α) :
    ∃ A B : Finset α, A.card = r ∧ B.card = r ∧ (A ∩ B).card = 2 * r - Fintype.card α := by
  obtain ⟨A, -, hA⟩ := Finset.exists_subset_card_eq (s := Finset.univ) (n := r) (by simpa using hr)
  have hcompl : (Aᶜ).card = Fintype.card α - r := by rw [Finset.card_compl, hA]
  by_cases hfit : r ≤ Fintype.card α - r
  · obtain ⟨B, hB, hcard⟩ := Finset.exists_subset_card_eq (hcompl ▸ hfit)
    have hdisjoint : A ∩ B = ∅ :=
      Finset.disjoint_iff_inter_eq_empty.mp ((Finset.subset_compl_iff_disjoint_right.mp hB).symm)
    refine ⟨A, B, hA, hcard, ?_⟩
    rw [hdisjoint, Finset.card_empty]
    omega
  · obtain ⟨B, hB, -, hcard⟩ := Finset.exists_subsuperset_card_eq (Finset.subset_univ Aᶜ)
      (n := r) (by omega) (by simpa using hr)
    have hunion : A ∪ B = Finset.univ := by
      refine Finset.eq_univ_of_forall fun x => Finset.mem_union.mpr ?_
      by_cases hx : x ∈ A
      · exact .inl hx
      · exact .inr (hB (Finset.mem_compl.mpr hx))
    have hcount := Finset.card_union_add_card_inter A B
    rw [hunion, Finset.card_univ, hA, hcard] at hcount
    exact ⟨A, B, hA, hcard, by omega⟩

theorem overlap_iff (hr : r ≤ Fintype.card α) : Overlap α r f ↔ Fintype.card α + f < 2 * r := by
  constructor
  · intro hoverlap
    obtain ⟨A, B, hA, hB, hinter⟩ := exists_card_inter_eq hr
    have hmore := hoverlap A B hA.ge hB.ge
    omega
  · intro hlt A B hA hB
    have hle := card_add_card_le A B
    omega

end SimpleL1.Lib.Quorum
