import Mathlib.Order.Bounds.Basic
import Mathlib.Data.List.Pairwise

/-!
# What takes precedence

Of several alternatives the greatest one prevails, and where there is none the
top does, as the answer that holds by default. What prevails depends neither on
the order of the alternatives nor on their repetition; further alternatives leave
it as it is when each of them is outranked already.
-/

namespace SimpleL1.Lib

variable {α : Type} [LinearOrder α] [OrderTop α] {S T : Set α} {a b : α}

def Prevails (S : Set α) (a : α) : Prop := IsGreatest S a ∨ (S = ∅ ∧ a = ⊤)

/-- The alternative changes nothing beside those of `S`. -/
def Outranked (S : Set α) (b : α) : Prop := (∃ a ∈ S, b ≤ a) ∨ (S = ∅ ∧ b = ⊤)

theorem Prevails.unique (h : Prevails S a) (h' : Prevails S b) : a = b := by
  rcases h with h | ⟨hempty, rfl⟩
  · rcases h' with h' | ⟨hempty, -⟩
    · exact h.unique h'
    · rw [hempty] at h
      exact absurd h.1 (Set.notMem_empty a)
  · rcases h' with h' | ⟨-, rfl⟩
    · rw [hempty] at h'
      exact absurd h'.1 (Set.notMem_empty b)
    · rfl

theorem Prevails.union (h : Prevails S a) (hT : ∀ b ∈ T, Outranked S b) : Prevails (S ∪ T) a := by
  rcases h with h | ⟨hempty, rfl⟩
  · refine .inl ⟨.inl h.1, ?_⟩
    rintro b (hb | hb)
    · exact h.2 hb
    · rcases hT b hb with ⟨c, hc, hle⟩ | ⟨hempty, -⟩
      · exact hle.trans (h.2 hc)
      · rw [hempty] at h
        exact absurd h.1 (Set.notMem_empty a)
  · rcases T.eq_empty_or_nonempty with rfl | ⟨b, hb⟩
    · exact .inr ⟨by rw [hempty, Set.union_empty], rfl⟩
    · have htop : b = ⊤ := by
        rcases hT b hb with ⟨c, hc, -⟩ | ⟨-, htop⟩
        · rw [hempty] at hc
          exact absurd hc (Set.notMem_empty c)
        · exact htop
      exact .inl ⟨.inr (htop ▸ hb), fun c _ => le_top⟩

/-- What the alternative `b` does not change, it does not outrank. -/
theorem Prevails.outranked (h : Prevails S a) (hb : Prevails (S ∪ {b}) a) : Outranked S b := by
  have hgreatest : IsGreatest (S ∪ {b}) a := by
    rcases hb with hb | ⟨hempty, -⟩
    · exact hb
    · have hmem : b ∈ S ∪ {b} := .inr rfl
      rw [hempty] at hmem
      exact absurd hmem (Set.notMem_empty b)
  rcases h with h | ⟨hempty, htop⟩
  · exact .inl ⟨a, h.1, hgreatest.2 (.inr rfl)⟩
  · rcases hgreatest.1 with hmem | hmem
    · rw [hempty] at hmem
      exact absurd hmem (Set.notMem_empty a)
    · exact .inr ⟨hempty, hmem.symm.trans htop⟩

/-- The first alternative of a descending list prevails. -/
theorem prevails_of_find? {order : List α} {p : α → Bool} (hsorted : order.Pairwise fun a b => b ≤ a)
    (hall : ∀ a, p a = true → a ∈ order) :
    Prevails {a | p a = true} ((order.find? p).getD ⊤) := by
  cases hfind : order.find? p with
  | none =>
    refine .inr ⟨Set.eq_empty_iff_forall_notMem.mpr fun a ha => ?_, rfl⟩
    exact List.find?_eq_none.mp hfind a (hall a ha) ha
  | some a =>
    obtain ⟨ha, before, rest, rfl, hbefore⟩ := List.find?_eq_some_iff_append.mp hfind
    refine .inl ⟨ha, fun b hb => ?_⟩
    rcases List.mem_append.mp (hall b hb) with hmem | hmem
    · have := hbefore b hmem
      rw [show p b = true from hb] at this
      cases this
    · rcases List.mem_cons.mp hmem with rfl | hmem
      · exact le_refl b
      · exact List.rel_of_pairwise_cons (List.pairwise_append.mp hsorted).2.1 hmem

end SimpleL1.Lib
