import Mathlib.Logic.Relation

/-!
# Lineages

Every node has at most one parent. A lineage, which is what is over one node, has at most
one active node, and none if the node is revoked. New nodes come on top.
-/

namespace SimpleL1.Lib.Forest

variable {κ : Type*}

/-- `i` is `j`, or comes to it from parent to parent. -/
def Over (parent : κ → Option κ) : κ → κ → Prop :=
  Relation.ReflTransGen fun i j => parent i = some j

structure Sound (parent : κ → Option κ) (active revoked : κ → Prop) : Prop where
  single : ∀ {r i j}, Over parent i r → Over parent j r → active i → active j → i = j
  dead : ∀ {r i}, Over parent i r → revoked r → ¬ active i

variable {parent parent' : κ → Option κ} {active active' revoked revoked' : κ → Prop} {i j n t : κ}

theorem eq_of_over_fresh (hfresh : ∀ i, parent i ≠ some n) (h : Over parent i n) : i = n := by
  obtain heq | ⟨k, -, hk⟩ := Relation.ReflTransGen.cases_tail h
  · exact heq.symm
  · exact absurd hk (hfresh k)

theorem Sound.mono (h : Sound parent active revoked) (hactive : ∀ i, active' i → active i)
    (hrevoked : ∀ i, revoked' i → revoked i) : Sound parent active' revoked' :=
  ⟨fun hi hj hai haj => h.single hi hj (hactive _ hai) (hactive _ haj),
    fun hi hr hai => h.dead hi (hrevoked _ hr) (hactive _ hai)⟩

/-! ## A new node -/

section
variable (hold : ∀ i, i ≠ n → parent' i = parent i) (hfresh : ∀ i, parent i ≠ some n)
include hold hfresh

theorem over_old (hi : i ≠ n) : Over parent' i j ↔ Over parent i j := by
  constructor
  · intro h
    induction h using Relation.ReflTransGen.head_induction_on with
    | refl => exact .refl
    | head hstep _ ih =>
      rw [hold _ hi] at hstep
      exact .head hstep (ih fun heq => hfresh _ (heq ▸ hstep))
  · intro h
    induction h using Relation.ReflTransGen.head_induction_on with
    | refl => exact .refl
    | head hstep _ ih => exact .head ((hold _ hi).trans hstep) (ih fun heq => hfresh _ (heq ▸ hstep))

theorem over_new (hself : parent' n ≠ some n) (h : Over parent' n j) :
    j = n ∨ ∃ t, parent' n = some t ∧ Over parent t j := by
  obtain heq | ⟨t, ht, hover⟩ := Relation.ReflTransGen.cases_head h
  · exact .inl heq.symm
  · have hne : t ≠ n := fun heq => hself (heq ▸ ht)
    exact .inr ⟨t, ht, (over_old hold hfresh hne).mp hover⟩

/-- A new node may be active if nothing else is over what it is over, and nothing there is revoked. -/
theorem Sound.insert (h : Sound parent active revoked) (hself : parent' n ≠ some n)
    (hactive : ∀ i, i ≠ n → active' i → active i) (hrevoked : ∀ i, i ≠ n → revoked' i → revoked i)
    (hnew : ¬ revoked' n)
    (htop : ∀ t, parent' n = some t → ∀ r, Over parent t r →
      ¬ revoked' r ∧ ∀ i, i ≠ n → Over parent i r → ¬ active' i) :
    Sound parent' active' revoked' := by
  -- a node other than the new one is not active over what the new one is over
  have halone : ∀ {r j}, j ≠ n → Over parent' n r → Over parent' j r → ¬ active' j := by
    intro r j hj hn hover
    rw [over_old hold hfresh hj] at hover
    obtain rfl | ⟨t, ht, htr⟩ := over_new hold hfresh hself hn
    · exact absurd (eq_of_over_fresh hfresh hover) hj
    · exact (htop t ht r htr).2 j hj hover
  refine ⟨fun {r i j} hi hj hai haj => ?_, fun {r i} hi hr hai => ?_⟩
  · by_cases hin : i = n <;> by_cases hjn : j = n
    · exact hin.trans hjn.symm
    · exact absurd haj (halone hjn (hin ▸ hi) hj)
    · exact absurd hai (halone hin (hjn ▸ hj) hi)
    · rw [over_old hold hfresh hin] at hi
      rw [over_old hold hfresh hjn] at hj
      exact h.single hi hj (hactive i hin hai) (hactive j hjn haj)
  · by_cases hin : i = n
    · subst hin
      obtain rfl | ⟨t, ht, htr⟩ := over_new hold hfresh hself hi
      · exact hnew hr
      · exact (htop t ht r htr).1 hr
    · rw [over_old hold hfresh hin] at hi
      have hrn : r ≠ n := fun heq => hin (eq_of_over_fresh hfresh (heq ▸ hi))
      exact h.dead hi (hrevoked r hrn hr) (hactive i hin hai)

end

/-! ## A revocation -/

/-- A node may be revoked if nothing over it stays active. -/
theorem Sound.revoke (h : Sound parent active revoked) (hactive : ∀ i, active' i → active i)
    (hrevoked : ∀ i, revoked' i → revoked i ∨ i = t) (htop : ∀ i, Over parent i t → ¬ active' i) :
    Sound parent active' revoked' := by
  refine ⟨fun hi hj hai haj => h.single hi hj (hactive _ hai) (hactive _ haj), fun {r i} hi hr hai => ?_⟩
  obtain hr | rfl := hrevoked r hr
  · exact h.dead hi hr (hactive i hai)
  · exact htop i hi hai

end SimpleL1.Lib.Forest
