import Mathlib.Data.List.Perm.Basic

/-!
# Reordering a fold

Two orders of the same distinct steps lead to related states when every two steps
that the orders take differently can be exchanged. The relation need not be
equality: states may be compared in what matters about them.
-/

namespace SimpleL1.Lib

variable {α σ : Type} {step : σ → α → σ} {R : σ → σ → Prop}

/-- The steps of a list keep related states related. -/
theorem foldl_related {xs : List α} (hkeep : ∀ a ∈ xs, ∀ s t, R s t → R (step s a) (step t a))
    {s t : σ} (h : R s t) : R (xs.foldl step s) (xs.foldl step t) := by
  induction xs generalizing s t with
  | nil => exact h
  | cons a xs ih =>
    exact ih (fun b hb => hkeep b (.tail a hb)) (hkeep a (.head xs) s t h)

/-- A step that can be exchanged with each of `xs` can be taken before them or after. -/
theorem foldl_exchange (hR : Equivalence R) {a : α} {xs : List α}
    (hkeep : ∀ b ∈ xs, ∀ s t, R s t → R (step s b) (step t b))
    (hcomm : ∀ b ∈ xs, ∀ s, R (step (step s a) b) (step (step s b) a)) (s : σ) :
    R (xs.foldl step (step s a)) (step (xs.foldl step s) a) := by
  induction xs generalizing s with
  | nil => exact hR.refl _
  | cons b xs ih =>
    have hrest : R (xs.foldl step (step (step s a) b)) (xs.foldl step (step (step s b) a)) :=
      foldl_related (fun c hc => hkeep c (.tail b hc)) (hcomm b (.head xs) s)
    exact hR.trans hrest
      (ih (fun c hc => hkeep c (.tail b hc)) (fun c hc => hcomm c (.tail b hc)) (step s b))

/-- Two orders of the same distinct steps, where every two steps taken in opposite orders can be
exchanged. -/
theorem foldl_reorder (hR : Equivalence R) {xs ys : List α} (hperm : xs.Perm ys) (hnodup : xs.Nodup)
    (hkeep : ∀ a ∈ xs, ∀ s t, R s t → R (step s a) (step t a))
    (hcomm : ∀ a b, [a, b].Sublist xs → [b, a].Sublist ys →
      ∀ s, R (step (step s a) b) (step (step s b) a)) (s : σ) :
    R (xs.foldl step s) (ys.foldl step s) := by
  induction xs generalizing ys s with
  | nil => rw [List.nil_perm.mp hperm]; exact hR.refl _
  | cons a xs ih =>
    obtain ⟨pre, post, rfl⟩ := List.append_of_mem (hperm.mem_iff.mp (.head xs))
    have hrest : xs.Perm (pre ++ post) := (hperm.trans List.perm_middle).cons_inv
    have hnodup' := List.nodup_cons.mp hnodup
    have hmem : ∀ b ∈ pre, b ∈ xs := fun b hb => hrest.mem_iff.mpr (List.mem_append_left post hb)
    -- `a` comes before every step of `pre` on the left, and after it on the right
    have hpre : R (pre.foldl step (step s a)) (step (pre.foldl step s) a) := by
      refine foldl_exchange hR (fun b hb => hkeep b (.tail a (hmem b hb))) (fun b hb => ?_) s
      refine hcomm a b ((List.singleton_sublist.mpr (hmem b hb)).cons_cons a) ?_
      exact (List.singleton_sublist.mpr hb).append (List.singleton_sublist.mpr (.head post))
    have htail : R (xs.foldl step (step s a)) ((pre ++ post).foldl step (step s a)) := by
      refine ih hrest hnodup'.2 (fun b hb => hkeep b (.tail a hb)) (fun b c hbc hcb => ?_) _
      refine hcomm b c (hbc.cons a) (hcb.trans ?_)
      exact (List.Sublist.refl pre).append (List.sublist_cons_self a post)
    rw [List.foldl_append] at htail ⊢
    refine hR.trans htail (foldl_related (fun b hb => hkeep b ?_) hpre)
    exact .tail a (hrest.mem_iff.mpr (List.mem_append_right pre hb))

end SimpleL1.Lib
