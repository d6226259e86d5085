import SimpleL1.Lib.SortedMap
import Mathlib.Data.List.MinMax

/-!
# One element for each key

Of the elements of a list with one key, the first among those with the least rank
is kept. The result depends on the order of the list only where different elements
share the least rank of their key.
-/

namespace SimpleL1.Lib

variable {α κ β : Type} [LinearOrder κ] [LinearOrder β]

/-- The element comes in for a new key, or for a lower rank. -/
def keepStep (key : α → κ) (rank : α → β) (kept : SortedMap κ α) (a : α) : SortedMap κ α :=
  match kept.find (key a) with
  | some b => if rank a < rank b then kept.insert (key a) a else kept
  | none => kept.insert (key a) a

def keepLeast (key : α → κ) (rank : α → β) (xs : List α) : SortedMap κ α :=
  xs.foldl (keepStep key rank) .empty

section
variable {key : α → κ} {rank : α → β} {xs ys : List α} {a b : α} {k : κ}

theorem find_keepStep (kept : SortedMap κ α) (a : α) (k : κ) :
    (keepStep key rank kept a).find k =
      if key a = k then
        match kept.find k with
        | some b => if rank a < rank b then some a else some b
        | none => some a
      else kept.find k := by
  unfold keepStep
  split
  · next b hb =>
    split
    · next hlt =>
      rw [SortedMap.find_insert]
      split
      · next heq =>
        rw [← heq, hb]
        exact (if_pos hlt).symm
      · rfl
    · next hnlt =>
      split
      · next heq =>
        rw [← heq, hb]
        exact (if_neg hnlt).symm
      · rfl
  · next hnone =>
    rw [SortedMap.find_insert]
    split
    · next heq => rw [← heq, hnone]
    · rfl

theorem find_keepLeast : (keepLeast key rank xs).find k = (xs.filter (key · = k)).argmin rank := by
  induction xs using List.reverseRecOn with
  | nil => rfl
  | append_singleton xs a ih =>
    rw [keepLeast, List.foldl_append, List.foldl_cons, List.foldl_nil, find_keepStep,
      show List.foldl (keepStep key rank) .empty xs = keepLeast key rank xs from rfl, ih,
      List.filter_append]
    split
    · next heq =>
      have hin : [a].filter (key · = k) = [a] := by simp [heq]
      rw [hin, List.argmin_concat]
      cases (xs.filter (key · = k)).argmin rank <;> rfl
    · next hne =>
      have hout : [a].filter (key · = k) = [] := by simp [hne]
      rw [hout, List.append_nil]

/-- What is kept for its key is an element of the list. -/
theorem mem_values_keepLeast :
    a ∈ (keepLeast key rank xs).values ↔ (xs.filter (key · = key a)).argmin rank = some a := by
  rw [← find_keepLeast, SortedMap.find_eq_some]
  unfold SortedMap.values
  constructor
  · intro hmem
    obtain ⟨⟨k, b⟩, hb, rfl⟩ := List.mem_map.mp hmem
    have hmin := SortedMap.find_eq_some.mpr hb
    rw [find_keepLeast] at hmin
    have hkey := of_decide_eq_true (List.mem_filter.mp (List.argmin_mem hmin)).2
    rw [hkey]
    exact hb
  · exact fun hmem => List.mem_map.mpr ⟨_, hmem, rfl⟩

/-! ## The order of the list -/

/-- Two elements of the least rank are the same. -/
def UniqueLeast (rank : α → β) (xs : List α) : Prop :=
  ∀ a ∈ xs, ∀ b ∈ xs, (∀ c ∈ xs, rank a ≤ rank c) → (∀ c ∈ xs, rank b ≤ rank c) → a = b

theorem UniqueLeast.argmin_eq (h : UniqueLeast rank xs) (hperm : ys.Perm xs) :
    ys.argmin rank = xs.argmin rank := by
  cases hys : ys.argmin rank with
  | none =>
    rw [List.argmin_eq_none] at hys
    subst hys
    rw [hperm.symm.eq_nil]
    rfl
  | some a =>
    cases hxs : xs.argmin rank with
    | none =>
      rw [List.argmin_eq_none] at hxs
      subst hxs
      rw [hperm.eq_nil] at hys
      cases hys
    | some b =>
      have hmem := hperm.mem_iff.mp (List.argmin_mem hys)
      refine congrArg some (h a hmem b (List.argmin_mem hxs) (fun c hc => ?_) fun c hc => ?_)
      · exact List.le_of_mem_argmin (hperm.mem_iff.mpr hc) hys
      · exact List.le_of_mem_argmin hc hxs

/-- The first element is kept when no other has a lower rank. -/
theorem argmin_cons_of_le (h : ∀ b ∈ xs, rank a ≤ rank b) : (a :: xs).argmin rank = some a := by
  induction xs using List.reverseRecOn with
  | nil => rfl
  | append_singleton xs b ih =>
    rw [← List.cons_append, List.argmin_concat, ih fun c hc => h c (List.mem_append_left _ hc)]
    exact if_neg (not_lt.mpr (h b (List.mem_append_right _ List.mem_cons_self)))

/-- What comes before the kept element has a higher rank. -/
theorem argmin_eq_some_split (h : xs.argmin rank = some a) :
    ∃ before after', xs = before ++ a :: after' ∧ (∀ b ∈ before, rank a < rank b) ∧
      ∀ b ∈ after', rank a ≤ rank b := by
  induction xs using List.reverseRecOn with
  | nil => cases h
  | append_singleton xs b ih =>
    rw [List.argmin_concat] at h
    cases hxs : xs.argmin rank with
    | none =>
      rw [hxs] at h
      cases h
      rw [List.argmin_eq_none] at hxs
      exact ⟨[], [], by rw [hxs], nofun, nofun⟩
    | some c =>
      rw [hxs] at h
      dsimp only at h
      split at h
      · next hlt =>
        cases h
        exact ⟨xs, [], rfl, fun d hd => hlt.trans_le (List.le_of_mem_argmin hd hxs), nofun⟩
      · next hnlt =>
        cases h
        obtain ⟨before, after', heq, hbefore, hafter⟩ := ih hxs
        refine ⟨before, after' ++ [b], by rw [heq, List.append_assoc, List.cons_append], hbefore, ?_⟩
        intro d hd
        rcases List.mem_append.mp hd with hd | hd
        · exact hafter d hd
        · rw [List.mem_singleton.mp hd]
          exact not_lt.mp hnlt

end

end SimpleL1.Lib
