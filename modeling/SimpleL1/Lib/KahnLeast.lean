import SimpleL1.Lib.Kahn
import Mathlib.Data.Fintype.Card
import Mathlib.Data.Set.Finite.List

/-!
# The least order

With a queue that is sorted, Kahn's algorithm takes at every step the least key that can
be taken: what it takes is the least of all orders that respect the edges. It takes every
key just when no key can be reached from itself.
-/

namespace SimpleL1.Lib.Kahn

variable {κ : Type} [DecidableEq κ] {sort : List κ → List κ} {keys : List κ} {edges : List (κ × κ)}
  {s : State κ} {ordered : List κ} {k : κ}

/-! ## The queue is complete -/

theorem mem_foldl_of_ready (hsort : ∀ l, (sort l).Perm l) {ts : List κ} (h : k ∈ s.ready) :
    k ∈ (ts.foldl (release sort) s).ready := by
  obtain ⟨queued, hperm, -, -⟩ := ready_release hsort s ts
  exact hperm.mem_iff.mpr (List.mem_append_left queued h)

/-- A key whose last edge is released is queued. -/
theorem mem_foldl_of_count (hsort : ∀ l, (sort l).Perm l) {ts : List κ} (hpos : 0 < s.incoming k)
    (hle : s.incoming k ≤ ts.count k) : k ∈ (ts.foldl (release sort) s).ready := by
  induction ts generalizing s with
  | nil =>
    rw [List.count_nil] at hle
    omega
  | cons t ts ih =>
    rw [List.foldl_cons]
    by_cases h : t = k
    · subst h
      rw [List.count_cons_self] at hle
      by_cases hlast : s.incoming t - 1 = 0
      · refine mem_foldl_of_ready hsort ?_
        simp only [release, hlast, if_true, (hsort _).mem_iff]
        exact List.mem_append_right _ List.mem_cons_self
      · refine ih ?_ ?_ <;> simp only [release, Function.update_self] <;> omega
    · rw [List.count_cons_of_ne h] at hle
      refine ih ?_ ?_ <;> simpa only [release, Function.update_of_ne (Ne.symm h)]

/-- Every key that is not taken and has no edge from such a key is queued. -/
def Full (keys : List κ) (edges : List (κ × κ)) (s : State κ) (ordered : List κ) : Prop :=
  ∀ k ∈ keys, k ∉ ordered → pending edges ordered k = 0 → k ∈ s.ready

theorem full_start (hsort : ∀ l, (sort l).Perm l) : Full keys edges (start sort keys edges) [] := by
  intro k hk _ hpending
  have hindegree : indegree edges k = 0 := by
    rw [← hpending]
    simp [pending, indegree]
  exact (hsort _).mem_iff.mpr (List.mem_filter.mpr ⟨hk, decide_eq_true hindegree⟩)

theorem Full.step (hsort : ∀ l, (sort l).Perm l) (hinv : Inv keys edges s ordered) {ready : List κ}
    (h : Full keys edges s ordered) (hready : s.ready = k :: ready) :
    Full keys edges (take sort edges s k ready) (ordered ++ [k]) := by
  have hk : k ∉ ordered := fun hin =>
    (List.nodup_append.mp hinv.nodup).2.2 k hin k (hready ▸ List.mem_cons_self) rfl
  intro t ht hnot hpending
  obtain ⟨hordered, htk⟩ : t ∉ ordered ∧ t ≠ k := by simpa using hnot
  have hsplit := pending_snoc edges hk t
  unfold take
  by_cases hzero : pending edges ordered t = 0
  · have hin := h t ht hordered hzero
    rw [hready] at hin
    exact mem_foldl_of_ready hsort (List.mem_of_ne_of_mem htk hin)
  · have hcount := hinv.count t
    refine mem_foldl_of_count hsort ?_ ?_
    · show 0 < s.incoming t
      omega
    · show s.incoming t ≤ _
      rw [(hsort _).count_eq]
      omega

theorem Full.loop (hsort : ∀ l, (sort l).Perm l) (hedges : ∀ e ∈ edges, e.2 ∈ keys) (fuel : Nat)
    (hinv : Inv keys edges s ordered) (h : Full keys edges s ordered) :
    Full keys edges (loop sort edges fuel s ordered).2 (loop sort edges fuel s ordered).1 := by
  induction fuel generalizing s ordered with
  | zero => exact h
  | succ fuel ih =>
    unfold Kahn.loop
    cases hready : s.ready with
    | nil => exact h
    | cons k ready => exact ih (hinv.step hsort hedges hready) (h.step hsort hinv hready)

/-! ## All keys are taken when there is no cycle -/

/-- One key comes before another by a path of edges. -/
def Path (edges : List (κ × κ)) : κ → κ → Prop := Relation.TransGen fun a b => (a, b) ∈ edges

omit [DecidableEq κ] in
/-- Where every key has a predecessor, a key is reached from itself. -/
theorem exists_cycle {left : List κ} (hne : left ≠ []) (h : ∀ k ∈ left, ∃ a ∈ left, (a, k) ∈ edges) :
    ∃ k ∈ left, Path edges k k := by
  by_contra hnone
  let r (a b : { k // k ∈ left }) : Prop := Path edges a.1 b.1
  have htrans : IsTrans { k // k ∈ left } r := ⟨fun _ _ _ hab hbc => hab.trans hbc⟩
  have hirrefl : Std.Irrefl r := ⟨fun a haa => hnone ⟨a.1, a.2, haa⟩⟩
  have hfinite : Finite { k // k ∈ left } := (List.finite_toSet left).to_subtype
  have hwf : WellFounded r := Finite.wellFounded_of_trans_of_irrefl r
  obtain ⟨k, hk⟩ := List.exists_mem_of_ne_nil left hne
  obtain ⟨m, -, hmin⟩ := hwf.has_min Set.univ ⟨⟨k, hk⟩, trivial⟩
  obtain ⟨a, ha, hedge⟩ := h m.1 m.2
  exact hmin ⟨a, ha⟩ trivial (.single hedge)

/-- A key comes before all that it has a path to. -/
theorem idxOf_lt_of_path (hrespects : Respects edges ordered) (hmem : ∀ e ∈ edges, e.2 ∈ ordered) {a b : κ}
    (h : Path edges a b) : ordered.idxOf a < ordered.idxOf b := by
  have hedge : ∀ {a b : κ}, (a, b) ∈ edges → ordered.idxOf a < ordered.idxOf b := by
    intro a b hab
    obtain ⟨before, rest, hsplit, hfirst⟩ := List.eq_append_cons_of_mem (hmem _ hab)
    have ha := hrespects before b rest hsplit a hab
    rw [hsplit, List.idxOf_append_of_mem ha, List.idxOf_append_of_notMem hfirst, List.idxOf_cons_self]
    exact Nat.lt_of_lt_of_le (List.idxOf_lt_length_of_mem ha) (Nat.le_add_right _ _)
  induction h with
  | single hab => exact hedge hab
  | tail _ hbc ih => exact ih.trans (hedge hbc)

/-- All keys are taken just when no key has a path to itself. -/
theorem order_covers_iff (hsort : ∀ l, (sort l).Perm l) (hkeys : keys.Nodup)
    (hedges : ∀ e ∈ edges, e.1 ∈ keys ∧ e.2 ∈ keys) :
    (∀ k ∈ keys, k ∈ order sort keys edges) ↔ ∀ k ∈ keys, ¬ Path edges k k := by
  have htargets : ∀ e ∈ edges, e.2 ∈ keys := fun e he => (hedges e he).2
  have hstart : Inv keys edges (start sort keys edges) [] := inv_start hsort hkeys
  constructor
  · intro hall k _ hcycle
    have hrespects := (order_valid hsort hkeys htargets).2
    exact (idxOf_lt_of_path hrespects (fun e he => hall _ (htargets e he)) hcycle).false
  · intro hacyclic
    by_contra hmissing
    push Not at hmissing
    obtain ⟨k, hk, hnot⟩ := hmissing
    let left := keys.filter fun k => k ∉ order sort keys edges
    have hmem : ∀ {t}, t ∈ left ↔ t ∈ keys ∧ t ∉ order sort keys edges := by simp [left]
    have hfull := (full_start hsort).loop hsort htargets keys.length hstart
    have hpred : ∀ t ∈ left, ∃ a ∈ left, (a, t) ∈ edges := by
      intro t ht
      obtain ⟨htkeys, htnot⟩ := hmem.mp ht
      by_contra hnone
      push Not at hnone
      have hready := hfull t htkeys htnot (pending_eq_zero.mpr fun a ha => by
        by_contra hanot
        exact hnone a (hmem.mpr ⟨(hedges _ ha).1, hanot⟩) ha)
      have hempty : (loop sort edges keys.length (start sort keys edges) []).2.ready = [] :=
        run_ready hsort htargets
      rw [hempty] at hready
      exact nomatch hready
    obtain ⟨t, ht, hcycle⟩ := exists_cycle (List.ne_nil_of_mem (hmem.mpr ⟨hk, hnot⟩)) hpred
    exact hacyclic t (hmem.mp ht).1 hcycle

/-! ## The order is the least -/

/-- The first is the second, or comes before it in the dictionary. -/
def AtMost (lt : κ → κ → Prop) (xs ys : List κ) : Prop := xs = ys ∨ List.Lex lt xs ys

section AtMost

variable {α β γ : Type} {ltβ : β → β → Prop} {ltγ : γ → γ → Prop} {f : α → β} {g : α → γ} {as bs : List α}

theorem AtMost.map (hinj : ∀ a ∈ as, ∀ b ∈ bs, f a = f b → a = b)
    (hlt : ∀ a ∈ as, ∀ b ∈ bs, ltβ (f a) (f b) → ltγ (g a) (g b)) (h : AtMost ltβ (as.map f) (bs.map f)) :
    AtMost ltγ (as.map g) (bs.map g) := by
  induction as generalizing bs with
  | nil =>
    cases bs with
    | nil => exact .inl rfl
    | cons b bs => exact .inr .nil
  | cons a as ih =>
    cases bs with
    | nil =>
      rcases h with h | h
      · cases h
      · cases h
    | cons b bs =>
      have hrest : AtMost ltβ (as.map f) (bs.map f) → AtMost ltγ (as.map g) (bs.map g) := ih
        (fun a ha b hb => hinj a (List.mem_cons_of_mem _ ha) b (List.mem_cons_of_mem _ hb))
        fun a ha b hb => hlt a (List.mem_cons_of_mem _ ha) b (List.mem_cons_of_mem _ hb)
      have hsame : f a = f b → AtMost ltβ (as.map f) (bs.map f) → AtMost ltγ ((a :: as).map g) ((b :: bs).map g) := by
        intro heq htail
        rw [hinj a List.mem_cons_self b List.mem_cons_self heq]
        rcases hrest htail with h | h
        · exact .inl (congrArg (g b :: ·) h)
        · exact .inr (.cons h)
      rcases h with h | h
      · exact hsame (List.cons.inj h).1 (.inl (List.cons.inj h).2)
      · rcases List.cons_lex_cons_iff.mp h with h | ⟨heq, h⟩
        · exact .inr (.rel (hlt a List.mem_cons_self b List.mem_cons_self h))
        · exact hsame heq (.inr h)

theorem AtMost.antisymm {lt : α → α → Prop} (hasymm : ∀ a b, lt a b → ¬ lt b a) (h : AtMost lt as bs)
    (h' : AtMost lt bs as) : as = bs := by
  rcases h with h | h
  · exact h
  · rcases h' with h' | h'
    · exact h'.symm
    · exfalso
      induction h with
      | nil => cases h'
      | cons h ih =>
        cases h' with
        | cons h' => exact ih h'
        | rel h' => exact hasymm _ _ h' h'
      | rel h =>
        cases h' with
        | cons h' => exact hasymm _ _ h h
        | rel h' => exact hasymm _ _ h h'

end AtMost

variable {le : κ → κ → Prop}

theorem sorted_foldl (hsorted : ∀ l, (sort l).Pairwise le) (h : s.ready.Pairwise le) (ts : List κ) :
    (ts.foldl (release sort) s).ready.Pairwise le := by
  induction ts generalizing s with
  | nil => exact h
  | cons t ts ih =>
    refine ih ?_
    unfold release
    split
    · exact hsorted _
    · exact h

/-- What the rest of the loop takes. -/
theorem loop_extends (fuel : Nat) : ∃ out, (loop sort edges fuel s ordered).1 = ordered ++ out := by
  induction fuel generalizing s ordered with
  | zero => exact ⟨[], by simp [loop]⟩
  | succ fuel ih =>
    unfold loop
    cases s.ready with
    | nil => exact ⟨[], by simp⟩
    | cons k ready =>
      obtain ⟨out, hout⟩ := @ih (take sort edges s k ready) (ordered ++ [k])
      exact ⟨k :: out, by rw [hout, List.append_assoc, List.singleton_append]⟩

/-- What may follow is queued. -/
theorem mem_ready_of_next (hfull : Full keys edges s ordered) {rest : List κ} (hnodup : keys.Nodup)
    (hperm : (ordered ++ k :: rest).Perm keys) (hrespects : Respects edges (ordered ++ k :: rest)) :
    k ∈ s.ready := by
  refine hfull k (hperm.mem_iff.mp (by simp)) (fun hk => ?_) (pending_eq_zero.mpr (hrespects ordered k rest rfl))
  exact (List.nodup_append.mp (hperm.nodup_iff.mpr hnodup)).2.2 k hk k List.mem_cons_self rfl

/-- From any point on, the loop takes the least of what may follow. -/
theorem loop_least (hsort : ∀ l, (sort l).Perm l) (hsorted : ∀ l, (sort l).Pairwise le)
    (hedges : ∀ e ∈ edges, e.2 ∈ keys) {fuel : Nat} (hinv : Inv keys edges s ordered)
    (hfull : Full keys edges s ordered) (hready : s.ready.Pairwise le)
    (hend : (loop sort edges fuel s ordered).2.ready = []) {rest out : List κ}
    (hperm : (ordered ++ rest).Perm keys) (hnodup : keys.Nodup) (hrespects : Respects edges (ordered ++ rest))
    (hout : (loop sort edges fuel s ordered).1 = ordered ++ out) :
    AtMost (fun a b => le a b ∧ a ≠ b) out rest := by
  induction fuel generalizing s ordered rest out with
  | zero =>
    have hnil : s.ready = [] := hend
    have : out = [] := by simpa [loop] using hout
    subst this
    cases rest with
    | nil => exact .inl rfl
    | cons x rest' =>
      have hx := mem_ready_of_next hfull hnodup hperm hrespects
      rw [hnil] at hx
      exact nomatch hx
  | succ fuel ih =>
    unfold loop at hend hout
    cases hr : s.ready with
    | nil =>
      rw [hr] at hout
      have : out = [] := by simpa using hout
      subst this
      cases rest with
      | nil => exact .inl rfl
      | cons x rest' =>
        have hx := mem_ready_of_next hfull hnodup hperm hrespects
        rw [hr] at hx
        exact nomatch hx
    | cons k ready =>
      simp only [hr] at hend hout
      obtain ⟨out', hout'⟩ := @loop_extends κ _ sort edges (take sort edges s k ready) (ordered ++ [k]) fuel
      have heq : out = k :: out' := by
        rw [hout', List.append_assoc, List.singleton_append] at hout
        exact (List.append_cancel_left hout).symm
      subst heq
      cases rest with
      | nil =>
        have hk : k ∈ ordered := by
          have := hperm.mem_iff.mpr (hinv.mem k (by simp [hr]))
          simpa using this
        have := (List.nodup_append.mp hinv.nodup).2.2 k hk k (by simp [hr])
        exact absurd rfl this
      | cons x rest' =>
        have hx := mem_ready_of_next hfull hnodup hperm hrespects
        rw [hr] at hx hready
        by_cases hkx : k = x
        · subst hkx
          have hsplit : ordered ++ k :: rest' = (ordered ++ [k]) ++ rest' := by simp
          have hstep : AtMost (fun a b => le a b ∧ a ≠ b) out' rest' := by
            rw [hsplit] at hperm hrespects
            exact ih (hinv.step hsort hedges hr) (hfull.step hsort hinv hr)
              (sorted_foldl hsorted (List.pairwise_cons.mp hready).2 _) hend hperm hrespects hout'
          rcases hstep with rfl | hlex
          · exact .inl rfl
          · exact .inr (.cons hlex)
        · refine .inr (.rel ⟨?_, hkx⟩)
          rcases List.mem_cons.mp hx with rfl | hx
          · exact absurd rfl hkx
          · exact (List.pairwise_cons.mp hready).1 x hx

/-- What is taken comes first among all orders of the keys that respect the edges. -/
theorem order_least (hsort : ∀ l, (sort l).Perm l) (hsorted : ∀ l, (sort l).Pairwise le) (hkeys : keys.Nodup)
    (hedges : ∀ e ∈ edges, e.2 ∈ keys) {xs : List κ} (hperm : xs.Perm keys) (hrespects : Respects edges xs) :
    AtMost (fun a b => le a b ∧ a ≠ b) (order sort keys edges) xs := by
  have hend : (run sort keys edges).2.ready = [] := run_ready hsort hedges
  have hout : (run sort keys edges).1 = [] ++ order sort keys edges := rfl
  exact loop_least hsort hsorted hedges (inv_start hsort hkeys) (full_start hsort) (hsorted _) hend hperm hkeys
    hrespects hout

end SimpleL1.Lib.Kahn
