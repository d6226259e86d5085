import Mathlib.Data.List.Dedup
import Mathlib.Data.List.Perm.Subperm
import Mathlib.Data.Nat.Find

/-!
# Counts that take repeats for more

A list is counted entry by entry against a bound, by any predicate on its entries. The
count speaks of different entries for every predicate just when nothing repeats, the
bound is one, or the list is too short to reach it.
-/

namespace SimpleL1.Lib.Repeats

variable {α : Type*} [DecidableEq α] {l : List α} {q : Nat}

/-- The different entries of `l` that `p` accepts. -/
def distinct (p : α → Bool) (l : List α) : List α := (l.filter p).dedup

/-- Where `p` accepts `q` entries it accepts `q` different ones. -/
def Honest (p : α → Bool) (q : Nat) (l : List α) : Prop :=
  q ≤ l.countP p → q ≤ (distinct p l).length

theorem mem_distinct {p : α → Bool} {a : α} : a ∈ distinct p l ↔ a ∈ l ∧ p a = true := by
  unfold distinct
  rw [List.mem_dedup, List.mem_filter]

theorem length_distinct_le (p : α → Bool) (l : List α) : (distinct p l).length ≤ l.countP p := by
  rw [List.countP_eq_length_filter]
  exact (List.dedup_sublist _).length_le

theorem distinct_of_nodup (h : l.Nodup) (p : α → Bool) : (distinct p l).length = l.countP p := by
  unfold distinct
  rw [List.countP_eq_length_filter, List.Nodup.dedup (h.filter p)]

/-- A repeated entry makes the count too large by one at least. -/
theorem length_distinct_lt {p : α → Bool} {a : α} (ha : 2 ≤ l.count a) (hp : p a = true) :
    (distinct p l).length < l.countP p := by
  refine lt_of_le_of_ne (length_distinct_le p l) fun heq => ?_
  rw [List.countP_eq_length_filter] at heq
  have hself : (l.filter p).dedup = l.filter p := (List.dedup_sublist _).eq_of_length heq
  have honce := List.nodup_iff_count_le_one.mp (List.dedup_eq_self.mp hself) a
  rw [List.count_filter hp] at honce
  omega

/-- Acceptance by membership in `t`. -/
def among (t : List α) (a : α) : Bool := decide (a ∈ t)

theorem length_distinct_among_cons (b : α) (t : List α) :
    (distinct (among (b :: t)) l).length ≤ (distinct (among t) l).length + 1 := by
  have hsub : distinct (among (b :: t)) l ⊆ b :: distinct (among t) l := by
    intro a ha
    obtain ⟨hl, hp⟩ := mem_distinct.mp ha
    rcases List.mem_cons.mp (of_decide_eq_true hp) with rfl | ht
    · exact List.mem_cons_self
    · exact List.mem_cons_of_mem b (mem_distinct.mpr ⟨hl, decide_eq_true ht⟩)
  exact ((List.nodup_dedup _).subperm hsub).length_le

theorem length_distinct_singleton (a : α) : (distinct (among [a]) l).length ≤ 1 := by
  have hle := @length_distinct_among_cons _ _ l a []
  have hnone : distinct (among ([] : List α)) l = [] := by
    rw [List.eq_nil_iff_forall_not_mem]
    intro b hb
    exact absurd (of_decide_eq_true (mem_distinct.mp hb).2) List.not_mem_nil
  rw [hnone] at hle
  exact hle

/-- Entry by entry the accepted set grows from a repeated entry to the whole list; where
the count first reaches the bound the different entries do not. -/
theorem exists_not_honest {a : α} (ha : 2 ≤ l.count a) (hq : 2 ≤ q) (hlen : q ≤ l.length) :
    ∃ p : α → Bool, ¬ Honest p q l := by
  have hall : ∃ k, q ≤ l.countP (among (l.take k ++ [a])) := by
    refine ⟨l.length, ?_⟩
    rw [List.take_length, List.countP_eq_length.mpr]
    · exact hlen
    · intro b hb
      exact decide_eq_true (List.mem_append_left _ hb)
  have hhas (t : List α) : among (t ++ [a]) a = true := decide_eq_true (by simp)
  refine ⟨among (l.take (Nat.find hall) ++ [a]), fun hhonest => ?_⟩
  have hreach := hhonest (Nat.find_spec hall)
  cases hk : Nat.find hall with
  | zero =>
    rw [hk, List.take_zero, List.nil_append] at hreach
    have hone := @length_distinct_singleton _ _ l a
    omega
  | succ k =>
    have hbelow : l.countP (among (l.take k ++ [a])) < q := by
      have hmin := Nat.find_min hall (m := k) (by omega)
      omega
    have hless := length_distinct_lt ha (hhas (l.take k))
    have hgrow : (distinct (among (l.take (k + 1) ++ [a])) l).length ≤
        (distinct (among (l.take k ++ [a])) l).length + 1 := by
      by_cases hin : k < l.length
      · have hsame : among (l.take (k + 1) ++ [a]) = among (l[k] :: (l.take k ++ [a])) := by
          funext b
          unfold among
          rw [List.take_succ_eq_append_getElem hin]
          simp only [List.append_assoc, List.mem_append, List.mem_cons, List.not_mem_nil, or_false]
          exact decide_eq_decide.mpr (by tauto)
        rw [hsame]
        exact length_distinct_among_cons _ _
      · rw [List.take_of_length_le (by omega), List.take_of_length_le (by omega)]
        omega
    rw [hk] at hreach
    omega

/-- The count is honest under every predicate. -/
theorem honest_iff (hq : 1 ≤ q) :
    (∀ p : α → Bool, Honest p q l) ↔ q = 1 ∨ l.Nodup ∨ l.length < q := by
  constructor
  · intro hall
    by_contra hno
    rw [not_or, not_or] at hno
    obtain ⟨hone, hnodup, hlen⟩ := hno
    obtain ⟨a, ha⟩ : ∃ a, 2 ≤ l.count a := by
      by_contra hnone
      refine hnodup (List.nodup_iff_count_le_one.mpr fun a => ?_)
      have hlt := not_exists.mp hnone a
      omega
    obtain ⟨p, hp⟩ := exists_not_honest ha (by omega : 2 ≤ q) (Nat.le_of_not_lt hlen)
    exact hp (hall p)
  · rintro (rfl | hnodup | hlen) p hreach
    · obtain ⟨a, ha, hp⟩ := List.countP_pos_iff.mp hreach
      exact List.length_pos_of_mem (mem_distinct.mpr ⟨ha, hp⟩)
    · rwa [distinct_of_nodup hnodup]
    · have hle := List.countP_le_length (p := p) (l := l)
      omega

end SimpleL1.Lib.Repeats
