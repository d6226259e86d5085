import Mathlib.Data.List.Nodup
import Mathlib.Data.Finset.Card
import Mathlib.Data.List.Perm.Basic
import Mathlib.Logic.Function.Basic
import Mathlib.Tactic.Common

/-!
# Kahn's algorithm

Every key has a counter of the edges that come in from keys not yet taken. A key
whose counter reaches zero is queued; taking it from the queue releases its edges.
What is taken comes after all its predecessors, and nothing is taken twice. The
queue is kept sorted in any way.
-/

namespace SimpleL1.Lib.Kahn

variable {κ : Type} [DecidableEq κ]

structure State (κ : Type) where
  incoming : κ → Int
  ready : List κ

/-- One edge to the target is gone; a target with no edges left is queued. -/
def release (sort : List κ → List κ) (s : State κ) (target : κ) : State κ where
  incoming := Function.update s.incoming target (s.incoming target - 1)
  ready := if s.incoming target - 1 = 0 then sort (s.ready ++ [target]) else s.ready

def indegree (edges : List (κ × κ)) (k : κ) : Nat := edges.countP fun e => e.2 = k

def outgoing (edges : List (κ × κ)) (k : κ) : List κ :=
  (edges.filter fun e => e.1 = k).map Prod.snd

/-- The key is taken: its edges are released. -/
def take (sort : List κ → List κ) (edges : List (κ × κ)) (s : State κ) (k : κ)
    (ready : List κ) : State κ :=
  (sort (outgoing edges k)).foldl (release sort) { s with ready }

/-- Take the first key of the queue, as often as the fuel says. -/
def loop (sort : List κ → List κ) (edges : List (κ × κ)) :
    Nat → State κ → List κ → List κ × State κ
  | 0, s, ordered => (ordered, s)
  | fuel + 1, s, ordered =>
    match s.ready with
    | [] => (ordered, s)
    | k :: ready =>
      loop sort edges fuel (take sort edges s k ready) (ordered ++ [k])

def start (sort : List κ → List κ) (keys : List κ) (edges : List (κ × κ)) : State κ where
  incoming k := indegree edges k
  ready := sort (keys.filter fun k => indegree edges k = 0)

/-- The keys in the order in which they are taken, and what is left. -/
def run (sort : List κ → List κ) (keys : List κ) (edges : List (κ × κ)) :
    List κ × State κ :=
  loop sort edges keys.length (start sort keys edges) []

def order (sort : List κ → List κ) (keys : List κ) (edges : List (κ × κ)) : List κ :=
  (run sort keys edges).1

/-- Every key comes after the sources of its edges. -/
def Respects (edges : List (κ × κ)) (ordered : List κ) : Prop :=
  ∀ before k rest, ordered = before ++ k :: rest → ∀ a, (a, k) ∈ edges → a ∈ before

variable {sort : List κ → List κ} {keys : List κ} {edges : List (κ × κ)} {s : State κ}
  {ordered : List κ} {k : κ}

/-! ## Releasing edges -/

theorem incoming_release (s : State κ) (ts : List κ) (k : κ) :
    (ts.foldl (release sort) s).incoming k = s.incoming k - ts.count k := by
  induction ts generalizing s with
  | nil => simp
  | cons t ts ih =>
    rw [List.foldl_cons, ih, List.count_cons]
    by_cases h : t = k
    · subst h
      simp only [release, Function.update_self, beq_self_eq_true, if_true]
      omega
    · simp only [release, Function.update_of_ne (Ne.symm h), beq_iff_eq, h, if_false, Nat.add_zero]

/-- What is queued had edges left, and has none. -/
theorem ready_release (hsort : ∀ l, (sort l).Perm l) (s : State κ) (ts : List κ) :
    ∃ queued, (ts.foldl (release sort) s).ready.Perm (s.ready ++ queued) ∧ queued.Nodup ∧
      ∀ k ∈ queued, 0 < s.incoming k ∧ s.incoming k ≤ ts.count k := by
  induction ts generalizing s with
  | nil => exact ⟨[], by simp, List.nodup_nil, nofun⟩
  | cons t ts ih =>
    obtain ⟨queued, hperm, hnodup, hqueued⟩ := ih (release sort s t)
    have hupdate : ∀ k, (release sort s t).incoming k = s.incoming k - if t = k then 1 else 0 := by
      intro k
      by_cases h : t = k
      · subst h
        simp [release]
      · simp [release, h, Function.update_of_ne (Ne.symm h)]
    have hrest : ∀ k ∈ queued, 0 < s.incoming k ∧ s.incoming k ≤ (t :: ts).count k := by
      intro k hk
      obtain ⟨hpos, hle⟩ := hqueued k hk
      rw [hupdate] at hpos hle
      rw [List.count_cons]
      by_cases h : t = k
      · simp only [h, if_true, beq_self_eq_true] at hpos hle ⊢
        omega
      · simp only [h, if_false, beq_iff_eq] at hpos hle ⊢
        omega
    rw [List.foldl_cons]
    by_cases hlast : s.incoming t - 1 = 0
    · have hnew : t ∉ queued := fun ht => by
        have := (hqueued t ht).1
        rw [hupdate, if_pos rfl] at this
        omega
      refine ⟨t :: queued, ?_, List.nodup_cons.mpr ⟨hnew, hnodup⟩, fun k hk => ?_⟩
      · have hready : (release sort s t).ready.Perm (s.ready ++ [t]) := by
          simp only [release, hlast, if_true]
          exact hsort _
        refine hperm.trans ?_
        rw [← List.singleton_append, ← List.append_assoc]
        exact hready.append_right queued
      · rcases List.mem_cons.mp hk with rfl | hk
        · rw [List.count_cons_self]
          omega
        · exact hrest k hk
    · refine ⟨queued, ?_, hnodup, hrest⟩
      have hready : (release sort s t).ready = s.ready := by
        simp only [release, hlast, if_false]
      rw [hready] at hperm
      exact hperm

theorem incoming_take (hsort : ∀ l, (sort l).Perm l) (s : State κ) (k : κ) (ready : List κ) (t : κ) :
    (take sort edges s k ready).incoming t = s.incoming t - (outgoing edges k).count t := by
  unfold take
  rw [incoming_release, (hsort _).count_eq]

theorem ready_take (edges : List (κ × κ)) (hsort : ∀ l, (sort l).Perm l) (s : State κ) (k : κ)
    (ready : List κ) :
    ∃ queued, (take sort edges s k ready).ready.Perm (ready ++ queued) ∧ queued.Nodup ∧
      ∀ t ∈ queued, 0 < s.incoming t ∧ s.incoming t ≤ (outgoing edges k).count t := by
  obtain ⟨queued, hperm, hnodup, hqueued⟩ :=
    ready_release hsort { s with ready } (sort (outgoing edges k))
  refine ⟨queued, hperm, hnodup, fun t ht => ?_⟩
  rw [← (hsort _).count_eq]
  exact hqueued t ht

theorem mem_of_outgoing (hedges : ∀ e ∈ edges, e.2 ∈ keys) {t : κ} (ht : t ∈ outgoing edges k) :
    t ∈ keys := by
  obtain ⟨e, he, rfl⟩ := List.mem_map.mp ht
  exact hedges e (List.mem_of_mem_filter he)

theorem count_outgoing (edges : List (κ × κ)) (a k : κ) :
    (outgoing edges a).count k = edges.countP fun e => e.1 = a ∧ e.2 = k := by
  induction edges with
  | nil => rfl
  | cons e edges ih =>
    unfold outgoing at ih ⊢
    by_cases h1 : e.1 = a
    · by_cases h2 : e.2 = k <;> simp [h1, h2, ih, List.count_cons, List.countP_cons]
    · simp [h1, ih, List.countP_cons]

/-- The edges to the key from keys that are not yet taken. -/
def pending (edges : List (κ × κ)) (ordered : List κ) (k : κ) : Nat :=
  edges.countP fun e => e.2 = k ∧ e.1 ∉ ordered

/-- Taking a key closes its edges. -/
theorem pending_snoc (edges : List (κ × κ)) (hk : k ∉ ordered) (t : κ) :
    pending edges ordered t = pending edges (ordered ++ [k]) t + (outgoing edges k).count t := by
  rw [count_outgoing]
  unfold pending
  induction edges with
  | nil => rfl
  | cons e edges ih =>
    simp only [List.countP_cons, ih]
    by_cases h2 : e.2 = t
    · by_cases h1 : e.1 = k
      · simp [h1, h2, hk]
        omega
      · by_cases ho : e.1 ∈ ordered
        · simp [h1, h2, ho]
        · simp [h1, h2, ho]
          omega
    · simp [h2]

theorem pending_eq_zero : pending edges ordered k = 0 ↔ ∀ a, (a, k) ∈ edges → a ∈ ordered := by
  unfold pending
  rw [List.countP_eq_zero]
  constructor
  · intro h a ha
    have := h (a, k) ha
    simpa using this
  · rintro h ⟨a, k'⟩ ha
    simp only [decide_eq_true_eq, not_and, not_not]
    rintro rfl
    exact h a ha

/-! ## The invariant -/

/-- What is taken or queued is so once, and has no edge from a key that is not taken. -/
structure Inv (keys : List κ) (edges : List (κ × κ)) (s : State κ) (ordered : List κ) : Prop where
  nodup : (ordered ++ s.ready).Nodup
  mem : ∀ k ∈ ordered ++ s.ready, k ∈ keys
  count : ∀ k, s.incoming k = pending edges ordered k
  closed : ∀ k ∈ ordered ++ s.ready, pending edges ordered k = 0
  respects : Respects edges ordered

theorem Respects.snoc (h : Respects edges ordered) (hk : ∀ a, (a, k) ∈ edges → a ∈ ordered) :
    Respects edges (ordered ++ [k]) := by
  intro before b rest heq a ha
  rcases List.eq_nil_or_concat rest with rfl | ⟨rest', z, rfl⟩
  · obtain ⟨rfl, hb⟩ := List.append_inj' heq rfl
    cases hb
    exact hk a ha
  · have heq : ordered ++ [k] = (before ++ b :: rest') ++ [z] := by simpa using heq
    obtain ⟨rfl, -⟩ := List.append_inj' heq rfl
    exact h before b rest' rfl a ha

theorem Inv.step (hsort : ∀ l, (sort l).Perm l) (hedges : ∀ e ∈ edges, e.2 ∈ keys)
    {ready : List κ} (h : Inv keys edges s ordered) (hready : s.ready = k :: ready) :
    Inv keys edges (take sort edges s k ready) (ordered ++ [k]) := by
  obtain ⟨queued, hperm, hnodup, hqueued⟩ := ready_take edges hsort s k ready
  obtain ⟨hold, hmem, hcount, hclosed, hrespects⟩ := h
  rw [hready] at hold hclosed hmem
  have hk : k ∉ ordered := fun hin =>
    (List.nodup_append.mp hold).2.2 k hin k List.mem_cons_self rfl
  have hall : ∀ t, t ∈ (ordered ++ [k]) ++ (take sort edges s k ready).ready ↔
      t ∈ ordered ++ k :: ready ∨ t ∈ queued := by
    intro t
    rw [List.mem_append, hperm.mem_iff]
    simp [or_assoc]
  have hnew : ∀ t ∈ queued, t ∉ ordered ++ k :: ready := fun t ht hin => by
    have hpos := (hqueued t ht).1
    rw [hcount, hclosed t hin] at hpos
    omega
  refine ⟨?_, fun t ht => ?_, fun t => ?_, fun t ht => ?_, ?_⟩
  · have hwhole : ((ordered ++ [k]) ++ (take sort edges s k ready).ready).Perm
        ((ordered ++ k :: ready) ++ queued) := by
      refine (hperm.append_left (ordered ++ [k])).trans ?_
      simp
    rw [hwhole.nodup_iff, List.nodup_append]
    exact ⟨hold, hnodup, fun a ha b hb heq => hnew b hb (heq ▸ ha)⟩
  · rcases (hall t).mp ht with hin | hin
    · exact hmem t hin
    · have hpos := hqueued t hin
      exact mem_of_outgoing hedges (List.count_pos_iff.mp (by omega : 0 < (outgoing edges k).count t))
  · rw [incoming_take hsort, hcount, pending_snoc edges hk t]
    omega
  · have hsplit := pending_snoc edges hk t
    rcases (hall t).mp ht with hin | hin
    · have := hclosed t hin
      omega
    · have hle := (hqueued t hin).2
      rw [hcount] at hle
      omega
  · exact hrespects.snoc (pending_eq_zero.mp (hclosed k (by simp)))

theorem Inv.loop (hsort : ∀ l, (sort l).Perm l) (hedges : ∀ e ∈ edges, e.2 ∈ keys)
    (fuel : Nat) (h : Inv keys edges s ordered) :
    Inv keys edges (loop sort edges fuel s ordered).2 (loop sort edges fuel s ordered).1 := by
  induction fuel generalizing s ordered with
  | zero => exact h
  | succ fuel ih =>
    unfold Kahn.loop
    cases hready : s.ready with
    | nil => exact h
    | cons k ready => exact ih (h.step hsort hedges hready)

theorem inv_start (hsort : ∀ l, (sort l).Perm l) (hkeys : keys.Nodup) :
    Inv keys edges (start sort keys edges) [] := by
  have hperm : (start sort keys edges).ready.Perm (keys.filter fun k => indegree edges k = 0) :=
    hsort _
  have hpending : ∀ k, pending edges [] k = indegree edges k := fun k => by
    simp [pending, indegree]
  refine ⟨?_, fun k hk => ?_, fun k => ?_, fun k hk => ?_, fun before k rest heq => ?_⟩
  · rw [List.nil_append, hperm.nodup_iff]
    exact hkeys.filter _
  · rw [List.nil_append, hperm.mem_iff] at hk
    exact List.mem_of_mem_filter hk
  · rw [hpending]
    rfl
  · rw [List.nil_append, hperm.mem_iff] at hk
    rw [hpending]
    simpa using (List.mem_filter.mp hk).2
  · simp at heq

/-- What is taken is taken once and after its predecessors. -/
theorem order_valid (hsort : ∀ l, (sort l).Perm l) (hkeys : keys.Nodup)
    (hedges : ∀ e ∈ edges, e.2 ∈ keys) :
    (order sort keys edges).Nodup ∧ Respects edges (order sort keys edges) := by
  have hstart : Inv keys edges (start sort keys edges) [] := inv_start hsort hkeys
  have h := hstart.loop hsort hedges keys.length
  exact ⟨(List.nodup_append.mp h.nodup).1, h.respects⟩

/-! ## The queue runs empty -/

/-- How many keys can still be taken from the queue. -/
def potential (keys : List κ) (s : State κ) : Nat :=
  s.ready.length + (keys.toFinset.filter fun k => 0 < s.incoming k).card

theorem potential_release (hsort : ∀ l, (sort l).Perm l) {t : κ} (ht : t ∈ keys) :
    potential keys (release sort s t) ≤ potential keys s := by
  unfold potential
  have hsub : ∀ k, k ∈ keys.toFinset.filter (fun k => 0 < (release sort s t).incoming k) →
      k ∈ keys.toFinset.filter fun k => 0 < s.incoming k := by
    intro k hk
    rw [Finset.mem_filter] at hk ⊢
    refine ⟨hk.1, ?_⟩
    by_cases h : k = t
    · subst h
      have := hk.2
      simp only [release, Function.update_self] at this
      omega
    · simpa [release, Function.update_of_ne h] using hk.2
  by_cases hlast : s.incoming t - 1 = 0
  · -- the target leaves the keys with edges for the queue
    have hin : t ∈ keys.toFinset.filter fun k => 0 < s.incoming k :=
      Finset.mem_filter.mpr ⟨List.mem_toFinset.mpr ht, by omega⟩
    have hcard : (keys.toFinset.filter fun k => 0 < (release sort s t).incoming k).card <
        (keys.toFinset.filter fun k => 0 < s.incoming k).card := by
      refine Finset.card_lt_card ⟨hsub, fun hall => ?_⟩
      have := (Finset.mem_filter.mp (hall hin)).2
      simp only [release, Function.update_self] at this
      omega
    have hready : (release sort s t).ready.length = s.ready.length + 1 := by
      simp only [release, hlast, if_true, (hsort _).length_eq, List.length_append,
        List.length_singleton]
    omega
  · have hcard := Finset.card_le_card hsub
    have hready : (release sort s t).ready = s.ready := by
      simp only [release, hlast, if_false]
    rw [hready]
    omega

theorem potential_foldl (hsort : ∀ l, (sort l).Perm l) {ts : List κ} (hts : ∀ t ∈ ts, t ∈ keys) :
    potential keys (ts.foldl (release sort) s) ≤ potential keys s := by
  induction ts generalizing s with
  | nil => exact Nat.le_refl _
  | cons t ts ih =>
    exact (ih fun t' ht' => hts t' (List.mem_cons_of_mem t ht')).trans
      (potential_release hsort (hts t List.mem_cons_self))

theorem loop_ready (hsort : ∀ l, (sort l).Perm l) (hedges : ∀ e ∈ edges, e.2 ∈ keys)
    {fuel : Nat} (h : potential keys s ≤ fuel) : (loop sort edges fuel s ordered).2.ready = [] := by
  induction fuel generalizing s ordered with
  | zero =>
    have : s.ready.length = 0 := by
      unfold potential at h
      omega
    exact List.eq_nil_of_length_eq_zero this
  | succ fuel ih =>
    unfold loop
    cases hready : s.ready with
    | nil => exact hready
    | cons k ready =>
      have hle : potential keys (take sort edges s k ready) ≤ potential keys { s with ready } :=
        potential_foldl hsort fun t ht => mem_of_outgoing hedges ((hsort _).mem_iff.mp ht)
      have hpop : potential keys s = potential keys { s with ready } + 1 := by
        unfold potential
        rw [hready, List.length_cons]
        exact Nat.add_right_comm _ _ _
      exact ih (by omega)

/-- A key for each step is enough: the algorithm ends with nothing queued. -/
theorem run_ready (hsort : ∀ l, (sort l).Perm l) (hedges : ∀ e ∈ edges, e.2 ∈ keys) :
    (run sort keys edges).2.ready = [] := by
  refine loop_ready hsort hedges ?_
  unfold potential
  have hready : (start sort keys edges).ready.length =
      (keys.filter fun k => indegree edges k = 0).length := (hsort _).length_eq
  have hrest : (keys.toFinset.filter fun k => 0 < (start sort keys edges).incoming k).card ≤
      (keys.filter fun k => !decide (indegree edges k = 0)).length := by
    have hsub : (keys.toFinset.filter fun k => 0 < (start sort keys edges).incoming k) ⊆
        (keys.filter fun k => !decide (indegree edges k = 0)).toFinset := by
      intro k hk
      rw [Finset.mem_filter, List.mem_toFinset] at hk
      have hpos : (0 : Int) < indegree edges k := hk.2
      rw [List.mem_toFinset, List.mem_filter]
      exact ⟨hk.1, by simp; omega⟩
    exact (Finset.card_le_card hsub).trans (List.toFinset_card_le _)
  have hsplit := List.length_eq_length_filter_add (l := keys) fun k => decide (indegree edges k = 0)
  omega

theorem mem_loop (hsort : ∀ l, (sort l).Perm l) (hedges : ∀ e ∈ edges, e.2 ∈ keys)
    {fuel : Nat} (hordered : ∀ k ∈ ordered, k ∈ keys) (hready : ∀ k ∈ s.ready, k ∈ keys) :
    ∀ k ∈ (loop sort edges fuel s ordered).1, k ∈ keys := by
  induction fuel generalizing s ordered with
  | zero => exact hordered
  | succ fuel ih =>
    unfold loop
    cases hs : s.ready with
    | nil => exact hordered
    | cons k ready =>
      rw [hs] at hready
      refine ih (fun a ha => ?_) fun a ha => ?_
      · rcases List.mem_append.mp ha with ha | ha
        · exact hordered a ha
        · exact List.mem_singleton.mp ha ▸ hready k List.mem_cons_self
      · obtain ⟨queued, hperm, -, hqueued⟩ := ready_take edges hsort s k ready
        rcases List.mem_append.mp (hperm.mem_iff.mp ha) with ha | ha
        · exact hready a (List.mem_cons_of_mem k ha)
        · have := hqueued a ha
          exact mem_of_outgoing hedges
            (List.count_pos_iff.mp (by omega : 0 < (outgoing edges k).count a))

/-- Only keys are taken. -/
theorem mem_order (hsort : ∀ l, (sort l).Perm l) (hedges : ∀ e ∈ edges, e.2 ∈ keys) :
    ∀ k ∈ order sort keys edges, k ∈ keys :=
  mem_loop hsort hedges nofun fun _ hk => List.mem_of_mem_filter ((hsort _).mem_iff.mp hk)

end SimpleL1.Lib.Kahn
