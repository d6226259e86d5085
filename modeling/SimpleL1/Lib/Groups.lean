import Mathlib.Data.List.Induction
import Mathlib.Data.List.Sort
import SimpleL1.Lib.Assoc

/-!
# Groups and first choices

Elements are put in groups by their keys, in the order in which they come, and of a group
the first one with the highest rank is taken.
-/

namespace SimpleL1.Lib

/-! ## Groups -/

section Groups

variable {α κ : Type} [DecidableEq κ] (key : α → κ)

/-- The elements of each key, in their order. -/
def groupsBy (xs : List α) : OrderedMap κ (List α) :=
  xs.foldl (fun m x => m.insert (key x) ((m.find (key x)).getD [] ++ [x])) .empty

def withKey (xs : List α) (k : κ) : List α := xs.filter fun x => key x = k

variable {key}

theorem mem_withKey {xs : List α} {k : κ} {x : α} : x ∈ withKey key xs k ↔ x ∈ xs ∧ key x = k := by
  unfold withKey
  rw [List.mem_filter, decide_eq_true_eq]

theorem withKey_append (xs ys : List α) (k : κ) :
    withKey key (xs ++ ys) k = withKey key xs k ++ withKey key ys k :=
  List.filter_append ..

/-- If no two elements have one key, each is alone with its own. -/
theorem withKey_of_nodup {xs : List α} (h : (xs.map key).Nodup) {x : α} (hx : x ∈ xs) :
    withKey key xs (key x) = [x] := by
  induction xs with
  | nil => cases hx
  | cons y ys ih =>
    rw [List.map_cons, List.nodup_cons] at h
    unfold withKey at ih ⊢
    obtain rfl | hx := List.mem_cons.mp hx
    · rw [List.filter_cons_of_pos (by simp), List.filter_eq_nil_iff.mpr]
      intro z hz
      rw [decide_eq_true_eq]
      exact fun heq => h.1 (heq ▸ List.mem_map_of_mem hz)
    · have hne : key y ≠ key x := fun heq => h.1 (heq ▸ List.mem_map_of_mem hx)
      rw [List.filter_cons_of_neg (by simpa using hne), ih h.2 hx]

theorem groupsBy_snoc (xs : List α) (x : α) : groupsBy key (xs ++ [x]) =
    (groupsBy key xs).insert (key x) (((groupsBy key xs).find (key x)).getD [] ++ [x]) :=
  List.foldl_append

theorem withKey_snoc (xs : List α) (x : α) (k : κ) :
    withKey key (xs ++ [x]) k = withKey key xs k ++ if key x = k then [x] else [] := by
  unfold withKey
  rw [List.filter_append, List.filter_singleton]
  by_cases h : key x = k <;> simp [h]

theorem find_groupsBy (xs : List α) (k : κ) : (groupsBy key xs).find k =
    if withKey key xs k = [] then none else some (withKey key xs k) := by
  induction xs using List.reverseRecOn with
  | nil => rfl
  | append_singleton xs x ih =>
    rw [groupsBy_snoc, OrderedMap.find_insert, withKey_snoc]
    by_cases h : key x = k
    · subst h
      have hne : withKey key xs (key x) ++ [x] ≠ [] := by simp
      rw [if_pos rfl, if_pos rfl, if_neg hne, ih]
      split
      · next hnil => rw [hnil]; rfl
      · rfl
    · rw [if_neg h, if_neg h, List.append_nil, ih]

/-- The groups are the elements of one key each. -/
theorem mem_groupsBy {xs g : List α} : g ∈ (groupsBy key xs).entries.map Prod.snd ↔
    ∃ x ∈ xs, g = withKey key xs (key x) := by
  constructor
  · intro hg
    obtain ⟨⟨k, g⟩, hmem, rfl⟩ := List.mem_map.mp hg
    have hfind := OrderedMap.find_eq_some.mpr hmem
    rw [find_groupsBy] at hfind
    split at hfind
    · cases hfind
    · next hne =>
      cases hfind
      obtain ⟨x, hx⟩ := List.exists_mem_of_ne_nil _ hne
      obtain ⟨hxs, rfl⟩ := mem_withKey.mp hx
      exact ⟨x, hxs, rfl⟩
  · rintro ⟨x, hx, rfl⟩
    have hne : withKey key xs (key x) ≠ [] := List.ne_nil_of_mem (mem_withKey.mpr ⟨hx, rfl⟩)
    have hfind : (groupsBy key xs).find (key x) = some (withKey key xs (key x)) := by
      rw [find_groupsBy, if_neg hne]
    exact List.mem_map.mpr ⟨_, OrderedMap.find_eq_some.mp hfind, rfl⟩

theorem head_insert (m : OrderedMap κ (List α)) (k : κ) (v : List α) {k₀ : κ}
    (h : (m.entries.map Prod.fst).head? = some k₀) :
    ((m.insert k v).entries.map Prod.fst).head? = some k₀ := by
  show ((Assoc.insert k v m.entries).map Prod.fst).head? = some k₀
  rw [Assoc.keys_insert]
  split
  · exact h
  · rw [List.head?_append, h]
    rfl

/-- The group of the first element comes first. -/
theorem head_groupsBy (key : α → κ) (x : α) (xs : List α) :
    ((groupsBy key (x :: xs)).entries.map Prod.snd).head? = some (withKey key (x :: xs) (key x)) := by
  have hkey : ((groupsBy key (x :: xs)).entries.map Prod.fst).head? = some (key x) := by
    induction xs using List.reverseRecOn with
    | nil => rfl
    | append_singleton xs y ih =>
      rw [← List.cons_append, groupsBy_snoc]
      exact head_insert _ _ _ ih
  cases hentries : (groupsBy key (x :: xs)).entries with
  | nil =>
    rw [hentries] at hkey
    cases hkey
  | cons e es =>
    rw [hentries] at hkey
    have hk : e.1 = key x := Option.some.inj hkey
    have hfind : (groupsBy key (x :: xs)).find e.1 = some e.2 :=
      OrderedMap.find_eq_some.mpr (hentries ▸ List.mem_cons_self)
    rw [hk, find_groupsBy] at hfind
    split at hfind
    · cases hfind
    · rw [List.map_cons, List.head?_cons, ← Option.some.inj hfind]

end Groups

/-! ## First choices -/

section Highest

variable {α : Type} (rank : α → Int)

/-- The first of the elements sorted by descending rank. -/
def highest (xs : List α) : Option α := (xs.insertionSort fun x y => rank y ≤ rank x).head?

variable {rank} {xs : List α} {x y : α}

theorem mem_of_highest (h : highest rank xs = some x) : x ∈ xs :=
  (List.mem_insertionSort _).mp (List.mem_of_head? h)

theorem highest_isSome (h : xs ≠ []) : ∃ x, highest rank xs = some x := by
  unfold highest
  cases hsort : xs.insertionSort fun x y => rank y ≤ rank x with
  | nil =>
    have hlength := List.length_insertionSort (fun x y => rank y ≤ rank x) xs
    rw [hsort] at hlength
    exact absurd (List.length_eq_zero_iff.mp hlength.symm) h
  | cons x rest => exact ⟨x, rfl⟩

theorem rank_le_highest (h : highest rank xs = some x) (hy : y ∈ xs) : rank y ≤ rank x := by
  have hsorted : (xs.insertionSort fun x y => rank y ≤ rank x).Pairwise fun x y => rank y ≤ rank x := by
    have : Std.Total fun x y : α => rank y ≤ rank x := ⟨fun a b => Int.le_total _ _⟩
    have : IsTrans α fun x y : α => rank y ≤ rank x := ⟨fun _ _ _ hab hbc => Int.le_trans hbc hab⟩
    exact List.pairwise_insertionSort _ xs
  unfold highest at h
  have hmem := (List.mem_insertionSort fun x y => rank y ≤ rank x).mpr hy
  cases hsort : xs.insertionSort fun x y => rank y ≤ rank x with
  | nil =>
    rw [hsort] at h
    cases h
  | cons z rest =>
    rw [hsort] at h hmem hsorted
    cases h
    obtain rfl | hrest := List.mem_cons.mp hmem
    · exact Int.le_refl _
    · exact List.rel_of_pairwise_cons hsorted hrest

/-- An element that no other exceeds is taken if it comes first. -/
theorem highest_cons (h : ∀ y ∈ xs, rank y ≤ rank x) : highest rank (x :: xs) = some x := by
  unfold highest
  rw [List.insertionSort_cons_of_forall_rel (fun x y => rank y ≤ rank x) h]
  rfl

end Highest

end SimpleL1.Lib
