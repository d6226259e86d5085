import Mathlib.Data.List.Nodup
import Mathlib.Data.List.Perm.Basic

/-!
# Maps in insertion order

An association list in the order its keys came in, as JavaScript objects keep
theirs. `insert` replaces a value in place and adds a new key at the end. Maps
that answer every lookup alike hold the same entries, in some order.
-/

namespace SimpleL1.Lib

namespace Assoc

variable {κ β : Type} [DecidableEq κ]

def find (k : κ) : List (κ × β) → Option β
  | [] => none
  | (k', v) :: m => if k' = k then some v else find k m

def insert (k : κ) (v : β) : List (κ × β) → List (κ × β)
  | [] => [(k, v)]
  | (k', v') :: m => if k' = k then (k, v) :: m else (k', v') :: insert k v m

theorem find_insert (m : List (κ × β)) (k k' : κ) (v : β) :
    find k' (insert k v m) = if k = k' then some v else find k' m := by
  induction m with
  | nil => rfl
  | cons p m ih =>
    obtain ⟨k0, v0⟩ := p
    by_cases h : k0 = k
    · subst h
      by_cases h' : k0 = k' <;> simp [insert, find, h']
    · by_cases h' : k0 = k'
      · subst h'
        simp [insert, find, h, Ne.symm h]
      · simp [insert, find, h, h', ih]

/-- A key is new and comes last, or keeps its place. -/
theorem keys_insert (m : List (κ × β)) (k : κ) (v : β) :
    (insert k v m).map Prod.fst =
      if k ∈ m.map Prod.fst then m.map Prod.fst else m.map Prod.fst ++ [k] := by
  induction m with
  | nil => rfl
  | cons p m ih =>
    obtain ⟨k0, v0⟩ := p
    by_cases h : k0 = k
    · simp [insert, h]
    · have hne : k ≠ k0 := Ne.symm h
      by_cases hmem : k ∈ m.map Prod.fst
      · simp only [insert, h, if_false, List.map_cons, ih, hmem, if_true, List.mem_cons, hne, or_true]
      · simp only [insert, h, if_false, List.map_cons, ih, hmem, List.mem_cons, hne, or_self,
          List.cons_append]

theorem find_eq_none {m : List (κ × β)} {k : κ} : find k m = none ↔ k ∉ m.map Prod.fst := by
  induction m with
  | nil => simp [find]
  | cons p m ih =>
    obtain ⟨k0, v0⟩ := p
    by_cases h : k0 = k
    · simp [find, h]
    · simp only [find, h, if_false, ih, List.map_cons, List.mem_cons, Ne.symm h, false_or]

theorem find_eq_some {m : List (κ × β)} (hm : (m.map Prod.fst).Nodup) {k : κ} {v : β} :
    find k m = some v ↔ (k, v) ∈ m := by
  induction m with
  | nil => simp [find]
  | cons p m ih =>
    obtain ⟨k0, v0⟩ := p
    rw [List.map_cons, List.nodup_cons] at hm
    by_cases h : k0 = k
    · subst h
      have hno : (k0, v) ∉ m := fun hmem => hm.1 (List.mem_map.mpr ⟨_, hmem, rfl⟩)
      simp [find, hno, eq_comm]
    · have hne : ¬ (k, v) = (k0, v0) := fun heq => h (congrArg Prod.fst heq).symm
      simp only [find, h, if_false, ih hm.2, List.mem_cons, hne, false_or]

theorem find_filter (m : List (κ × β)) (k k' : κ) :
    find k' (m.filter fun e => e.1 ≠ k) = if k = k' then none else find k' m := by
  induction m with
  | nil => simp [find]
  | cons p m ih =>
    obtain ⟨k0, v0⟩ := p
    by_cases h : k0 = k
    · subst h
      rw [List.filter_cons_of_neg (by simp), ih, find]
      split <;> rfl
    · rw [List.filter_cons_of_pos (by simpa using h), find, find, ih]
      by_cases h' : k0 = k'
      · rw [if_pos h', if_pos h', if_neg fun heq => h (h'.trans heq.symm)]
      · rw [if_neg h', if_neg h']

end Assoc

/-- An association list with one entry for each key. -/
structure OrderedMap (κ β : Type) where
  entries : List (κ × β)
  nodup : (entries.map Prod.fst).Nodup

namespace OrderedMap

variable {κ β : Type} [DecidableEq κ]

def empty : OrderedMap κ β := ⟨[], List.nodup_nil⟩

def find (m : OrderedMap κ β) (k : κ) : Option β := Assoc.find k m.entries

def insert (m : OrderedMap κ β) (k : κ) (v : β) : OrderedMap κ β where
  entries := Assoc.insert k v m.entries
  nodup := by
    rw [Assoc.keys_insert]
    split
    · exact m.nodup
    · next h => exact m.nodup.append (List.nodup_singleton k) (by simpa using h)

theorem find_insert (m : OrderedMap κ β) (k k' : κ) (v : β) :
    (m.insert k v).find k' = if k = k' then some v else m.find k' :=
  Assoc.find_insert m.entries k k' v

@[simp] theorem find_insert_self (m : OrderedMap κ β) (k : κ) (v : β) :
    (m.insert k v).find k = some v := by
  rw [find_insert, if_pos rfl]

theorem find_insert_of_ne (m : OrderedMap κ β) {k k' : κ} (h : k ≠ k') (v : β) :
    (m.insert k v).find k' = m.find k' := by
  rw [find_insert, if_neg h]

/-- Without the key `k`. -/
def erase (m : OrderedMap κ β) (k : κ) : OrderedMap κ β where
  entries := m.entries.filter fun e => e.1 ≠ k
  nodup := m.nodup.sublist (List.filter_sublist.map Prod.fst)

theorem find_erase (m : OrderedMap κ β) (k k' : κ) :
    (m.erase k).find k' = if k = k' then none else m.find k' :=
  Assoc.find_filter m.entries k k'

theorem find_eq_some {m : OrderedMap κ β} {k : κ} {v : β} :
    m.find k = some v ↔ (k, v) ∈ m.entries :=
  Assoc.find_eq_some m.nodup

/-- Maps with the same lookups have the same entries, in some order. -/
theorem perm_of_find_eq {m n : OrderedMap κ β} (h : ∀ k, m.find k = n.find k) :
    m.entries.Perm n.entries := by
  refine (List.perm_ext_iff_of_nodup (List.Nodup.of_map _ m.nodup) (List.Nodup.of_map _ n.nodup)).mpr ?_
  rintro ⟨k, v⟩
  rw [← find_eq_some, ← find_eq_some, h]

end OrderedMap

end SimpleL1.Lib
