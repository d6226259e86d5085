import Mathlib
import SimpleL1.Lib.Assoc

/-!
# Maps in the order of their keys

A map as an association list whose keys increase, as a balanced tree lists its
entries. Maps that answer every lookup alike are the same map. A sum over the
values changes by the value that comes in and the one that goes out.
-/

namespace SimpleL1.Lib

structure SortedMap (κ β : Type) [LinearOrder κ] where
  entries : List (κ × β)
  sorted : (entries.map Prod.fst).Pairwise (· < ·)

namespace SortedMap

variable {κ β : Type} [LinearOrder κ]

/-- The entry goes where its key belongs, in the place of an entry with that key. -/
def insertEntry (k : κ) (v : β) : List (κ × β) → List (κ × β)
  | [] => [(k, v)]
  | (k', v') :: m =>
    if k < k' then (k, v) :: (k', v') :: m
    else if k = k' then (k, v) :: m
    else (k', v') :: insertEntry k v m

theorem mem_keys_insertEntry {k k' : κ} {v : β} {m : List (κ × β)} :
    k' ∈ (insertEntry k v m).map Prod.fst ↔ k' = k ∨ k' ∈ m.map Prod.fst := by
  induction m with
  | nil => simp [insertEntry]
  | cons e m ih =>
    obtain ⟨k₀, v₀⟩ := e
    unfold insertEntry
    split
    · simp
    · split
      · next heq => simp [heq]
      · simp only [List.map_cons, List.mem_cons, ih, or_left_comm]

theorem sorted_insertEntry {k : κ} {v : β} {m : List (κ × β)}
    (h : (m.map Prod.fst).Pairwise (· < ·)) :
    ((insertEntry k v m).map Prod.fst).Pairwise (· < ·) := by
  induction m with
  | nil => simp [insertEntry]
  | cons e m ih =>
    obtain ⟨k₀, v₀⟩ := e
    have hall := (List.pairwise_cons.mp h).1
    have htail := (List.pairwise_cons.mp h).2
    unfold insertEntry
    split
    · next hlt =>
      refine List.pairwise_cons.mpr ⟨fun k' hk' => ?_, h⟩
      rcases List.mem_cons.mp hk' with rfl | hk'
      · exact hlt
      · exact hlt.trans (hall k' hk')
    · next hnlt =>
      split
      · next heq =>
        subst heq
        exact h
      · next hne =>
        refine List.pairwise_cons.mpr ⟨fun k' hk' => ?_, ih htail⟩
        rcases mem_keys_insertEntry.mp hk' with rfl | hk'
        · exact lt_of_le_of_ne (not_lt.mp hnlt) (Ne.symm hne)
        · exact hall k' hk'

theorem find_insertEntry {k k' : κ} {v : β} {m : List (κ × β)}
    (h : (m.map Prod.fst).Pairwise (· < ·)) :
    Assoc.find k' (insertEntry k v m) = if k = k' then some v else Assoc.find k' m := by
  induction m with
  | nil => rfl
  | cons e m ih =>
    obtain ⟨k₀, v₀⟩ := e
    unfold insertEntry
    split
    · rfl
    · split
      · next heq =>
        subst heq
        simp only [Assoc.find]
        split <;> rfl
      · next hne =>
        simp only [Assoc.find, ih (List.pairwise_cons.mp h).2]
        split
        · next heq => rw [if_neg (fun hk => hne (hk.trans heq.symm))]
        · rfl

def empty : SortedMap κ β := ⟨[], .nil⟩

def find (m : SortedMap κ β) (k : κ) : Option β := Assoc.find k m.entries

def insert (m : SortedMap κ β) (k : κ) (v : β) : SortedMap κ β :=
  ⟨insertEntry k v m.entries, sorted_insertEntry m.sorted⟩

def values (m : SortedMap κ β) : List β := m.entries.map Prod.snd

@[simp] theorem find_empty (k : κ) : (empty : SortedMap κ β).find k = none := rfl

theorem find_insert (m : SortedMap κ β) (k k' : κ) (v : β) :
    (m.insert k v).find k' = if k = k' then some v else m.find k' :=
  find_insertEntry m.sorted

@[simp] theorem find_insert_self (m : SortedMap κ β) (k : κ) (v : β) :
    (m.insert k v).find k = some v := by
  rw [find_insert, if_pos rfl]

theorem find_insert_of_ne (m : SortedMap κ β) {k k' : κ} (h : k ≠ k') (v : β) :
    (m.insert k v).find k' = m.find k' := by
  rw [find_insert, if_neg h]

theorem nodup (m : SortedMap κ β) : (m.entries.map Prod.fst).Nodup :=
  m.sorted.imp fun h => h.ne

theorem find_eq_some {m : SortedMap κ β} {k : κ} {v : β} :
    m.find k = some v ↔ (k, v) ∈ m.entries :=
  Assoc.find_eq_some m.nodup

/-- Maps that answer every lookup alike are the same. -/
theorem ext_find {m n : SortedMap κ β} (h : ∀ k, m.find k = n.find k) : m = n := by
  have hmem : ∀ e, e ∈ m.entries ↔ e ∈ n.entries := fun ⟨k, v⟩ => by
    rw [← find_eq_some, ← find_eq_some, h]
  have hperm : m.entries.Perm n.entries := by
    refine (List.perm_ext_iff_of_nodup ?_ ?_).mpr hmem
    · exact .of_map _ m.nodup
    · exact .of_map _ n.nodup
  have hentries : m.entries = n.entries := by
    have hsm : m.entries.Pairwise fun a b => a.1 < b.1 := List.pairwise_map.mp m.sorted
    have hsn : n.entries.Pairwise fun a b => a.1 < b.1 := List.pairwise_map.mp n.sorted
    exact hperm.eq_of_pairwise (fun a b _ _ hab hba => absurd hab hba.not_gt) hsm hsn
  cases m
  cases n
  cases hentries
  rfl

/-! ## Sums -/

def sum (f : β → Nat) (m : SortedMap κ β) : Nat := (m.values.map f).sum

/-- The sum with the old value is the old sum with the new one. -/
theorem sum_insert (f : β → Nat) (m : SortedMap κ β) (k : κ) (v : β) :
    (m.insert k v).sum f + ((m.find k).map f).getD 0 = m.sum f + f v := by
  obtain ⟨entries, hsorted⟩ := m
  simp only [sum, values, insert, find]
  induction entries with
  | nil => simp [insertEntry, Assoc.find]
  | cons e entries ih =>
    obtain ⟨k₀, v₀⟩ := e
    have hall := (List.pairwise_cons.mp hsorted).1
    have htail := (List.pairwise_cons.mp hsorted).2
    have ih := ih htail
    unfold insertEntry
    split
    · next hlt =>
      -- The key comes before all others, so it is new.
      have hnone : Assoc.find k ((k₀, v₀) :: entries) = none := by
        rw [Assoc.find_eq_none, List.map_cons, List.mem_cons]
        rintro (rfl | hmem)
        · exact lt_irrefl k hlt
        · exact lt_irrefl k (hlt.trans (hall k hmem))
      rw [hnone]
      simp only [List.map_cons, List.sum_cons, Option.map_none, Option.getD_none]
      omega
    · split
      · next heq =>
        subst heq
        simp only [Assoc.find, if_true, List.map_cons, List.sum_cons, Option.map_some,
          Option.getD_some]
        omega
      · next hne =>
        simp only [Assoc.find, if_neg (Ne.symm hne), List.map_cons, List.sum_cons]
        omega

end SortedMap

end SimpleL1.Lib
