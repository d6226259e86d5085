import SimpleL1.Lib.Assoc
import Mathlib.Data.List.Dedup
import Mathlib.Tactic.Common

/-!
# Ballots

The votes of an electorate, one a voter. Whoever has not voted is missing. A
question that the votes for it can still carry and that the votes against it have
not yet defeated is one on which somebody has still to vote.
-/

namespace SimpleL1.Lib.Ballot

open Assoc (find find_eq_none keys_insert)

variable {κ β : Type}

/-- The voters whose vote is of the kind. -/
def casting (kind : β → Bool) (votes : List (κ × β)) : List κ :=
  (votes.filter fun v => kind v.2).map Prod.fst

/-- Every voter is one of the electorate and votes once. -/
structure Valid (electorate : List κ) (votes : List (κ × β)) : Prop where
  nodup : (votes.map Prod.fst).Nodup
  registered : ∀ k ∈ votes.map Prod.fst, k ∈ electorate

variable {electorate : List κ} {votes : List (κ × β)} {k : κ} {v : β} {kind : β → Bool}

theorem valid_nil : Valid electorate ([] : List (κ × β)) := ⟨List.nodup_nil, by simp⟩

theorem nodup_casting (h : Valid electorate votes) : (casting kind votes).Nodup :=
  h.nodup.sublist (List.filter_sublist.map _)

theorem registered_casting (h : Valid electorate votes) : ∀ k ∈ casting kind votes, k ∈ electorate :=
  fun k hk => h.registered k ((List.filter_sublist.map _).subset hk)

/-- Every vote is for or against. -/
theorem length_casting (kind : β → Bool) (votes : List (κ × β)) :
    (casting kind votes).length + (casting (fun v => !kind v) votes).length = votes.length := by
  simp only [casting, List.length_map, ← List.countP_eq_length_filter]
  rw [List.length_eq_countP_add_countP fun v : κ × β => kind v.2]
  simp

variable [DecidableEq κ]

/-- Who has not voted. -/
def missing (electorate : List κ) (votes : List (κ × β)) : List κ :=
  electorate.filter fun k => (find k votes).isNone

theorem insert_of_absent (h : find k votes = none) : Assoc.insert k v votes = votes ++ [(k, v)] := by
  induction votes with
  | nil => rfl
  | cons p votes ih =>
    obtain ⟨k', v'⟩ := p
    by_cases hk : k' = k
    · simp [find, hk] at h
    · simp only [find, hk, if_false] at h
      simp only [Assoc.insert, hk, if_false, ih h, List.cons_append]

theorem Valid.insert (h : Valid electorate votes) (hk : k ∈ electorate) (habsent : find k votes = none) :
    Valid electorate (Assoc.insert k v votes) := by
  have hnew : k ∉ votes.map Prod.fst := find_eq_none.mp habsent
  have hkeys : (Assoc.insert k v votes).map Prod.fst = votes.map Prod.fst ++ [k] := by
    rw [keys_insert, if_neg hnew]
  refine ⟨?_, fun k' hk' => ?_⟩
  · rw [hkeys, List.nodup_append_comm]
    exact List.nodup_cons.mpr ⟨hnew, h.nodup⟩
  · rw [hkeys, List.mem_append, List.mem_singleton] at hk'
    rcases hk' with hk' | rfl
    · exact h.registered k' hk'
    · exact hk

theorem length_casting_insert (kind : β → Bool) (v : β) (habsent : find k votes = none) :
    (casting kind (Assoc.insert k v votes)).length = (casting kind votes).length + if kind v then 1 else 0 := by
  rw [insert_of_absent habsent]
  cases h : kind v <;> simp [casting, List.filter_append, h]

/-- The electorate is who has voted and who has not. -/
theorem length_missing (he : electorate.Nodup) (h : Valid electorate votes) :
    (missing electorate votes).length + votes.length = electorate.length := by
  have hvoted : (electorate.filter fun k => (find k votes).isSome).Perm (votes.map Prod.fst) := by
    rw [List.perm_ext_iff_of_nodup (he.filter _) h.nodup]
    intro k
    rw [List.mem_filter, Option.isSome_iff_ne_none, Ne, find_eq_none, not_not]
    exact ⟨fun hk => hk.2, fun hk => ⟨h.registered k hk, hk⟩⟩
  have hlen := hvoted.length_eq
  rw [List.length_map] at hlen
  have hsplit := List.length_eq_length_filter_add (l := electorate) fun k => (find k votes).isSome
  have hnot : (electorate.filter fun k => !(find k votes).isSome) = missing electorate votes := by
    simp [missing]
  rw [hnot] at hsplit
  omega

theorem missing_eq_nil : missing electorate votes = [] ↔ ∀ k ∈ electorate, k ∈ votes.map Prod.fst := by
  simp only [missing, List.filter_eq_nil_iff, Option.isNone_iff_eq_none, find_eq_none, not_not]

/-- A vote takes one voter from those missing. -/
theorem length_missing_insert (he : electorate.Nodup) (h : Valid electorate votes) (hk : k ∈ electorate)
    (habsent : find k votes = none) :
    (missing electorate (Assoc.insert k v votes)).length + 1 = (missing electorate votes).length := by
  have hbefore := length_missing he h
  have hafter := length_missing he (h.insert (v := v) hk habsent)
  rw [insert_of_absent habsent, List.length_append, List.length_singleton,
    ← insert_of_absent habsent] at hafter
  omega

/-- Somebody is missing while the votes for a question do not carry it and those against do not
defeat it. -/
theorem missing_of_undecided (he : electorate.Nodup) (h : Valid electorate votes) {required : Nat}
    (hfor : (casting kind votes).length < required)
    (hagainst : (casting (fun v => !kind v) votes).length + required ≤ electorate.length) :
    missing electorate votes ≠ [] := by
  intro hnil
  have hlen := length_missing he h
  have hsum := length_casting kind votes
  rw [hnil, List.length_nil] at hlen
  omega

end SimpleL1.Lib.Ballot
