import SimpleL1.Js.Replacer
import Mathlib.Algebra.BigOperators.Group.List.Basic
import Mathlib.Algebra.Order.BigOperators.Group.List

/-!
# Canonical text of what is in memory

A record in memory can hold fields that are `undefined`. `stableStringify` writes them as such, and
`JSON.stringify` leaves them out: the text of a record is the canonical text of what is sent when every
field is defined, and longer otherwise.
-/

namespace SimpleL1.Js

open Json

/-! ## Texts of objects -/

/-- An object of fields that are written already. -/
def objectChars (fs : List (String × List Char)) : List Char :=
  '{' :: joinComma ((sortFields fs).map fun p => quote p.1 ++ ':' :: p.2) ++ ['}']

def arrayChars (xs : List (List Char)) : List Char := '[' :: joinComma xs ++ [']']

theorem canonText_obj (fs : Fields) :
    (obj fs).canonText = objectChars (fs.map fun p => (p.1, p.2.canonText)) := by
  unfold canonText objectChars
  rw [canon, text, fieldTexts_eq_map, canonFields_eq_map, ← map_sortFields canon,
    ← map_sortFields fun v : Json => v.canon.text, List.map_map, List.map_map]
  rfl

theorem canonText_arr (xs : List Json) : (arr xs).canonText = arrayChars (xs.map canonText) := by
  unfold canonText arrayChars
  rw [canon, text, canonList_eq_map]
  have htexts : ∀ ys : List Json, texts ys = ys.map text := by
    intro ys
    induction ys with
    | nil => rfl
    | cons y ys ih => rw [texts, ih]; rfl
  rw [htexts, List.map_map]
  rfl

theorem canonText_written (v : Json) : v.written.canonText = v.canonText :=
  canonText_eq_iff_written.mpr (by rw [written_of_finite (finite_written v)]; rfl)

theorem prop_str_of_canon {v w : Json} (h : v.canon = w.canon) {k s : String} (hw : w.prop k = some (.str s)) :
    v.prop k = some (.str s) := by
  have hk := prop_canon v k
  rw [h, prop_canon, hw] at hk
  obtain ⟨u, hu, hcanon⟩ := Option.map_eq_some_iff.mp hk.symm
  cases u with
  | str t => rw [hu]; exact congrArg some hcanon
  | null | bool | num | arr | obj => cases hcanon

theorem toStr_or_empty (s : String) : toStr (or (some (.str s)) (some (.str ""))) = .ok s := by
  by_cases hs : s = ""
  · rw [hs]
    rfl
  · rw [or_str hs]
    rfl

/-- The fields of one name, where names are not repeated. -/
theorem filter_name {fs : Fields} (h : (fs.map Prod.fst).Nodup) (k : String) :
    fs.filter (fun f => f.1 ∈ [k]) = (fs.get k).toList.map fun v => (k, v) := by
  induction fs with
  | nil => rfl
  | cons f fs ih =>
    obtain ⟨k', v⟩ := f
    obtain ⟨hfresh, hnodup⟩ := List.nodup_cons.mp h
    rw [Fields.get_cons]
    by_cases hk : k = k'
    · subst hk
      have hnone : Fields.get fs k = none := by
        rw [← Option.not_isSome_iff_eq_none, isSome_get]
        exact hfresh
      rw [List.filter_cons_of_pos (by simp), ih hnodup, if_pos rfl, hnone]
      rfl
    · rw [List.filter_cons_of_neg (by simpa using Ne.symm hk), ih hnodup, if_neg hk]

/-- Objects that agree on one field and have one text without it are the same. -/
theorem same_of_without {fs gs : Fields} {k : String} (hfs : (fs.map Prod.fst).Nodup)
    (hgs : (gs.map Prod.fst).Nodup) (hk : (fs.get k).map (canon ∘ written) = (gs.get k).map (canon ∘ written))
    (h : (obj (fs.filter fun f => f.1 ∉ [k])).canonText = (obj (gs.filter fun f => f.1 ∉ [k])).canonText) :
    Same (obj fs).written (obj gs).written := by
  have hcanon : ∀ fs : Fields, (obj fs).written.canon = obj (sortFields (fs.map fun f => (f.1, f.2.written.canon))) := by
    intro fs
    rw [written, canon, canonFields_eq_map, writtenFields_eq_map, List.map_map]
    rfl
  have hrest := canonText_eq_iff_written.mp h
  unfold Same at hrest ⊢
  rw [hcanon, hcanon] at hrest ⊢
  have hperm : ((fs.filter fun f => f.1 ∉ [k]).map fun f => (f.1, f.2.written.canon)).Perm
      ((gs.filter fun f => f.1 ∉ [k]).map fun f => (f.1, f.2.written.canon)) := by
    refine (perm_sortFields _).symm.trans ?_
    rw [Json.obj.inj hrest]
    exact perm_sortFields _
  have hone : ∀ {fs : Fields}, (fs.map Prod.fst).Nodup →
      (fs.map fun f => (f.1, f.2.written.canon)).Perm (((fs.get k).map (canon ∘ written)).toList.map (k, ·) ++
        (fs.filter fun f => f.1 ∉ [k]).map fun f => (f.1, f.2.written.canon)) := by
    intro fs hfs
    have hsplit := (List.filter_append_perm (fun f => f.1 ∈ [k]) fs).symm.map
      fun f : String × Json => (f.1, f.2.written.canon)
    rw [List.map_append, filter_name hfs] at hsplit
    have hkey : ((fs.get k).toList.map fun v => (k, v)).map (fun f : String × Json => (f.1, f.2.written.canon)) =
        ((fs.get k).map (canon ∘ written)).toList.map (k, ·) := by
      cases fs.get k <;> rfl
    rw [hkey] at hsplit
    simpa using hsplit
  refine congrArg obj (sortFields_perm ((hone hfs).trans ?_) ?_)
  · rw [hk]
    exact (hperm.append_left _).trans (hone hgs).symm
  · rw [List.map_map]
    exact hfs

/-! ## Lengths -/

theorem length_joinComma (xs : List (List Char)) :
    (joinComma xs).length = (xs.map fun x => x.length + 1).sum - 1 := by
  cases xs with
  | nil => rfl
  | cons x xs =>
    have htail : (xs.flatMap (',' :: ·)).length = (xs.map fun x => x.length + 1).sum := by
      induction xs with
      | nil => rfl
      | cons y xs ih =>
        rw [List.flatMap_cons, List.length_append, ih, List.map_cons, List.sum_cons, List.length_cons]
    rw [joinComma, List.length_append, htail, List.map_cons, List.sum_cons]
    omega

theorem length_arrayChars (xs : List (List Char)) :
    (arrayChars xs).length = (xs.map fun x => x.length + 1).sum - 1 + 2 := by
  unfold arrayChars
  rw [List.length_append, List.length_cons, length_joinComma]
  rfl

def fieldLength (p : String × List Char) : Nat := (quote p.1).length + p.2.length + 2

theorem length_objectChars (fs : List (String × List Char)) :
    (objectChars fs).length = (fs.map fieldLength).sum - 1 + 2 := by
  unfold objectChars
  rw [List.length_append, List.length_cons, length_joinComma, List.map_map]
  have hsum : ((sortFields fs).map ((fun x : List Char => x.length + 1) ∘ fun p => quote p.1 ++ ':' :: p.2)).sum =
      (fs.map fieldLength).sum := by
    rw [((perm_sortFields fs).map _).sum_eq]
    refine congrArg List.sum (List.map_congr_left fun p _ => ?_)
    show (quote p.1 ++ ':' :: p.2).length + 1 = _
    rw [List.length_append, List.length_cons, fieldLength]
    omega
  rw [hsum]
  rfl

/-! ## Records -/

namespace Record

@[simp] theorem get_nil (k : String) : Record.get [] k = none := rfl

def stableChars (r : Record) : List Char :=
  objectChars (r.map fun f => (f.1, (f.2.map canonText).getD "undefined".toList))

/-- No field is `undefined`. -/
def Whole (r : Record) : Prop := ∀ f ∈ r, f.2.isSome = true

theorem stableChars_of_whole {r : Record} (h : r.Whole) : r.stableChars = r.value.canonText := by
  unfold stableChars value
  rw [canonText_obj]
  refine congrArg objectChars ?_
  induction r with
  | nil => rfl
  | cons f r ih =>
    obtain ⟨k, v⟩ := f
    obtain ⟨hf, hr⟩ := List.forall_mem_cons.mp h
    obtain ⟨v, rfl⟩ := Option.isSome_iff_exists.mp hf
    exact congrArg ((k, v.canonText) :: ·) (ih hr)

/-- What is left out is at least as long as nothing. -/
theorem sum_fieldLength_le (r : Record) :
    ((Fields.ofOptions r).map fun p => fieldLength (p.1, p.2.canonText)).sum ≤
      (r.map fun f => fieldLength (f.1, (f.2.map canonText).getD "undefined".toList)).sum ∧
    (¬ r.Whole → ((Fields.ofOptions r).map fun p => fieldLength (p.1, p.2.canonText)).sum + 2 ≤
      (r.map fun f => fieldLength (f.1, (f.2.map canonText).getD "undefined".toList)).sum) := by
  induction r with
  | nil => exact ⟨Nat.le_refl 0, fun h => absurd (fun f hf => nomatch hf) h⟩
  | cons f r ih =>
    obtain ⟨k, v⟩ := f
    obtain ⟨hle, hlt⟩ := ih
    rw [List.map_cons, List.sum_cons]
    cases v with
    | none =>
      have hskip : Fields.ofOptions ((k, none) :: r) = Fields.ofOptions r := rfl
      have hfield : 2 ≤ fieldLength (k, "undefined".toList) := Nat.le_add_left 2 _
      rw [hskip]
      show _ ≤ fieldLength (k, "undefined".toList) + _ ∧ (_ → _ ≤ fieldLength (k, "undefined".toList) + _)
      exact ⟨by omega, fun _ => by omega⟩
    | some v =>
      have hkeep : Fields.ofOptions ((k, some v) :: r) = (k, v) :: Fields.ofOptions r := rfl
      rw [hkeep, List.map_cons, List.sum_cons]
      show fieldLength (k, v.canonText) + _ ≤ fieldLength (k, v.canonText) + _ ∧
        (_ → fieldLength (k, v.canonText) + _ + 2 ≤ fieldLength (k, v.canonText) + _)
      refine ⟨by omega, fun hwhole => ?_⟩
      have hrest := hlt fun hr => hwhole (List.forall_mem_cons.mpr ⟨rfl, hr⟩)
      omega

theorem length_canonText_le (r : Record) : r.value.canonText.length ≤ r.stableChars.length := by
  unfold stableChars value
  rw [canonText_obj, length_objectChars, length_objectChars, List.map_map, List.map_map]
  have hle := (sum_fieldLength_le r).1
  exact Nat.add_le_add_right (Nat.sub_le_sub_right hle 1) 2

theorem length_canonText_lt {r : Record} (h : ¬ r.Whole) : r.value.canonText.length < r.stableChars.length := by
  unfold stableChars value
  rw [canonText_obj, length_objectChars, length_objectChars, List.map_map, List.map_map]
  have hlt : ((Fields.ofOptions r).map (fieldLength ∘ fun p => (p.1, p.2.canonText))).sum + 2 ≤
      (r.map (fieldLength ∘ fun f => (f.1, (f.2.map canonText).getD "undefined".toList))).sum :=
    (sum_fieldLength_le r).2 h
  omega

end Record

/-! ## Objects that hold records -/

/-- A value in memory: plain data, or an array of records. -/
inductive Part where
  | json (v : Json)
  | records (rs : List Record)

namespace Part

def stableChars : Part → List Char
  | json v => v.canonText
  | records rs => arrayChars (rs.map Record.stableChars)

/-- What `JSON.stringify` sees. -/
def value : Part → Json
  | json v => v
  | records rs => .arr (rs.map Record.value)

def Whole : Part → Prop
  | json _ => True
  | records rs => ∀ r ∈ rs, r.Whole

theorem stableChars_of_whole {part : Part} (h : part.Whole) : part.stableChars = part.value.canonText := by
  cases part with
  | json v => rfl
  | records rs =>
    unfold stableChars value
    rw [canonText_arr, List.map_map]
    exact congrArg arrayChars (List.map_congr_left fun r hr => Record.stableChars_of_whole (h r hr))

theorem length_canonText_le (part : Part) : part.value.canonText.length ≤ part.stableChars.length := by
  cases part with
  | json v => exact Nat.le_refl _
  | records rs =>
    unfold stableChars value
    rw [canonText_arr, length_arrayChars, length_arrayChars, List.map_map, List.map_map, List.map_map]
    have hsum := List.sum_le_sum (l := rs) (f := fun r => r.value.canonText.length + 1)
      (g := fun r => r.stableChars.length + 1) fun r _ => Nat.succ_le_succ (Record.length_canonText_le r)
    exact Nat.add_le_add_right (Nat.sub_le_sub_right hsum 1) 2

theorem length_canonText_lt {part : Part} (h : ¬ part.Whole) :
    part.value.canonText.length < part.stableChars.length := by
  cases part with
  | json v => exact absurd trivial h
  | records rs =>
    obtain ⟨r, hr, hwhole⟩ : ∃ r ∈ rs, ¬ r.Whole := by
      by_contra hall
      exact h fun r hr => by_contra fun hwhole => hall ⟨r, hr, hwhole⟩
    unfold stableChars value
    rw [canonText_arr, length_arrayChars, length_arrayChars, List.map_map, List.map_map, List.map_map]
    have hsum := List.sum_lt_sum (l := rs) (fun r => r.value.canonText.length + 1)
      (fun r => r.stableChars.length + 1) (fun r _ => Nat.succ_le_succ (Record.length_canonText_le r))
      ⟨r, hr, Nat.succ_lt_succ (Record.length_canonText_lt hwhole)⟩
    have hpos : 0 < (rs.map fun r => r.value.canonText.length + 1).sum :=
      Nat.lt_of_lt_of_le (Nat.succ_pos _)
        (List.single_le_sum (fun _ _ => Nat.zero_le _) _ (List.mem_map_of_mem hr))
    change (rs.map fun r => r.value.canonText.length + 1).sum - 1 + 2 <
      (rs.map fun r => r.stableChars.length + 1).sum - 1 + 2
    omega

end Part

/-- An object in memory. -/
abbrev Draft := List (String × Part)

namespace Draft

def stableChars (d : Draft) : List Char := objectChars (d.map fun f => (f.1, f.2.stableChars))

def value (d : Draft) : Json := .obj (d.map fun f => (f.1, f.2.value))

def without (d : Draft) (hidden : List String) : Draft := d.filter fun f => f.1 ∉ hidden

def Whole (d : Draft) : Prop := ∀ f ∈ d, f.2.Whole

theorem stableChars_of_whole {d : Draft} (h : d.Whole) : d.stableChars = d.value.canonText := by
  unfold stableChars value
  rw [canonText_obj, List.map_map]
  refine congrArg objectChars (List.map_congr_left fun f hf => ?_)
  exact congrArg (f.1, ·) (Part.stableChars_of_whole (h f hf))

/-- What is `undefined` shows in the text. -/
theorem stableChars_ne {d : Draft} (h : ¬ d.Whole) : d.stableChars ≠ d.value.canonText := by
  obtain ⟨f, hf, hwhole⟩ : ∃ f ∈ d, ¬ f.2.Whole := by
    by_contra hall
    exact h fun f hf => by_contra fun hwhole => hall ⟨f, hf, hwhole⟩
  intro heq
  have hlength := congrArg List.length heq
  unfold stableChars value at hlength
  rw [canonText_obj, length_objectChars, length_objectChars, List.map_map, List.map_map, List.map_map] at hlength
  have hsum := List.sum_lt_sum (l := d) (fun f => fieldLength (f.1, f.2.value.canonText))
    (fun f => fieldLength (f.1, f.2.stableChars))
    (fun f _ => Nat.add_le_add_right (Nat.add_le_add_left (Part.length_canonText_le f.2) _) 2)
    ⟨f, hf, Nat.add_lt_add_right (Nat.add_lt_add_left (Part.length_canonText_lt hwhole) _) 2⟩
  have hpos : 0 < (d.map fun f => fieldLength (f.1, f.2.value.canonText)).sum :=
    Nat.lt_of_lt_of_le (Nat.succ_pos _)
      (List.single_le_sum (fun _ _ => Nat.zero_le _) _ (List.mem_map_of_mem hf))
  change (d.map fun f => fieldLength (f.1, f.2.stableChars)).sum - 1 + 2 =
    (d.map fun f => fieldLength (f.1, f.2.value.canonText)).sum - 1 + 2 at hlength
  omega

theorem value_without (d : Draft) (hidden : List String) :
    (d.without hidden).value = .obj ((d.map fun f => (f.1, f.2.value)).filter fun f => f.1 ∉ hidden) := by
  unfold without value
  rw [List.filter_map]
  rfl

end Draft

end SimpleL1.Js
