import SimpleL1.Js.Text

/-!
# Values up to the order of object keys

`canon` sorts the fields of every object by key, in the UTF-16 order of
`Array.prototype.sort`, and `canonText` is the text of the result. Values with
one canonical form are equal up to the order of object keys (`Same`). Reading a
property and the coercions do not see the order, so they commute with `canon`.
-/

namespace SimpleL1.Js

/-! ## Key order -/

def utf16 (c : Char) : List Nat :=
  let n := c.toNat
  if n < 0x10000 then [n] else [0xD800 + (n - 0x10000) / 0x400, 0xDC00 + (n - 0x10000) % 0x400]

def lexLe : List Nat → List Nat → Bool
  | [], _ => true
  | _ :: _, [] => false
  | a :: as, b :: bs => decide (a < b) || (decide (a = b) && lexLe as bs)

/-- The order of `Array.prototype.sort` on strings. -/
def keyLe (a b : String) : Bool := lexLe (a.toList.flatMap utf16) (b.toList.flatMap utf16)

theorem lexLe_refl (as : List Nat) : lexLe as as = true := by
  induction as with
  | nil => rfl
  | cons a as ih => simp [lexLe, ih]

theorem keyLe_refl (a : String) : keyLe a a = true := lexLe_refl _

/-- Fields in key order. -/
def sortFields {α : Type} (fs : List (String × α)) : List (String × α) :=
  fs.insertionSort fun a b => keyLe a.1 b.1 = true

theorem perm_sortFields {α : Type} (fs : List (String × α)) : (sortFields fs).Perm fs :=
  List.perm_insertionSort _ fs

theorem lexLe_antisymm : ∀ {as bs : List Nat}, lexLe as bs = true → lexLe bs as = true → as = bs
  | [], [], _, _ => rfl
  | [], _ :: _, _, h => nomatch h
  | _ :: _, [], h, _ => nomatch h
  | a :: as, b :: bs, h, h' => by
    simp only [lexLe, Bool.or_eq_true, Bool.and_eq_true, decide_eq_true_eq] at h h'
    have hab : a = b := by omega
    subst hab
    have hle : lexLe as bs = true := by simpa using h
    have hge : lexLe bs as = true := by simpa using h'
    rw [lexLe_antisymm hle hge]

theorem lexLe_total : ∀ as bs : List Nat, lexLe as bs = true ∨ lexLe bs as = true
  | [], _ => .inl rfl
  | _ :: _, [] => .inr rfl
  | a :: as, b :: bs => by
    simp only [lexLe, Bool.or_eq_true, Bool.and_eq_true, decide_eq_true_eq]
    rcases Nat.lt_trichotomy a b with h | h | h
    · exact .inl (.inl h)
    · rcases lexLe_total as bs with hle | hle
      · exact .inl (.inr ⟨h, hle⟩)
      · exact .inr (.inr ⟨h.symm, hle⟩)
    · exact .inr (.inl h)

theorem lexLe_trans : ∀ {as bs cs : List Nat}, lexLe as bs = true → lexLe bs cs = true →
    lexLe as cs = true
  | [], _, _, _, _ => rfl
  | _ :: _, [], _, h, _ => nomatch h
  | _ :: _, _ :: _, [], _, h => nomatch h
  | a :: as, b :: bs, c :: cs, h, h' => by
    simp only [lexLe, Bool.or_eq_true, Bool.and_eq_true, decide_eq_true_eq] at h h' ⊢
    rcases h with h | ⟨rfl, h⟩
    · rcases h' with h' | ⟨rfl, -⟩
      · exact .inl (h.trans h')
      · exact .inl h
    · rcases h' with h' | ⟨rfl, h'⟩
      · exact .inl h'
      · exact .inr ⟨rfl, lexLe_trans h h'⟩

/-- No character is a surrogate. -/
theorem toNat_not_surrogate (c : Char) :
    (c.toNat < 0xD800 ∨ 0xDFFF < c.toNat) ∧ c.toNat < 0x110000 := by
  rcases c.valid with h | ⟨h, h'⟩
  · exact ⟨.inl h, lt_trans h (by decide)⟩
  · exact ⟨.inr h, h'⟩

/-- The code units of a character tell which it is, and where it ends. -/
theorem utf16_append_inj {c d : Char} {us vs : List Nat} (h : utf16 c ++ us = utf16 d ++ vs) :
    c = d ∧ us = vs := by
  obtain ⟨hc, hc'⟩ := toNat_not_surrogate c
  obtain ⟨hd, hd'⟩ := toNat_not_surrogate d
  have hinj : c.toNat = d.toNat → c = d := fun h => Char.toNat_inj.mp h
  unfold utf16 at h
  dsimp only at h
  split at h <;> split at h <;> simp only [List.cons_append, List.nil_append, List.cons.injEq] at h
  · exact ⟨hinj h.1, h.2⟩
  · omega
  · omega
  · exact ⟨hinj (by omega), h.2.2⟩

theorem flatMap_utf16_inj : ∀ {cs ds : List Char}, cs.flatMap utf16 = ds.flatMap utf16 → cs = ds
  | [], [], _ => rfl
  | [], d :: ds, h => by
    unfold utf16 at h
    simp only [List.flatMap_nil, List.flatMap_cons] at h
    split at h <;> cases h
  | c :: cs, [], h => by
    unfold utf16 at h
    simp only [List.flatMap_nil, List.flatMap_cons] at h
    split at h <;> cases h
  | c :: cs, d :: ds, h => by
    obtain ⟨hcd, h⟩ := utf16_append_inj h
    rw [hcd, flatMap_utf16_inj h]

theorem keyLe_antisymm {a b : String} (h : keyLe a b = true) (h' : keyLe b a = true) : a = b :=
  String.toList_inj.mp (flatMap_utf16_inj (lexLe_antisymm h h'))

/-- The order the fields come in does not matter, when every key is there once. -/
theorem sortFields_perm {α : Type} {fs gs : List (String × α)} (h : fs.Perm gs)
    (hnodup : (fs.map Prod.fst).Nodup) : sortFields fs = sortFields gs := by
  let le (a b : String × α) : Prop := keyLe a.1 b.1 = true
  have htotal : Std.Total le := ⟨fun a b => lexLe_total _ _⟩
  have htrans : IsTrans (String × α) le := ⟨fun a b c => lexLe_trans⟩
  have hsorted (l : List (String × α)) : (sortFields l).Pairwise le :=
    List.pairwise_insertionSort le l
  refine List.Perm.eq_of_pairwise ?_ (hsorted fs) (hsorted gs)
    ((perm_sortFields fs).trans (h.trans (perm_sortFields gs).symm))
  intro a b ha hb hab hba
  have ha := (perm_sortFields fs).mem_iff.mp ha
  have hb := h.mem_iff.mpr ((perm_sortFields gs).mem_iff.mp hb)
  exact List.inj_on_of_nodup_map hnodup ha hb (keyLe_antisymm hab hba)

section Lookup

variable {α : Type} (le : String → String → Prop) [DecidableRel le] (hrefl : ∀ k, le k k)

include hrefl

theorem lookup_orderedInsert (k : String) (p : String × α) (fs : List (String × α)) :
    (fs.orderedInsert (fun a b => le a.1 b.1) p).lookup k = (p :: fs).lookup k := by
  induction fs with
  | nil => rfl
  | cons q fs ih =>
    rw [List.orderedInsert_cons]
    split
    · rfl
    · next h =>
      -- a field stays behind `q` only if its key is another one
      have hne : q.1 ≠ p.1 := by
        intro he; rw [he] at h; exact h (hrefl _)
      obtain ⟨kp, vp⟩ := p
      obtain ⟨kq, vq⟩ := q
      simp only [List.lookup_cons, ih]
      by_cases h1 : k = kq
      · subst h1
        have h2 : (k == kp) = false := beq_false_of_ne hne
        simp only [beq_self_eq_true, h2]
      · have h1' : (k == kq) = false := beq_false_of_ne h1
        simp [h1']

/-- Sorting by key keeps what is found first under a key. -/
theorem lookup_insertionSort (k : String) (fs : List (String × α)) :
    (fs.insertionSort fun a b => le a.1 b.1).lookup k = fs.lookup k := by
  induction fs with
  | nil => rfl
  | cons p fs ih =>
    rw [List.insertionSort_cons, lookup_orderedInsert le hrefl]
    obtain ⟨kp, vp⟩ := p
    rw [List.lookup_cons, List.lookup_cons]
    split
    · rfl
    · exact ih

end Lookup

theorem lookup_sortFields {α : Type} (k : String) (fs : List (String × α)) :
    (sortFields fs).lookup k = fs.lookup k :=
  lookup_insertionSort (fun a b => keyLe a b = true) keyLe_refl k fs

theorem map_sortFields {α β : Type} (f : α → β) (fs : List (String × α)) :
    (sortFields fs).map (fun p => (p.1, f p.2)) = sortFields (fs.map fun p => (p.1, f p.2)) := by
  induction fs with
  | nil => rfl
  | cons p fs ih =>
    have hins : ∀ gs : List (String × α),
        (gs.orderedInsert (fun a b => keyLe a.1 b.1 = true) p).map (fun p => (p.1, f p.2)) =
        (gs.map fun p => (p.1, f p.2)).orderedInsert (fun a b => keyLe a.1 b.1 = true)
          (p.1, f p.2) := by
      intro gs
      induction gs with
      | nil => rfl
      | cons q gs ihg =>
        simp only [List.orderedInsert_cons, List.map_cons]
        split <;> simp [ihg]
    simp only [sortFields, List.insertionSort_cons, List.map_cons] at ih ⊢
    rw [hins, ih]

namespace Json

/-! ## Canonical form -/

mutual

def canon : Json → Json
  | arr xs => arr (canonList xs)
  | obj fs => obj (sortFields (canonFields fs))
  | v => v

def canonList : List Json → List Json
  | [] => []
  | x :: xs => canon x :: canonList xs

def canonFields : List (String × Json) → List (String × Json)
  | [] => []
  | (k, v) :: fs => (k, canon v) :: canonFields fs

end

/-- Equal up to the order of object keys. -/
def Same (v w : Json) : Prop := v.canon = w.canon

def canonText (v : Json) : List Char := v.canon.text

theorem canonList_eq_map (xs : List Json) : canonList xs = xs.map canon := by
  induction xs with
  | nil => rfl
  | cons x xs ih => simp [canonList, ih]

theorem canonFields_eq_map (fs : List (String × Json)) :
    canonFields fs = fs.map fun p => (p.1, p.2.canon) := by
  induction fs with
  | nil => rfl
  | cons p fs ih => obtain ⟨k, v⟩ := p; simp [canonFields, ih]

theorem finiteFields_eq_all (fs : List (String × Json)) :
    finiteFields fs = fs.all fun p => p.2.finite := by
  induction fs with
  | nil => rfl
  | cons p fs ih => obtain ⟨k, v⟩ := p; simp [finiteFields, ih]

theorem finiteFields_perm {fs gs : List (String × Json)} (h : fs.Perm gs) :
    finiteFields fs = finiteFields gs := by
  rw [finiteFields_eq_all, finiteFields_eq_all, Bool.eq_iff_iff]
  simp only [List.all_eq_true]
  exact ⟨fun hf p hp => hf p (h.mem_iff.mpr hp), fun hf p hp => hf p (h.mem_iff.mp hp)⟩

mutual

theorem finite_canon : ∀ v : Json, v.canon.finite = v.finite
  | .null | .bool _ | .num _ | .str _ => rfl
  | .arr xs => by simpa [canon, finite] using finite_canonList xs
  | .obj fs => by
    simp only [canon, finite]
    rw [finiteFields_perm (perm_sortFields _)]
    exact finite_canonFields fs

theorem finite_canonList : ∀ xs : List Json, finiteList (canonList xs) = finiteList xs
  | [] => rfl
  | x :: xs => by simp only [canonList, finiteList, finite_canon x, finite_canonList xs]

theorem finite_canonFields : ∀ fs : List (String × Json),
    finiteFields (canonFields fs) = finiteFields fs
  | [] => rfl
  | (k, v) :: fs => by simp only [canonFields, finiteFields, finite_canon v, finite_canonFields fs]

end

/-- Canonical text is one text for exactly the values that differ in key order only. -/
theorem canonText_eq_iff {v w : Json} (hv : v.finite = true) (hw : w.finite = true) :
    v.canonText = w.canonText ↔ Same v w :=
  ⟨text_injective (by rw [finite_canon, hv]) (by rw [finite_canon, hw]), congrArg text⟩

theorem writtenFields_eq_map (fs : List (String × Json)) :
    writtenFields fs = fs.map fun p => (p.1, p.2.written) := by
  induction fs with
  | nil => rfl
  | cons p fs ih => obtain ⟨k, v⟩ := p; simp [writtenFields, ih]

mutual

theorem written_canon : ∀ v : Json, v.canon.written = v.written.canon
  | .null | .bool _ | .str _ => rfl
  | .num n => by simp only [canon, written]; split <;> rfl
  | .arr xs => congrArg arr (written_canonList xs)
  | .obj fs => by
    simp only [canon, written]
    rw [writtenFields_eq_map, map_sortFields, ← writtenFields_eq_map, written_canonFields fs]

theorem written_canonList : ∀ xs : List Json,
    writtenList (canonList xs) = canonList (writtenList xs)
  | [] => rfl
  | x :: xs => by simp only [canonList, writtenList, written_canon x, written_canonList xs]

theorem written_canonFields : ∀ fs : List (String × Json),
    writtenFields (canonFields fs) = canonFields (writtenFields fs)
  | [] => rfl
  | (k, v) :: fs => by
    simp only [canonFields, writtenFields, written_canon v, written_canonFields fs]

end

/-- Canonical text is one text for exactly the values written alike up to key order. -/
theorem canonText_eq_iff_written {v w : Json} :
    v.canonText = w.canonText ↔ Same v.written w.written := by
  unfold Same canonText
  rw [← written_canon, ← written_canon]
  refine ⟨written_eq_of_text, fun h => ?_⟩
  rw [← text_written v.canon, h, text_written]

/-! ## What does not see the order -/

theorem get_canonFields (fs : Fields) (k : String) :
    Fields.get (canonFields fs) k = (Fields.get fs k).map canon := by
  induction fs with
  | nil => rfl
  | cons p fs ih =>
    obtain ⟨k', v⟩ := p
    by_cases h : k = k' <;> simp [canonFields, h, ih]

theorem get_sort_canonFields (fs : Fields) (k : String) :
    Fields.get (sortFields (canonFields fs)) k = (Fields.get fs k).map canon := by
  rw [Fields.get, lookup_sortFields]
  exact get_canonFields fs k

@[simp] theorem prop_canon (v : Json) (k : String) : v.canon.prop k = (v.prop k).map canon := by
  cases v with
  | obj fs => exact get_sort_canonFields fs k
  | _ => rfl

@[simp] theorem truthy_canon (v : Json) : v.canon.truthy = v.truthy := by
  cases v <;> rfl

theorem prop_written (v : Json) (k : String) : v.written.prop k = (v.prop k).map written := by
  cases v with
  | obj fs =>
    simp only [written, prop_obj]
    induction fs with
    | nil => rfl
    | cons p fs ih =>
      obtain ⟨k', v⟩ := p
      by_cases h : k = k' <;> simp [writtenFields, h, ih]
  | num n => unfold written; split <;> rfl
  | _ => rfl

theorem isArray_canon (v : Json) : v.canon.isArray = v.isArray := by cases v <;> rfl

theorem isObject_canon (v : Json) : v.canon.isObject = v.isObject := by cases v <;> rfl

theorem hasOwnToString_canon (fs : Fields) :
    hasOwnToString (sortFields (canonFields fs)) = hasOwnToString fs := by
  simp [hasOwnToString, get_sort_canonFields]

mutual

theorem toStr_canon : ∀ v : Json, v.canon.toStr = v.toStr
  | .null | .bool _ | .num _ | .str _ => rfl
  | .arr xs => by simp only [canon, Json.toStr, elemStrs_canon xs]
  | .obj fs => by simp only [canon, Json.toStr, hasOwnToString_canon]

theorem elemStrs_canon : ∀ xs : List Json, elemStrs (canonList xs) = elemStrs xs
  | [] => rfl
  | .null :: xs => by simp only [canonList, canon, elemStrs, elemStrs_canon xs]
  | .bool b :: xs => by simp only [canonList, canon, elemStrs, elemStrs_canon xs]
  | .num n :: xs => by simp only [canonList, canon, elemStrs, elemStrs_canon xs]
  | .str s :: xs => by simp only [canonList, canon, elemStrs, elemStrs_canon xs]
  | .arr ys :: xs => by
    have h := toStr_canon (.arr ys)
    simp only [canon] at h
    simp only [canonList, canon, elemStrs, elemStrs_canon xs, h]
  | .obj fs :: xs => by
    have h := toStr_canon (.obj fs)
    simp only [canon] at h
    simp only [canonList, canon, elemStrs, elemStrs_canon xs, h]

end

theorem toNumber_canon (v : Json) : v.canon.toNumber = v.toNumber := by
  cases v with
  | arr xs =>
    have h := toStr_canon (.arr xs)
    simp only [canon] at h
    simp only [canon, Json.toNumber, h]
  | obj fs => simp only [canon, Json.toNumber, hasOwnToString_canon]
  | _ => rfl

end Json

open Json

@[simp] theorem truthy_map_canon (a : Option Json) : truthy (a.map canon) = truthy a := by
  cases a <;> simp [truthy]

theorem or_map_canon (a b : Option Json) : or (a.map canon) (b.map canon) = (or a b).map canon := by
  unfold or; rw [truthy_map_canon]; split <;> rfl

theorem nullish_map_canon (a b : Option Json) :
    nullish (a.map canon) (b.map canon) = (nullish a b).map canon := by
  cases a with
  | none => rfl
  | some v => cases v <;> rfl

theorem orNull_map_canon (a : Option Json) : orNull (a.map canon) = (orNull a).canon := by
  cases a with
  | none => rfl
  | some v => simp only [orNull, Option.map_some, truthy_canon]; split <;> rfl

theorem toStr_map_canon (a : Option Json) : toStr (a.map canon) = toStr a := by
  cases a with
  | none => rfl
  | some v => exact toStr_canon v

theorem toNumber_map_canon (a : Option Json) : toNumber (a.map canon) = toNumber a := by
  cases a with
  | none => rfl
  | some v => exact toNumber_canon v

theorem isNonEmptyString_map_canon (a : Option Json) :
    isNonEmptyString (a.map canon) = isNonEmptyString a := by
  cases a with
  | none => rfl
  | some v => cases v <;> rfl

/-! ## Values read alike

`||` does not tell a falsy value from an absent one. -/

/-- The value, if it is truthy. -/
def given (a : Option Json) : Option Json := if truthy a then a else none

/-- One truthy value up to key order, or none on both sides. -/
def ReadAlike (a b : Option Json) : Prop := (given a).map canon = (given b).map canon

theorem truthy_congr {a b : Option Json} (h : a.map canon = b.map canon) : truthy a = truthy b := by
  rw [← truthy_map_canon a, h, truthy_map_canon]

theorem toStr_congr {a b : Option Json} (h : a.map canon = b.map canon) : toStr a = toStr b := by
  rw [← toStr_map_canon a, h, toStr_map_canon]

theorem truthy_given (a : Option Json) : truthy (given a) = truthy a := by
  unfold given
  split
  · rfl
  · next h => rw [Bool.not_eq_true] at h; rw [h]; rfl

theorem ReadAlike.of_eq {a b : Option Json} (h : a.map canon = b.map canon) : ReadAlike a b := by
  unfold ReadAlike given
  rw [truthy_congr h]
  split
  · exact h
  · rfl

theorem ReadAlike.truthy {a b : Option Json} (h : ReadAlike a b) : truthy a = truthy b := by
  rw [← truthy_given a, ← truthy_given b]
  exact truthy_congr h

theorem ReadAlike.eq_of_truthy {a b : Option Json} (h : ReadAlike a b)
    (ha : Js.truthy a = true) : a.map canon = b.map canon := by
  have hb : Js.truthy b = true := h.truthy ▸ ha
  simpa only [ReadAlike, given, ha, hb, if_true] using h

theorem or_congr {a a' b b' : Option Json} (ha : ReadAlike a a') (hb : b.map canon = b'.map canon) :
    (or a b).map canon = (or a' b').map canon := by
  by_cases h : truthy a = true
  · rw [or_of_truthy h, or_of_truthy (ha.truthy ▸ h)]
    exact ha.eq_of_truthy h
  · rw [Bool.not_eq_true] at h
    rw [or_of_falsy h, or_of_falsy (ha.truthy ▸ h)]
    exact hb

theorem ReadAlike.or {a a' b b' : Option Json} (ha : ReadAlike a a') (hb : ReadAlike b b') :
    ReadAlike (Js.or a b) (Js.or a' b') := by
  by_cases h : Js.truthy a = true
  · rw [or_of_truthy h, or_of_truthy (ha.truthy ▸ h)]
    exact ha
  · rw [Bool.not_eq_true] at h
    rw [or_of_falsy h, or_of_falsy (ha.truthy ▸ h)]
    exact hb

theorem orNull_congr {a b : Option Json} (h : ReadAlike a b) : (orNull a).canon = (orNull b).canon := by
  have hgiven : ∀ c, orNull c = (given c).getD .null := by
    intro c
    cases c with
    | none => rfl
    | some v =>
      by_cases hv : v.truthy = true
      · simp [orNull, given, truthy, hv]
      · simp [orNull, given, truthy, hv]
  have hcanon : ∀ c : Option Json, (c.getD .null).canon = (c.map canon).getD .null := by
    intro c
    cases c <;> rfl
  rw [hgiven, hgiven, hcanon, hcanon, h]

theorem strOrEmpty_congr {a b : Option Json} (h : ReadAlike a b) : strOrEmpty a = strOrEmpty b :=
  toStr_congr (or_congr h rfl)

/-- Fields with the same values up to key order. -/
def Fields.Alike (p q : Fields) : Prop := ∀ k, (p.get k).map canon = (q.get k).map canon

theorem Fields.Alike.read {p q : Fields} (h : p.Alike q) (k : String) :
    ReadAlike (p.get k) (q.get k) := .of_eq (h k)

theorem Fields.Alike.set {p q : Fields} (h : p.Alike q) (k : String) {v w : Json}
    (hv : v.canon = w.canon) : (p.set k v).Alike (q.set k w) := by
  intro k'
  rw [Fields.get_set, Fields.get_set]
  split
  · exact congrArg some hv
  · exact h k'

theorem get_spread_canon (v : Json) (k : String) :
    v.canon.spread.get k = (v.spread.get k).map canon := by
  cases v with
  | obj fs => exact get_sort_canonFields fs k
  | arr xs =>
    have h : (canon (.arr xs)).spread = canonFields (Json.arr xs).spread := by
      simp only [canon, spread, canonList_eq_map, canonFields_eq_map, List.zipIdx_map, List.map_map]
      rfl
    rw [h]
    exact get_canonFields _ k
  | _ => rfl

theorem spread_alike {v w : Json} (h : v.Same w) : v.spread.Alike w.spread := by
  intro k
  rw [← get_spread_canon, ← get_spread_canon, h]

end SimpleL1.Js
