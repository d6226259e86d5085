import Mathlib.Data.List.Sort
import Mathlib.Data.String.Basic

/-!
# Trees of lists and objects

Values of leaves, lists and objects, and the texts that write a list in brackets and an object in
braces. Where the texts of leaves and keys can be read off the front of a text, a whole value can: a
text is one value.
-/

namespace SimpleL1.Lib

inductive Tree (α : Type) where
  | leaf (a : α)
  | list (xs : List (Tree α))
  | object (fields : List (String × Tree α))

namespace Tree

variable {α : Type}

/-! ## Texts -/

/-- What stands behind a value inside a text. -/
def Delim (x : List Char) : Prop := ∀ c ∈ x.head?, c = ',' ∨ c = ']' ∨ c = '}'

/-- How leaves and keys are written, and how both are told from what is written around them. -/
structure Spelling (α : Type) where
  leaf : α → List Char
  key : String → List Char
  leaf_head : ∀ a, ∃ c cs, leaf a = c :: cs ∧ c ∉ ['[', '{', ',', ']', '}']
  leaf_append_inj : ∀ {a b x y}, Delim x → Delim y → leaf a ++ x = leaf b ++ y → a = b ∧ x = y
  key_head : ∀ k, ∃ c cs, key k = c :: cs ∧ c ≠ '}'
  key_append_inj : ∀ {k l x y}, key k ++ x = key l ++ y → k = l ∧ x = y

/-- Texts with a comma before each but the first. -/
def commas : List (List Char) → List Char
  | [] => []
  | t :: ts => t ++ ts.flatMap (',' :: ·)

section
variable (p : Spelling α)

mutual

def text : Tree α → List Char
  | leaf a => p.leaf a
  | list xs => '[' :: commas (texts xs) ++ [']']
  | object fields => '{' :: commas (fieldTexts fields) ++ ['}']

def texts : List (Tree α) → List (List Char)
  | [] => []
  | x :: xs => text x :: texts xs

def fieldTexts : List (String × Tree α) → List (List Char)
  | [] => []
  | (k, v) :: fields => (p.key k ++ ':' :: text v) :: fieldTexts fields

end

end

theorem delim_cons {c : Char} {x : List Char} (h : c = ',' ∨ c = ']' ∨ c = '}') : Delim (c :: x) := by
  intro d hd
  cases hd
  exact h

/-- The texts after the first, closed by `c`. -/
theorem delim_flatMap {ts : List (List Char)} {c : Char} {x : List Char} (hc : c = ',' ∨ c = ']' ∨ c = '}') :
    Delim (ts.flatMap (',' :: ·) ++ c :: x) := by
  cases ts with
  | nil => exact delim_cons hc
  | cons t ts => exact delim_cons (.inl rfl)

section
variable {p : Spelling α}

/-- No value begins with what may follow one. -/
theorem text_ne_delim (v : Tree α) {c : Char} (hc : c = ',' ∨ c = ']' ∨ c = '}') {x y : List Char} :
    text p v ++ x ≠ c :: y := by
  intro h
  cases v with
  | leaf a =>
    obtain ⟨d, cs, hleaf, hd⟩ := p.leaf_head a
    rw [text, hleaf] at h
    obtain ⟨rfl, -⟩ := List.cons.inj h
    rcases hc with rfl | rfl | rfl <;> simp at hd
  | list xs =>
    obtain ⟨rfl, -⟩ := List.cons.inj h
    rcases hc with hc | hc | hc <;> cases hc
  | object fields =>
    obtain ⟨rfl, -⟩ := List.cons.inj h
    rcases hc with hc | hc | hc <;> cases hc

theorem leaf_ne_bracket (a : α) {c : Char} (hc : c = '[' ∨ c = '{') {x y : List Char} : p.leaf a ++ x ≠ c :: y := by
  intro h
  obtain ⟨d, cs, hleaf, hd⟩ := p.leaf_head a
  rw [hleaf] at h
  obtain ⟨rfl, -⟩ := List.cons.inj h
  rcases hc with rfl | rfl <;> simp at hd

theorem key_ne_brace (k : String) {x y : List Char} : p.key k ++ x ≠ '}' :: y := by
  intro h
  obtain ⟨d, cs, hkey, hd⟩ := p.key_head k
  rw [hkey] at h
  exact hd (List.cons.inj h).1

mutual

/-- A value is read off the front of a text. -/
theorem text_append_inj : ∀ {v w : Tree α} {x y : List Char}, Delim x → Delim y →
    text p v ++ x = text p w ++ y → v = w ∧ x = y
  | leaf a, leaf b, x, y, hx, hy, h => by
    obtain ⟨rfl, hxy⟩ := p.leaf_append_inj hx hy h
    exact ⟨rfl, hxy⟩
  | leaf a, list ys, x, y, _, _, h => absurd h (leaf_ne_bracket a (.inl rfl))
  | leaf a, object gs, x, y, _, _, h => absurd h (leaf_ne_bracket a (.inr rfl))
  | list xs, leaf b, x, y, _, _, h => absurd h.symm (leaf_ne_bracket b (.inl rfl))
  | list xs, list ys, x, y, _, _, h => by
    simp only [text, List.cons_append, List.append_assoc, List.nil_append, List.cons.injEq, true_and] at h
    obtain ⟨rfl, hxy⟩ := texts_append_inj h
    exact ⟨rfl, hxy⟩
  | list xs, object gs, x, y, _, _, h => by
    simp only [text, List.cons_append, List.cons.injEq] at h
    cases h.1
  | object fs, leaf b, x, y, _, _, h => absurd h.symm (leaf_ne_bracket b (.inr rfl))
  | object fs, list ys, x, y, _, _, h => by
    simp only [text, List.cons_append, List.cons.injEq] at h
    cases h.1
  | object fs, object gs, x, y, _, _, h => by
    simp only [text, List.cons_append, List.append_assoc, List.nil_append, List.cons.injEq, true_and] at h
    obtain ⟨rfl, hxy⟩ := fieldTexts_append_inj h
    exact ⟨rfl, hxy⟩

theorem texts_append_inj : ∀ {vs ws : List (Tree α)} {x y : List Char},
    commas (texts p vs) ++ ']' :: x = commas (texts p ws) ++ ']' :: y → vs = ws ∧ x = y
  | [], [], x, y, h => ⟨rfl, (List.cons.inj h).2⟩
  | [], w :: ws, x, y, h => by
    simp only [texts, commas, List.append_assoc, List.nil_append] at h
    exact absurd h.symm (text_ne_delim w (.inr (.inl rfl)))
  | v :: vs, [], x, y, h => by
    simp only [texts, commas, List.append_assoc, List.nil_append] at h
    exact absurd h (text_ne_delim v (.inr (.inl rfl)))
  | v :: vs, w :: ws, x, y, h => by
    simp only [texts, commas, List.append_assoc] at h
    obtain ⟨rfl, h'⟩ := text_append_inj (delim_flatMap (.inr (.inl rfl))) (delim_flatMap (.inr (.inl rfl))) h
    obtain ⟨rfl, hxy⟩ := restTexts_append_inj h'
    exact ⟨rfl, hxy⟩

theorem restTexts_append_inj : ∀ {vs ws : List (Tree α)} {x y : List Char},
    (texts p vs).flatMap (',' :: ·) ++ ']' :: x = (texts p ws).flatMap (',' :: ·) ++ ']' :: y → vs = ws ∧ x = y
  | [], [], x, y, h => ⟨rfl, (List.cons.inj h).2⟩
  | [], w :: ws, x, y, h => by simp [texts] at h
  | v :: vs, [], x, y, h => by simp [texts] at h
  | v :: vs, w :: ws, x, y, h => by
    simp only [texts, List.flatMap_cons, List.append_assoc, List.cons_append, List.cons.injEq, true_and] at h
    obtain ⟨rfl, h'⟩ := text_append_inj (delim_flatMap (.inr (.inl rfl))) (delim_flatMap (.inr (.inl rfl))) h
    obtain ⟨rfl, hxy⟩ := restTexts_append_inj h'
    exact ⟨rfl, hxy⟩

theorem fieldTexts_append_inj : ∀ {fs gs : List (String × Tree α)} {x y : List Char},
    commas (fieldTexts p fs) ++ '}' :: x = commas (fieldTexts p gs) ++ '}' :: y → fs = gs ∧ x = y
  | [], [], x, y, h => ⟨rfl, (List.cons.inj h).2⟩
  | [], (l, w) :: gs, x, y, h => by
    simp only [fieldTexts, commas, List.append_assoc, List.nil_append] at h
    exact absurd h.symm (key_ne_brace l)
  | (k, v) :: fs, [], x, y, h => by
    simp only [fieldTexts, commas, List.append_assoc, List.nil_append] at h
    exact absurd h (key_ne_brace k)
  | (k, v) :: fs, (l, w) :: gs, x, y, h => by
    simp only [fieldTexts, commas, List.append_assoc, List.cons_append] at h
    obtain ⟨rfl, h1⟩ := p.key_append_inj h
    obtain ⟨rfl, h2⟩ := text_append_inj (delim_flatMap (.inr (.inr rfl))) (delim_flatMap (.inr (.inr rfl)))
      (List.cons.inj h1).2
    obtain ⟨rfl, hxy⟩ := restFieldTexts_append_inj h2
    exact ⟨rfl, hxy⟩

theorem restFieldTexts_append_inj : ∀ {fs gs : List (String × Tree α)} {x y : List Char},
    (fieldTexts p fs).flatMap (',' :: ·) ++ '}' :: x = (fieldTexts p gs).flatMap (',' :: ·) ++ '}' :: y →
    fs = gs ∧ x = y
  | [], [], x, y, h => ⟨rfl, (List.cons.inj h).2⟩
  | [], (l, w) :: gs, x, y, h => by simp [fieldTexts] at h
  | (k, v) :: fs, [], x, y, h => by simp [fieldTexts] at h
  | (k, v) :: fs, (l, w) :: gs, x, y, h => by
    simp only [fieldTexts, List.flatMap_cons, List.append_assoc, List.cons_append, List.cons.injEq, true_and] at h
    obtain ⟨rfl, h1⟩ := p.key_append_inj h
    obtain ⟨rfl, h2⟩ := text_append_inj (delim_flatMap (.inr (.inr rfl))) (delim_flatMap (.inr (.inr rfl)))
      (List.cons.inj h1).2
    obtain ⟨rfl, hxy⟩ := restFieldTexts_append_inj h2
    exact ⟨rfl, hxy⟩

end

theorem text_injective {v w : Tree α} (h : text p v = text p w) : v = w :=
  (text_append_inj (x := []) (y := []) (fun c hc => nomatch hc) (fun c hc => nomatch hc) (by rw [h])).1

end

/-- A text of one sort of characters ends where the next of another sort comes. -/
theorem append_delim_inj {inside : Char → Bool} (hinside : ∀ c, c = ',' ∨ c = ']' ∨ c = '}' → inside c = false)
    {s t x y : List Char} (hs : ∀ c ∈ s, inside c = true) (ht : ∀ c ∈ t, inside c = true) (hx : Delim x)
    (hy : Delim y) (h : s ++ x = t ++ y) : s = t ∧ x = y := by
  have hread : ∀ {s x : List Char}, (∀ c ∈ s, inside c = true) → Delim x → (s ++ x).takeWhile inside = s := by
    intro s x hs hx
    rw [List.takeWhile_append_of_pos hs]
    cases x with
    | nil => exact List.append_nil s
    | cons c x => rw [List.takeWhile_cons_of_neg (by simp [hinside c (hx c rfl)]), List.append_nil]
  have hst : s = t := by rw [← hread hs hx, h, hread ht hy]
  subst hst
  exact ⟨rfl, List.append_cancel_left h⟩

/-- A text between quotes, each of its characters escaped. -/
def quoted (escape : Char → List Char) (s : String) : List Char := '"' :: s.toList.flatMap escape ++ ['"']

/-- Where no escape begins with a quote and each can be read off the front of a text. -/
theorem quoted_append_inj {escape : Char → List Char}
    (hinj : ∀ {c d x y}, escape c ++ x = escape d ++ y → c = d ∧ x = y)
    (hquote : ∀ {c x y}, escape c ++ x ≠ '"' :: y) {s t : String} {x y : List Char}
    (h : quoted escape s ++ x = quoted escape t ++ y) : s = t ∧ x = y := by
  have hflat : ∀ {cs ds : List Char} {x y : List Char},
      cs.flatMap escape ++ '"' :: x = ds.flatMap escape ++ '"' :: y → cs = ds ∧ x = y := by
    intro cs
    induction cs with
    | nil =>
      rintro (_ | ⟨d, ds⟩) x y h
      · exact ⟨rfl, (List.cons.inj h).2⟩
      · rw [List.flatMap_cons, List.append_assoc] at h
        exact absurd h.symm hquote
    | cons c cs ih =>
      rintro (_ | ⟨d, ds⟩) x y h
      · rw [List.flatMap_cons, List.append_assoc] at h
        exact absurd h hquote
      · rw [List.flatMap_cons, List.flatMap_cons, List.append_assoc, List.append_assoc] at h
        obtain ⟨rfl, hrest⟩ := hinj h
        obtain ⟨rfl, hxy⟩ := ih hrest
        exact ⟨rfl, hxy⟩
  simp only [quoted, List.cons_append, List.append_assoc, List.cons.injEq, true_and, List.nil_append] at h
  obtain ⟨hst, hxy⟩ := hflat h
  exact ⟨String.toList_inj.mp hst, hxy⟩

/-! ## Fields in key order -/

section
variable {β γ : Type}

def sortFields (fields : List (String × β)) : List (String × β) :=
  fields.insertionSort fun f g => f.1 ≤ g.1

theorem perm_sortFields (fields : List (String × β)) : (sortFields fields).Perm fields :=
  List.perm_insertionSort _ fields

/-- Where every key is there once, the order the fields come in does not matter. -/
theorem sortFields_eq_iff {fs gs : List (String × β)} (hnodup : (fs.map Prod.fst).Nodup) :
    sortFields fs = sortFields gs ↔ fs.Perm gs := by
  constructor
  · intro h
    exact (perm_sortFields fs).symm.trans (h ▸ perm_sortFields gs)
  · intro h
    let le (f g : String × β) : Prop := f.1 ≤ g.1
    have htotal : Std.Total le := ⟨fun f g => le_total f.1 g.1⟩
    have htrans : IsTrans (String × β) le := ⟨fun f g e => le_trans⟩
    have hsorted (l : List (String × β)) : (sortFields l).Pairwise le := List.pairwise_insertionSort le l
    refine List.Perm.eq_of_pairwise ?_ (hsorted fs) (hsorted gs)
      ((perm_sortFields fs).trans (h.trans (perm_sortFields gs).symm))
    intro f g hf hg hfg hgf
    have hf := (perm_sortFields fs).mem_iff.mp hf
    have hg := h.mem_iff.mpr ((perm_sortFields gs).mem_iff.mp hg)
    exact List.inj_on_of_nodup_map hnodup hf hg (le_antisymm hfg hgf)

theorem map_sortFields (f : β → γ) (fields : List (String × β)) :
    (sortFields fields).map (fun e => (e.1, f e.2)) = sortFields (fields.map fun e => (e.1, f e.2)) :=
  List.map_insertionSort _ _ _ _ fun _ _ _ _ => Iff.rfl

end

/-! ## Values in key order -/

mutual

/-- The fields of every object in key order. -/
def byKey : Tree α → Tree α
  | leaf a => leaf a
  | list xs => list (byKeyList xs)
  | object fields => object (sortFields (byKeyFields fields))

def byKeyList : List (Tree α) → List (Tree α)
  | [] => []
  | x :: xs => byKey x :: byKeyList xs

def byKeyFields : List (String × Tree α) → List (String × Tree α)
  | [] => []
  | (k, v) :: fields => (k, byKey v) :: byKeyFields fields

end

/-- Equal up to the order of keys. -/
def Same (v w : Tree α) : Prop := v.byKey = w.byKey

mutual

/-- Every object has each key once. -/
def Distinct : Tree α → Prop
  | leaf _ => True
  | list xs => DistinctList xs
  | object fields => (fields.map Prod.fst).Nodup ∧ DistinctFields fields

def DistinctList : List (Tree α) → Prop
  | [] => True
  | x :: xs => Distinct x ∧ DistinctList xs

def DistinctFields : List (String × Tree α) → Prop
  | [] => True
  | (_, v) :: fields => Distinct v ∧ DistinctFields fields

end

theorem byKeyList_eq_map (xs : List (Tree α)) : byKeyList xs = xs.map byKey := by
  induction xs with
  | nil => rfl
  | cons x xs ih => rw [byKeyList, ih, List.map_cons]

theorem byKeyFields_eq_map (fields : List (String × Tree α)) :
    byKeyFields fields = fields.map fun e => (e.1, e.2.byKey) := by
  induction fields with
  | nil => rfl
  | cons e fields ih => rw [byKeyFields, ih, List.map_cons]

theorem distinctList_iff {xs : List (Tree α)} : DistinctList xs ↔ ∀ x ∈ xs, Distinct x := by
  induction xs with
  | nil => simp [DistinctList]
  | cons x xs ih => rw [DistinctList, ih, List.forall_mem_cons]

theorem distinctFields_iff {fields : List (String × Tree α)} :
    DistinctFields fields ↔ ∀ e ∈ fields, Distinct e.2 := by
  induction fields with
  | nil => simp [DistinctFields]
  | cons e fields ih => rw [DistinctFields, ih, List.forall_mem_cons]

theorem same_object_of_perm {fs gs : List (String × Tree α)} (hnodup : (fs.map Prod.fst).Nodup) (h : fs.Perm gs) :
    Same (object fs) (object gs) := by
  have hkeys : ((fs.map fun e => (e.1, e.2.byKey)).map Prod.fst).Nodup := by
    rw [List.map_map]
    exact hnodup
  unfold Same
  rw [byKey, byKey, byKeyFields_eq_map, byKeyFields_eq_map, (sortFields_eq_iff hkeys).mpr (h.map _)]

/-- Fields that differ in one place, in key order. -/
theorem sortFields_update_iff {β : Type} {fs gs : List (String × β)} {k : String} {b c : β}
    (hnodup : ((fs ++ (k, b) :: gs).map Prod.fst).Nodup) :
    sortFields (fs ++ (k, b) :: gs) = sortFields (fs ++ (k, c) :: gs) ↔ b = c := by
  constructor
  · intro h
    have hperm := (sortFields_eq_iff hnodup).mp h
    have hmem : (k, b) ∈ (k, c) :: gs := by
      have hcons := (List.perm_append_left_iff fs).mp hperm
      exact hcons.mem_iff.mp List.mem_cons_self
    rcases List.mem_cons.mp hmem with heq | hgs
    · exact congrArg Prod.snd heq
    · rw [List.map_append, List.map_cons] at hnodup
      have hfresh := (List.nodup_cons.mp (List.nodup_append.mp hnodup).2.1).1
      exact absurd (List.mem_map.mpr ⟨_, hgs, rfl⟩) hfresh
  · rintro rfl
    rfl

end Tree

end SimpleL1.Lib
