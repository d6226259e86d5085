import SimpleL1.Js.Json
import Mathlib.Data.List.Sort

/-!
# JSON text and canonical JSON text

`text` is `JSON.stringify`. `canon` sorts the fields of every object by key, in
the UTF-16 order of `Array.prototype.sort`; `text ∘ canon` is the canonical
text. The main result is `text_append_inj`: the text of a value of finite numbers
is uniquely readable in front of a delimiter, so equal canonical texts come from
values that are equal up to the order of object keys.
-/

namespace SimpleL1.Js

/-! ## Strings -/

def hexDigit (n : Nat) : Char := Nat.digitChar n

/-- One character of `JSON.stringify` of a string. -/
def escape (c : Char) : List Char :=
  if c = '"' then ['\\', '"']
  else if c = '\\' then ['\\', '\\']
  else if c.toNat = 8 then ['\\', 'b']
  else if c.toNat = 9 then ['\\', 't']
  else if c.toNat = 10 then ['\\', 'n']
  else if c.toNat = 12 then ['\\', 'f']
  else if c.toNat = 13 then ['\\', 'r']
  else if c.toNat < 32 then ['\\', 'u', '0', '0', hexDigit (c.toNat / 16), hexDigit (c.toNat % 16)]
  else [c]

def quote (s : String) : List Char := '"' :: s.toList.flatMap escape ++ ['"']

theorem char_eq_of_toNat {c : Char} {n : Nat} (h : c.toNat = n) : c = Char.ofNat n := by
  rw [← h, Char.ofNat_toNat]

theorem hexDigit_inj : ∀ a < 16, ∀ b < 16, hexDigit a = hexDigit b → a = b := by decide

/-- What an escaped character looks like, told from its first two characters. -/
theorem escape_cases (c : Char) :
    (escape c = [c] ∧ c ≠ '"' ∧ c ≠ '\\') ∨
    (∃ d, escape c = ['\\', d] ∧ d ≠ 'u' ∧
      ((c = '"' ∧ d = '"') ∨ (c = '\\' ∧ d = '\\') ∨ (c.toNat = 8 ∧ d = 'b') ∨
        (c.toNat = 9 ∧ d = 't') ∨ (c.toNat = 10 ∧ d = 'n') ∨ (c.toNat = 12 ∧ d = 'f') ∨
        (c.toNat = 13 ∧ d = 'r'))) ∨
    (c.toNat < 32 ∧
      escape c = ['\\', 'u', '0', '0', hexDigit (c.toNat / 16), hexDigit (c.toNat % 16)]) := by
  unfold escape
  split
  · exact .inr (.inl ⟨'"', rfl, by decide, by simp_all⟩)
  split
  · exact .inr (.inl ⟨'\\', rfl, by decide, by simp_all⟩)
  split
  · exact .inr (.inl ⟨'b', rfl, by decide, by simp_all⟩)
  split
  · exact .inr (.inl ⟨'t', rfl, by decide, by simp_all⟩)
  split
  · exact .inr (.inl ⟨'n', rfl, by decide, by simp_all⟩)
  split
  · exact .inr (.inl ⟨'f', rfl, by decide, by simp_all⟩)
  split
  · exact .inr (.inl ⟨'r', rfl, by decide, by simp_all⟩)
  split
  · exact .inr (.inr ⟨by assumption, rfl⟩)
  · exact .inl ⟨rfl, by assumption, by assumption⟩

theorem escape_append_inj {c d : Char} {x y : List Char} (h : escape c ++ x = escape d ++ y) :
    c = d ∧ x = y := by
  rcases escape_cases c with ⟨hc, hc1, hc2⟩ | ⟨c', hc, hcu, hc'⟩ | ⟨hlt, hc⟩ <;>
  rcases escape_cases d with ⟨hd, hd1, hd2⟩ | ⟨d', hd, hdu, hd'⟩ | ⟨hlt', hd⟩ <;>
  rw [hc, hd] at h <;> simp only [List.cons_append, List.nil_append, List.cons.injEq] at h
  · exact h
  · exact absurd h.1 hc2
  · exact absurd h.1 hc2
  · exact absurd h.1.symm hd2
  · obtain ⟨-, rfl, rfl⟩ := h
    refine ⟨?_, rfl⟩
    rcases hc' with ⟨h1, h2⟩ | ⟨h1, h2⟩ | ⟨h1, h2⟩ | ⟨h1, h2⟩ | ⟨h1, h2⟩ | ⟨h1, h2⟩ | ⟨h1, h2⟩ <;>
      subst h2 <;> simp at hd' <;> first
        | exact h1.trans hd'.symm
        | exact (char_eq_of_toNat h1).trans (char_eq_of_toNat hd').symm
  · exact absurd h.2.1 hcu
  · exact absurd h.1.symm hd2
  · exact absurd h.2.1.symm hdu
  · obtain ⟨-, -, -, -, h1, h2, hxy⟩ := h
    have e1 := hexDigit_inj _ (by omega) _ (by omega) h1
    have e2 := hexDigit_inj _ (by omega) _ (by omega) h2
    refine ⟨?_, hxy⟩
    rw [char_eq_of_toNat (c := c) rfl, char_eq_of_toNat (c := d) rfl]
    congr 1
    omega

theorem escape_head_ne_quote {c : Char} {x y : List Char} : escape c ++ x ≠ '"' :: y := by
  intro h
  rcases escape_cases c with ⟨hc, hc1, -⟩ | ⟨c', hc, -⟩ | ⟨-, hc⟩ <;> rw [hc] at h <;>
    simp only [List.cons_append, List.nil_append, List.cons.injEq] at h
  · exact hc1 h.1
  · exact absurd h.1 (by decide)
  · exact absurd h.1 (by decide)

theorem escapes_append_inj : ∀ {cs ds x y : List Char},
    cs.flatMap escape ++ '"' :: x = ds.flatMap escape ++ '"' :: y → cs = ds ∧ x = y
  | [], [], _, _, h => ⟨rfl, by simpa using h⟩
  | [], d :: ds, x, y, h => by
    rw [List.flatMap_cons, List.append_assoc] at h
    exact absurd h.symm escape_head_ne_quote
  | c :: cs, [], x, y, h => by
    rw [List.flatMap_cons, List.append_assoc] at h
    exact absurd h escape_head_ne_quote
  | c :: cs, d :: ds, x, y, h => by
    rw [List.flatMap_cons, List.flatMap_cons, List.append_assoc, List.append_assoc] at h
    obtain ⟨rfl, h'⟩ := escape_append_inj h
    obtain ⟨rfl, hxy⟩ := escapes_append_inj h'
    exact ⟨rfl, hxy⟩

theorem quote_append_inj {s t : String} {x y : List Char} (h : quote s ++ x = quote t ++ y) :
    s = t ∧ x = y := by
  simp only [quote, List.cons_append, List.append_assoc, List.cons.injEq, true_and,
    List.nil_append] at h
  obtain ⟨hs, hxy⟩ := escapes_append_inj h
  exact ⟨String.toList_inj.mp hs, hxy⟩

/-! ## Values -/

/-- Comma-separated texts. -/
def joinComma : List (List Char) → List Char
  | [] => []
  | t :: ts => t ++ ts.flatMap (',' :: ·)

namespace Json

def numText (n : Number) : List Char := if n.isFinite then n.chars else ['n', 'u', 'l', 'l']

mutual

/-- `JSON.stringify(v)`. -/
def text : Json → List Char
  | null => ['n', 'u', 'l', 'l']
  | bool true => ['t', 'r', 'u', 'e']
  | bool false => ['f', 'a', 'l', 's', 'e']
  | num n => numText n
  | str s => quote s
  | arr xs => '[' :: joinComma (texts xs) ++ [']']
  | obj fs => '{' :: joinComma (fieldTexts fs) ++ ['}']

def texts : List Json → List (List Char)
  | [] => []
  | x :: xs => text x :: texts xs

def fieldTexts : List (String × Json) → List (List Char)
  | [] => []
  | (k, v) :: fs => (quote k ++ ':' :: text v) :: fieldTexts fs

end

theorem fieldTexts_eq_map (fs : List (String × Json)) :
    fieldTexts fs = fs.map fun p => quote p.1 ++ ':' :: p.2.text := by
  induction fs with
  | nil => rfl
  | cons p fs ih => obtain ⟨k, v⟩ := p; simp [fieldTexts, ih]

mutual

/-- Every number in the value is finite, as `JSON.stringify` needs to keep it. -/
def finite : Json → Bool
  | num n => n.isFinite
  | arr xs => finiteList xs
  | obj fs => finiteFields fs
  | _ => true

def finiteList : List Json → Bool
  | [] => true
  | x :: xs => finite x && finiteList xs

def finiteFields : List (String × Json) → Bool
  | [] => true
  | (_, v) :: fs => finite v && finiteFields fs

end

mutual

/-- The value `JSON.stringify` writes: a number that is not finite becomes `null`. -/
def written : Json → Json
  | num n => if n.isFinite then num n else null
  | arr xs => arr (writtenList xs)
  | obj fs => obj (writtenFields fs)
  | v => v

def writtenList : List Json → List Json
  | [] => []
  | x :: xs => written x :: writtenList xs

def writtenFields : List (String × Json) → List (String × Json)
  | [] => []
  | (k, v) :: fs => (k, written v) :: writtenFields fs

end

mutual

theorem finite_written : ∀ v : Json, v.written.finite = true
  | .null | .bool _ | .str _ => rfl
  | .num n => by unfold written; split <;> simp_all [finite]
  | .arr xs => finite_writtenList xs
  | .obj fs => finite_writtenFields fs

theorem finite_writtenList : ∀ xs : List Json, finiteList (writtenList xs) = true
  | [] => rfl
  | x :: xs => by simp [writtenList, finiteList, finite_written x, finite_writtenList xs]

theorem finite_writtenFields : ∀ fs : List (String × Json), finiteFields (writtenFields fs) = true
  | [] => rfl
  | (k, v) :: fs => by
    simp [writtenFields, finiteFields, finite_written v, finite_writtenFields fs]

end

mutual

theorem text_written : ∀ v : Json, v.written.text = v.text
  | .null | .str _ => rfl
  | .bool b => rfl
  | .num n => by unfold written; split <;> simp_all [text, numText]
  | .arr xs => by simp only [written, text, texts_written xs]
  | .obj fs => by simp only [written, text, fieldTexts_written fs]

theorem texts_written : ∀ xs : List Json, texts (writtenList xs) = texts xs
  | [] => rfl
  | x :: xs => by simp only [writtenList, texts, text_written x, texts_written xs]

theorem fieldTexts_written : ∀ fs : List (String × Json),
    fieldTexts (writtenFields fs) = fieldTexts fs
  | [] => rfl
  | (k, v) :: fs => by simp only [writtenFields, fieldTexts, text_written v, fieldTexts_written fs]

end

mutual

theorem written_of_finite : ∀ {v : Json}, v.finite = true → v.written = v
  | .null, _ | .bool _, _ | .str _, _ => rfl
  | .num n, h => by simp only [finite] at h; simp [written, h]
  | .arr xs, h => congrArg arr (writtenList_of_finite h)
  | .obj fs, h => congrArg obj (writtenFields_of_finite h)

theorem writtenList_of_finite : ∀ {xs : List Json}, finiteList xs = true → writtenList xs = xs
  | [], _ => rfl
  | x :: xs, h => by
    simp only [finiteList, Bool.and_eq_true] at h
    rw [writtenList, written_of_finite h.1, writtenList_of_finite h.2]

theorem writtenFields_of_finite : ∀ {fs : List (String × Json)}, finiteFields fs = true →
    writtenFields fs = fs
  | [], _ => rfl
  | (k, v) :: fs, h => by
    simp only [finiteFields, Bool.and_eq_true] at h
    rw [writtenFields, written_of_finite h.1, writtenFields_of_finite h.2]

end

/-- What may follow a value inside a text. -/
def Delim (x : List Char) : Prop := ∀ c ∈ x.head?, c = ',' ∨ c = ']' ∨ c = '}'

theorem delim_nil : Delim [] := by intro c hc; cases hc

theorem delim_cons {c : Char} {x : List Char} (h : c = ',' ∨ c = ']' ∨ c = '}') :
    Delim (c :: x) := by
  intro d hd; cases hd; exact h

theorem Delim.not_numChar {x : List Char} (h : Delim x) :
    ∀ c ∈ x.head?, Number.isNumChar c = false := by
  intro c hc
  rcases h c hc with rfl | rfl | rfl <;> rfl

theorem takeWhile_append_delim {ds x : List Char} (h : ∀ c ∈ ds, Number.isNumChar c = true)
    (hx : Delim x) : (ds ++ x).takeWhile Number.isNumChar = ds := by
  rw [List.takeWhile_append_of_pos h]
  cases x with
  | nil => simp
  | cons c x => simp [hx.not_numChar c rfl]

theorem numText_append_inj {m n : Number} {x y : List Char} (hm : m.isFinite = true)
    (hn : n.isFinite = true) (hx : Delim x) (hy : Delim y)
    (h : numText m ++ x = numText n ++ y) : m = n ∧ x = y := by
  simp only [numText, hm, hn, ↓reduceIte] at h
  have hc : m.chars = n.chars := by
    rw [← takeWhile_append_delim (Number.chars_numChar hm) hx, h,
      takeWhile_append_delim (Number.chars_numChar hn) hy]
  rw [hc] at h
  exact ⟨Number.chars_injective hm hn hc, List.append_cancel_left h⟩

/-- The constructor of a value, told from the first character of its text. -/
inductive Head : Json → Char → Prop where
  | null : Head null 'n'
  | true : Head (bool true) 't'
  | false : Head (bool false) 'f'
  | num {n : Number} {c : Char} : Number.isNumChar c = .true → Head (num n) c
  | str {s : String} : Head (str s) '"'
  | arr {xs : List Json} : Head (arr xs) '['
  | obj {fs : List (String × Json)} : Head (obj fs) '{'

theorem text_head {v : Json} (hv : v.finite = true) : ∃ c t, v.text = c :: t ∧ Head v c := by
  cases v with
  | null => exact ⟨_, _, rfl, .null⟩
  | bool b => cases b <;> exact ⟨_, _, rfl, by constructor⟩
  | num n =>
    have hn : n.isFinite = true := by simpa [finite] using hv
    cases ht : n.chars with
    | nil => exact absurd ht (Number.chars_ne_nil hn)
    | cons c t =>
      exact ⟨c, t, by simp [text, numText, hn, ht],
        .num (Number.chars_numChar hn c (by simp [ht]))⟩
  | str s => exact ⟨_, _, rfl, .str⟩
  | arr xs => exact ⟨_, _, rfl, .arr⟩
  | obj fs => exact ⟨_, _, rfl, .obj⟩

theorem Head.ne_delim {v : Json} {c : Char} (h : Head v c) : c ≠ ',' ∧ c ≠ ']' ∧ c ≠ '}' := by
  cases h with
  | num hn => refine ⟨?_, ?_, ?_⟩ <;> (rintro rfl; cases hn)
  | _ => decide

theorem text_head_ne {v : Json} (hv : v.finite = true) {c : Char} (hc : c = ',' ∨ c = ']' ∨ c = '}')
    {x y : List Char} : v.text ++ x ≠ c :: y := by
  obtain ⟨d, t, ht, hd⟩ := text_head hv
  rw [ht]
  intro h
  have : d = c := by simpa using (List.cons.inj h).1
  subst this
  have := hd.ne_delim
  rcases hc with h | h | h <;> simp_all

theorem text_heads_eq {v w : Json} (hv : v.finite = true) (hw : w.finite = true)
    {x y : List Char} (h : v.text ++ x = w.text ++ y) : ∃ c, Head v c ∧ Head w c := by
  obtain ⟨c, t, ht, hc⟩ := text_head hv
  obtain ⟨d, u, hu, hd⟩ := text_head hw
  rw [ht, hu] at h
  have : c = d := (List.cons.inj h).1
  exact ⟨c, hc, this ▸ hd⟩

/-- The texts after the first, closed by `c`. -/
theorem flatMap_delim {ts : List (List Char)} {c : Char} {x : List Char}
    (hc : c = ',' ∨ c = ']' ∨ c = '}') : Delim (ts.flatMap (',' :: ·) ++ c :: x) := by
  cases ts with
  | nil => exact delim_cons hc
  | cons t ts => exact delim_cons (.inl rfl)

mutual

theorem text_append_inj : ∀ {v w : Json} {x y : List Char}, v.finite = true → w.finite = true →
    Delim x → Delim y → v.text ++ x = w.text ++ y → v = w ∧ x = y
  | .null, w, x, y, hv, hw, hx, hy, h => by
    obtain ⟨c, h1, h2⟩ := text_heads_eq hv hw h
    cases h1
    cases h2 with
    | null => exact ⟨rfl, by simpa [text] using h⟩
    | num hn => cases hn
  | .bool true, w, x, y, hv, hw, hx, hy, h => by
    obtain ⟨c, h1, h2⟩ := text_heads_eq hv hw h
    cases h1
    cases h2 with
    | true => exact ⟨rfl, by simpa [text] using h⟩
    | num hn => cases hn
  | .bool false, w, x, y, hv, hw, hx, hy, h => by
    obtain ⟨c, h1, h2⟩ := text_heads_eq hv hw h
    cases h1
    cases h2 with
    | false => exact ⟨rfl, by simpa [text] using h⟩
    | num hn => cases hn
  | .num m, w, x, y, hv, hw, hx, hy, h => by
    obtain ⟨c, h1, h2⟩ := text_heads_eq hv hw h
    cases h1 with
    | num hn =>
      cases h2 with
      | num _ =>
        rename_i n _
        have hm : m.isFinite = true := by simpa [finite] using hv
        have hn' : n.isFinite = true := by simpa [finite] using hw
        obtain ⟨rfl, hxy⟩ := numText_append_inj hm hn' hx hy (by simpa only [text] using h)
        exact ⟨rfl, hxy⟩
      | _ => cases hn
  | .str s, w, x, y, hv, hw, hx, hy, h => by
    obtain ⟨c, h1, h2⟩ := text_heads_eq hv hw h
    cases h1
    cases h2 with
    | str =>
      obtain ⟨rfl, hxy⟩ := quote_append_inj (by simpa only [text] using h)
      exact ⟨rfl, hxy⟩
    | num hn => cases hn
  | .arr xs, w, x, y, hv, hw, hx, hy, h => by
    obtain ⟨c, h1, h2⟩ := text_heads_eq hv hw h
    cases h1
    cases h2 with
    | arr =>
      simp only [text, List.cons_append, List.append_assoc, List.nil_append, List.cons.injEq,
        true_and] at h
      obtain ⟨rfl, hxy⟩ := texts_append_inj (by simpa [finite] using hv)
        (by simpa [finite] using hw) h
      exact ⟨rfl, hxy⟩
    | num hn => cases hn
  | .obj fs, w, x, y, hv, hw, hx, hy, h => by
    obtain ⟨c, h1, h2⟩ := text_heads_eq hv hw h
    cases h1
    cases h2 with
    | obj =>
      simp only [text, List.cons_append, List.append_assoc, List.nil_append, List.cons.injEq,
        true_and] at h
      obtain ⟨rfl, hxy⟩ := fieldTexts_append_inj (by simpa [finite] using hv)
        (by simpa [finite] using hw) h
      exact ⟨rfl, hxy⟩
    | num hn => cases hn

theorem texts_append_inj : ∀ {vs ws : List Json} {x y : List Char}, finiteList vs = true →
    finiteList ws = true → joinComma (texts vs) ++ ']' :: x = joinComma (texts ws) ++ ']' :: y →
    vs = ws ∧ x = y
  | [], [], x, y, _, _, h => ⟨rfl, by simpa [texts, joinComma] using h⟩
  | [], w :: ws, x, y, _, hw, h => by
    simp only [texts, joinComma, finiteList, Bool.and_eq_true, List.append_assoc,
      List.nil_append] at h hw
    exact absurd h.symm (text_head_ne hw.1 (.inr (.inl rfl)))
  | v :: vs, [], x, y, hv, _, h => by
    simp only [texts, joinComma, finiteList, Bool.and_eq_true, List.append_assoc,
      List.nil_append] at h hv
    exact absurd h (text_head_ne hv.1 (.inr (.inl rfl)))
  | v :: vs, w :: ws, x, y, hv, hw, h => by
    simp only [texts, joinComma, finiteList, Bool.and_eq_true, List.append_assoc] at h hv hw
    obtain ⟨rfl, h'⟩ := text_append_inj hv.1 hw.1 (flatMap_delim (.inr (.inl rfl)))
      (flatMap_delim (.inr (.inl rfl))) h
    obtain ⟨rfl, hxy⟩ := restTexts_append_inj hv.2 hw.2 h'
    exact ⟨rfl, hxy⟩

theorem restTexts_append_inj : ∀ {vs ws : List Json} {x y : List Char}, finiteList vs = true →
    finiteList ws = true →
    (texts vs).flatMap (',' :: ·) ++ ']' :: x = (texts ws).flatMap (',' :: ·) ++ ']' :: y →
    vs = ws ∧ x = y
  | [], [], x, y, _, _, h => ⟨rfl, by simpa [texts] using h⟩
  | [], w :: ws, x, y, _, _, h => by simp [texts] at h
  | v :: vs, [], x, y, _, _, h => by simp [texts] at h
  | v :: vs, w :: ws, x, y, hv, hw, h => by
    simp only [texts, List.flatMap_cons, finiteList, Bool.and_eq_true, List.append_assoc,
      List.cons_append, List.cons.injEq, true_and] at h hv hw
    obtain ⟨rfl, h'⟩ := text_append_inj hv.1 hw.1 (flatMap_delim (.inr (.inl rfl)))
      (flatMap_delim (.inr (.inl rfl))) h
    obtain ⟨rfl, hxy⟩ := restTexts_append_inj hv.2 hw.2 h'
    exact ⟨rfl, hxy⟩

theorem fieldTexts_append_inj : ∀ {fs gs : List (String × Json)} {x y : List Char},
    finiteFields fs = true → finiteFields gs = true →
    joinComma (fieldTexts fs) ++ '}' :: x = joinComma (fieldTexts gs) ++ '}' :: y → fs = gs ∧ x = y
  | [], [], x, y, _, _, h => ⟨rfl, by simpa [fieldTexts, joinComma] using h⟩
  | [], (k, w) :: gs, x, y, _, hw, h => by simp [fieldTexts, joinComma, quote] at h
  | (k, v) :: fs, [], x, y, hv, _, h => by simp [fieldTexts, joinComma, quote] at h
  | (k, v) :: fs, (l, w) :: gs, x, y, hv, hw, h => by
    simp only [fieldTexts, joinComma, finiteFields, Bool.and_eq_true, List.append_assoc,
      List.cons_append] at h hv hw
    obtain ⟨rfl, h1⟩ := quote_append_inj h
    obtain ⟨rfl, h2⟩ := text_append_inj hv.1 hw.1 (flatMap_delim (.inr (.inr rfl)))
      (flatMap_delim (.inr (.inr rfl))) (List.cons.inj h1).2
    obtain ⟨rfl, hxy⟩ := restFieldTexts_append_inj hv.2 hw.2 h2
    exact ⟨rfl, hxy⟩

theorem restFieldTexts_append_inj : ∀ {fs gs : List (String × Json)} {x y : List Char},
    finiteFields fs = true → finiteFields gs = true →
    (fieldTexts fs).flatMap (',' :: ·) ++ '}' :: x = (fieldTexts gs).flatMap (',' :: ·) ++ '}' :: y →
    fs = gs ∧ x = y
  | [], [], x, y, _, _, h => ⟨rfl, by simpa [fieldTexts] using h⟩
  | [], (k, w) :: gs, x, y, _, _, h => by simp [fieldTexts] at h
  | (k, v) :: fs, [], x, y, _, _, h => by simp [fieldTexts] at h
  | (k, v) :: fs, (l, w) :: gs, x, y, hv, hw, h => by
    simp only [fieldTexts, List.flatMap_cons, finiteFields, Bool.and_eq_true, List.append_assoc,
      List.cons_append, List.cons.injEq, true_and] at h hv hw
    obtain ⟨rfl, h1⟩ := quote_append_inj h
    obtain ⟨rfl, h2⟩ := text_append_inj hv.1 hw.1 (flatMap_delim (.inr (.inr rfl)))
      (flatMap_delim (.inr (.inr rfl))) (List.cons.inj h1).2
    obtain ⟨rfl, hxy⟩ := restFieldTexts_append_inj hv.2 hw.2 h2
    exact ⟨rfl, hxy⟩

end

/-- `JSON.stringify` is injective on the values of finite numbers. -/
theorem text_injective {v w : Json} (hv : v.finite = true) (hw : w.finite = true)
    (h : v.text = w.text) : v = w :=
  (text_append_inj (x := []) (y := []) hv hw delim_nil delim_nil (by simpa using h)).1

/-- A text is one value, up to numbers that are not finite. -/
theorem written_eq_of_text {v w : Json} (h : v.text = w.text) : v.written = w.written :=
  text_injective (finite_written v) (finite_written w) (by rw [text_written, text_written, h])

end Json

end SimpleL1.Js
