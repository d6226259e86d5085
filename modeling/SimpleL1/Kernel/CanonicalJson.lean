import SimpleL1.Js.Text
import SimpleL1.Kernel.SettlementPacket
import SimpleL1.Lib.Tree
import Std.Data.String.ToInt

/-!
# What a canonical text stands for

`CanonicalJsonEncoder` takes the arrays that `json_decode` makes of lists and objects, and tells one
from the other by their keys. An object whose keys are those of a list is written as a list, and only
if they come in order.
-/

namespace SimpleL1.Kernel.CanonicalJson

open SimpleL1.Kernel.Settlement SimpleL1.Lib SimpleL1.Lib.Tree

/-! ## Payloads -/

inductive Scalar where
  | null
  | bool (b : Bool)
  | int (n : Int64)
  | str (s : String)
  deriving DecidableEq

/-- A JSON value of objects, lists, strings, booleans, null and the integers of PHP. -/
abbrev Value := Lib.Tree Scalar

def Scalar.php : Scalar → Php
  | .null => .null
  | .bool b => .bool b
  | .int n => .int n.toInt
  | .str s => .str s

mutual

/-- `json_decode($text, true)` -/
def decode : Value → Php
  | .leaf a => a.php
  | .list xs => .array (decodeList 0 xs)
  | .object fields => .array (decodeFields fields)

def decodeList (i : Nat) : List Value → Entries
  | [] => []
  | x :: xs => (toString i, decode x) :: decodeList (i + 1) xs

def decodeFields : List (String × Value) → Entries
  | [] => []
  | (k, v) :: fields => (k, decode v) :: decodeFields fields

end

/-! ## Texts -/

/-- The flags leave slashes and letters as they are; the line terminators are escaped. -/
def escape (c : Char) : List Char :=
  if c = '\u2028' then ['\\', 'u', '2', '0', '2', '8']
  else if c = '\u2029' then ['\\', 'u', '2', '0', '2', '9']
  else Js.escape c

/-- `json_encode($s, JSON_UNESCAPED_UNICODE | JSON_UNESCAPED_SLASHES | JSON_THROW_ON_ERROR)` -/
def jsonText (s : String) : String := String.ofList (quoted escape s)

def Scalar.text : Scalar → List Char
  | .null => ['n', 'u', 'l', 'l']
  | .bool true => ['t', 'r', 'u', 'e']
  | .bool false => ['f', 'a', 'l', 's', 'e']
  | .int n => (toString n.toInt).toList
  | .str s => quoted escape s

theorem escape_cases (c : Char) :
    (c = '\u2028' ∧ escape c = ['\\', 'u', '2', '0', '2', '8']) ∨
      (c = '\u2029' ∧ escape c = ['\\', 'u', '2', '0', '2', '9']) ∨ escape c = Js.escape c := by
  unfold escape
  split
  · exact .inl ⟨by assumption, rfl⟩
  · split
    · exact .inr (.inl ⟨by assumption, rfl⟩)
    · exact .inr (.inr rfl)

/-- No escape of `JSON.stringify` begins like that of a line terminator. -/
theorem jsEscape_ne {c d : Char} {x y : List Char} :
    Js.escape c ++ x ≠ '\\' :: 'u' :: '2' :: d :: y := by
  intro h
  rcases Js.escape_cases c with ⟨hc, -, hback⟩ | ⟨e, hc, he, -⟩ | ⟨-, hc⟩ <;>
    rw [hc] at h <;> simp only [List.cons_append, List.nil_append, List.cons.injEq] at h
  · exact hback h.1
  · exact he h.2.1
  · exact absurd h.2.2.1 (by decide)

theorem escape_append_inj {c d : Char} {x y : List Char} (h : escape c ++ x = escape d ++ y) : c = d ∧ x = y := by
  rcases escape_cases c with ⟨hc', hc⟩ | ⟨hc', hc⟩ | hc <;>
    rcases escape_cases d with ⟨hd', hd⟩ | ⟨hd', hd⟩ | hd <;> rw [hc, hd] at h
  · exact ⟨hc'.trans hd'.symm, List.append_cancel_left h⟩
  · simp at h
  · exact absurd h.symm jsEscape_ne
  · simp at h
  · exact ⟨hc'.trans hd'.symm, List.append_cancel_left h⟩
  · exact absurd h.symm jsEscape_ne
  · exact absurd h jsEscape_ne
  · exact absurd h jsEscape_ne
  · exact Js.escape_append_inj h

theorem escape_ne_quote {c : Char} {x y : List Char} : escape c ++ x ≠ '"' :: y := by
  intro h
  rcases escape_cases c with ⟨-, hc⟩ | ⟨-, hc⟩ | hc <;> rw [hc] at h
  · cases h
  · cases h
  · exact Js.escape_head_ne_quote h

theorem quoted_inj {s t : String} {x y : List Char} (h : quoted escape s ++ x = quoted escape t ++ y) :
    s = t ∧ x = y :=
  quoted_append_inj escape_append_inj escape_ne_quote h

/-- The characters of an integer. -/
def inNumeral (c : Char) : Bool := c.isDigit || c == '-'

theorem inNumeral_of_mem {n : Int} {c : Char} (h : c ∈ (toString n).toList) : inNumeral c = true := by
  have hnat : ∀ m : Nat, ∀ c ∈ (Nat.repr m).toList, c.isDigit = true := by
    intro m c hc
    rw [Nat.repr_eq_ofList_toDigits, String.toList_ofList] at hc
    exact Nat.isDigit_of_mem_toDigits (by decide) (by decide) hc
  unfold inNumeral
  cases n with
  | ofNat m => rw [hnat m c h, Bool.true_or]
  | negSucc m =>
    have hneg : toString (Int.negSucc m) = "-" ++ Nat.repr (m + 1) := rfl
    rw [hneg, String.toList_append] at h
    rcases List.mem_append.mp h with hminus | hdigit
    · rw [List.mem_singleton.mp hminus]
      rfl
    · rw [hnat (m + 1) c hdigit, Bool.true_or]

theorem toString_ne_nil (n : Int) : (toString n).toList ≠ [] := by
  intro h
  cases n with
  | ofNat m =>
    have hlen : (Nat.toDigits 10 m).length = 0 := by
      have hnat : (Nat.repr m).toList = [] := h
      rw [Nat.repr_eq_ofList_toDigits, String.toList_ofList] at hnat
      rw [hnat]
      rfl
    exact absurd hlen (Nat.pos_iff_ne_zero.mp Nat.length_toDigits_pos)
  | negSucc m =>
    have hneg : toString (Int.negSucc m) = "-" ++ Nat.repr (m + 1) := rfl
    rw [hneg, String.toList_append] at h
    cases h

theorem numeral_head (n : Int) : ∃ c cs, (toString n).toList = c :: cs ∧ inNumeral c = true := by
  cases hn : (toString n).toList with
  | nil => exact absurd hn (toString_ne_nil n)
  | cons c cs => exact ⟨c, cs, rfl, inNumeral_of_mem (hn ▸ List.mem_cons_self)⟩

theorem numeral_ne {n : Int} {c : Char} {x y : List Char} (hc : inNumeral c = false) :
    (toString n).toList ++ x ≠ c :: y := by
  intro h
  obtain ⟨d, cs, hn, hd⟩ := numeral_head n
  rw [hn] at h
  rw [(List.cons.inj h).1, hc] at hd
  cases hd

theorem numeral_append_inj {m n : Int64} {x y : List Char} (hx : Delim x) (hy : Delim y)
    (h : (toString m.toInt).toList ++ x = (toString n.toInt).toList ++ y) : m = n ∧ x = y := by
  have hinside : ∀ c, c = ',' ∨ c = ']' ∨ c = '}' → inNumeral c = false := by
    rintro c (rfl | rfl | rfl) <;> rfl
  obtain ⟨htext, hxy⟩ := append_delim_inj hinside (fun c => inNumeral_of_mem) (fun c => inNumeral_of_mem) hx hy h
  exact ⟨Int64.toInt_inj.mp (Int.repr_injective (String.toList_inj.mp htext)), hxy⟩

theorem scalar_append_inj : ∀ {a b : Scalar} {x y : List Char}, Delim x → Delim y →
    a.text ++ x = b.text ++ y → a = b ∧ x = y
  | .null, .null, x, y, _, _, h => ⟨rfl, List.append_cancel_left h⟩
  | .bool true, .bool true, x, y, _, _, h => ⟨rfl, List.append_cancel_left h⟩
  | .bool false, .bool false, x, y, _, _, h => ⟨rfl, List.append_cancel_left h⟩
  | .int m, .int n, x, y, hx, hy, h => by
    obtain ⟨rfl, hxy⟩ := numeral_append_inj hx hy h
    exact ⟨rfl, hxy⟩
  | .str s, .str t, x, y, _, _, h => by
    obtain ⟨rfl, hxy⟩ := quoted_inj h
    exact ⟨rfl, hxy⟩
  | .int m, .null, x, y, _, _, h | .int m, .bool true, x, y, _, _, h | .int m, .bool false, x, y, _, _, h
  | .int m, .str t, x, y, _, _, h => absurd h (numeral_ne rfl)
  | .null, .int n, x, y, _, _, h | .bool true, .int n, x, y, _, _, h | .bool false, .int n, x, y, _, _, h
  | .str s, .int n, x, y, _, _, h => absurd h.symm (numeral_ne rfl)
  | .null, .bool true, x, y, _, _, h | .null, .bool false, x, y, _, _, h | .null, .str t, x, y, _, _, h
  | .bool true, .null, x, y, _, _, h | .bool true, .bool false, x, y, _, _, h | .bool true, .str t, x, y, _, _, h
  | .bool false, .null, x, y, _, _, h | .bool false, .bool true, x, y, _, _, h | .bool false, .str t, x, y, _, _, h
  | .str s, .null, x, y, _, _, h | .str s, .bool true, x, y, _, _, h | .str s, .bool false, x, y, _, _, h =>
    absurd (List.cons.inj h).1 (by decide)

theorem scalar_head (a : Scalar) : ∃ c cs, a.text = c :: cs ∧ c ∉ ['[', '{', ',', ']', '}'] := by
  cases a with
  | null => exact ⟨_, _, rfl, by decide⟩
  | bool b => cases b <;> exact ⟨_, _, rfl, by decide⟩
  | int n =>
    obtain ⟨c, cs, hn, hc⟩ := numeral_head n.toInt
    refine ⟨c, cs, hn, fun hmem => ?_⟩
    simp only [List.mem_cons, List.not_mem_nil, or_false] at hmem
    rcases hmem with rfl | rfl | rfl | rfl | rfl <;> cases hc
  | str s => exact ⟨_, _, rfl, by decide⟩

def spelling : Spelling Scalar where
  leaf := Scalar.text
  key := quoted escape
  leaf_head := scalar_head
  leaf_append_inj := scalar_append_inj
  key_head k := ⟨_, _, rfl, by decide⟩
  key_append_inj := quoted_inj

/-! ## What the encoder sees -/

/-- The keys of a list of so many values. -/
def indexKeys (n : Nat) : List String := (List.range n).map toString

mutual

/-- The value whose text is written: objects with the keys of a list, in order, are lists. -/
def reading : Value → Value
  | .leaf a => .leaf a
  | .list xs => .list (readingList xs)
  | .object fields =>
    if fields.map Prod.fst = indexKeys fields.length then .list ((readingFields fields).map Prod.snd)
    else .object (sortFields (readingFields fields))

def readingList : List Value → List Value
  | [] => []
  | x :: xs => reading x :: readingList xs

def readingFields : List (String × Value) → List (String × Value)
  | [] => []
  | (k, v) :: fields => (k, reading v) :: readingFields fields

end

theorem readingFields_eq_map (fields : List (String × Value)) :
    readingFields fields = fields.map fun e => (e.1, reading e.2) := by
  induction fields with
  | nil => rfl
  | cons e fields ih => rw [readingFields, ih, List.map_cons]

/-- The elements of a list under their keys. -/
def indexed (i : Nat) : List Value → List (String × Value)
  | [] => []
  | x :: xs => (toString i, x) :: indexed (i + 1) xs

theorem decodeList_eq (i : Nat) (xs : List Value) : decodeList i xs = decodeFields (indexed i xs) := by
  induction xs generalizing i with
  | nil => rfl
  | cons x xs ih => rw [decodeList, indexed, decodeFields, ih]

theorem keys_indexed (i : Nat) (xs : List Value) :
    (indexed i xs).map Prod.fst = (List.range' i xs.length).map toString := by
  induction xs generalizing i with
  | nil => rfl
  | cons x xs ih => rw [indexed, List.map_cons, ih, List.length_cons, List.range'_succ, List.map_cons]

theorem length_indexed (i : Nat) (xs : List Value) : (indexed i xs).length = xs.length := by
  induction xs generalizing i with
  | nil => rfl
  | cons x xs ih => rw [indexed, List.length_cons, ih, List.length_cons]

theorem readingFields_indexed (i : Nat) (xs : List Value) :
    (readingFields (indexed i xs)).map Prod.snd = readingList xs := by
  induction xs generalizing i with
  | nil => rfl
  | cons x xs ih => rw [indexed, readingFields, List.map_cons, ih, readingList]

/-- A list is seen as the object of its elements under their keys. -/
theorem reading_indexed (xs : List Value) : reading (.object (indexed 0 xs)) = reading (.list xs) := by
  have hkeys : (indexed 0 xs).map Prod.fst = indexKeys (indexed 0 xs).length := by
    rw [keys_indexed, length_indexed, indexKeys, List.range_eq_range']
  have hlist : reading (.object (indexed 0 xs)) = .list ((readingFields (indexed 0 xs)).map Prod.snd) := by
    unfold reading
    exact if_pos hkeys
  rw [hlist, readingFields_indexed, reading]

section
variable {p : Platform}

theorem commas_eq_intercalate (ts : List (List Char)) : [','].intercalate ts = commas ts := by
  induction ts with
  | nil => rfl
  | cons t ts ih =>
    cases ts with
    | nil => simp [commas]
    | cons u ts =>
      rw [List.intercalate_cons_cons, ih]
      simp [commas]

theorem texts_eq_map (xs : List Value) : texts spelling xs = xs.map (text spelling) := by
  induction xs with
  | nil => rfl
  | cons x xs ih => rw [texts, ih, List.map_cons]

theorem fieldTexts_eq_map (fields : List (String × Value)) :
    fieldTexts spelling fields = fields.map fun e => quoted escape e.1 ++ ':' :: text spelling e.2 := by
  induction fields with
  | nil => rfl
  | cons e fields ih =>
    rw [fieldTexts, ih, List.map_cons]
    rfl

/-- The parts of an array, as they are written. -/
def parts (fields : List (String × Value)) : List (String × String) :=
  fields.map fun e => (e.1, String.ofList (text spelling e.2))

/-- An array whose entries are written is written as what its keys make of it. -/
theorem encode_array (hjson : p.jsonText = jsonText) {entries : Entries} {fields : List (String × Value)}
    (hentries : encodeEntries p entries = .ok (parts (readingFields fields))) :
    encode p (.array entries) = .ok (String.ofList (text spelling (reading (.object fields)))) := by
  have hkeys : (parts (readingFields fields)).map Prod.fst = fields.map Prod.fst := by
    rw [parts, readingFields_eq_map, List.map_map, List.map_map]
    rfl
  have hlength : (parts (readingFields fields)).length = fields.length := by
    rw [parts, readingFields_eq_map, List.length_map, List.length_map]
  rw [encode, hentries]
  show (if isAssociative (parts (readingFields fields)) = true then _ else _) = _
  unfold isAssociative
  rw [hkeys, hlength, reading]
  by_cases hlist : fields.map Prod.fst = indexKeys fields.length
  · rw [if_pos hlist, if_neg (by simpa [indexKeys] using hlist)]
    have htexts : (parts (readingFields fields)).map Prod.snd =
        ((readingFields fields).map Prod.snd).map fun v => String.ofList (text spelling v) := by
      rw [parts, List.map_map, List.map_map]
      rfl
    refine congrArg Except.ok (String.toList_inj.mp ?_)
    rw [htexts]
    simp only [text, texts_eq_map, String.toList_append, String.toList_intercalate, String.toList_ofList,
      List.map_map, Function.comp_def, ← commas_eq_intercalate]
    rfl
  · rw [if_neg hlist, if_pos (by simpa [indexKeys] using hlist)]
    have hsorted : ksort (parts (readingFields fields)) = parts (sortFields (readingFields fields)) :=
      (map_sortFields (fun v => String.ofList (text spelling v)) (readingFields fields)).symm
    refine congrArg Except.ok (String.toList_inj.mp ?_)
    rw [hsorted, hjson]
    simp only [parts, jsonText, text, fieldTexts_eq_map, String.toList_append, String.toList_intercalate,
      String.toList_ofList, List.map_map, Function.comp_def, List.append_assoc, ← commas_eq_intercalate]
    rfl

mutual

/-- The text that is written is that of the reading. -/
theorem encode_decode (hjson : p.jsonText = jsonText) : ∀ v : Value,
    encode p (decode v) = .ok (String.ofList (text spelling (reading v)))
  | .leaf .null | .leaf (.bool true) | .leaf (.bool false) => rfl
  | .leaf (.int n) => congrArg Except.ok (String.ofList_toList).symm
  | .leaf (.str s) => congrArg Except.ok (congrFun hjson s)
  | .list xs => by
    rw [← reading_indexed]
    exact encode_array hjson (encodeEntries_decodeList hjson 0 xs)
  | .object fields => encode_array hjson (encodeEntries_decodeFields hjson fields)

theorem encodeEntries_decodeList (hjson : p.jsonText = jsonText) (i : Nat) : ∀ xs : List Value,
    encodeEntries p (decodeList i xs) = .ok (parts (readingFields (indexed i xs)))
  | [] => rfl
  | x :: xs => by
    rw [decodeList, encodeEntries, encode_decode hjson x, encodeEntries_decodeList hjson (i + 1) xs]
    rfl

theorem encodeEntries_decodeFields (hjson : p.jsonText = jsonText) : ∀ fields : List (String × Value),
    encodeEntries p (decodeFields fields) = .ok (parts (readingFields fields))
  | [] => rfl
  | (k, v) :: fields => by
    rw [decodeFields, encodeEntries, encode_decode hjson v, encodeEntries_decodeFields hjson fields]
    rfl

end

/-- Two values have one text just when they are seen alike. -/
theorem encode_eq_iff (hjson : p.jsonText = jsonText) {v w : Value} :
    encode p (decode v) = encode p (decode w) ↔ reading v = reading w := by
  rw [encode_decode hjson, encode_decode hjson]
  constructor
  · intro h
    exact text_injective (String.ofList_injective (Except.ok.inj h))
  · intro h
    rw [h]

end

/-! ## Which values have a text of their own -/

/-- The keys of a list, in some order. -/
def IndexKeyed (fields : List (String × Value)) : Prop := (fields.map Prod.fst).Perm (indexKeys fields.length)

mutual

/-- No object has the keys of a list. -/
def Legible : Value → Prop
  | .leaf _ => True
  | .list xs => LegibleList xs
  | .object fields => ¬ IndexKeyed fields ∧ LegibleFields fields

def LegibleList : List Value → Prop
  | [] => True
  | x :: xs => Legible x ∧ LegibleList xs

def LegibleFields : List (String × Value) → Prop
  | [] => True
  | (_, v) :: fields => Legible v ∧ LegibleFields fields

end

mutual

/-- There is no list. -/
def Listless : Value → Prop
  | .leaf _ => True
  | .list _ => False
  | .object fields => ListlessFields fields

def ListlessFields : List (String × Value) → Prop
  | [] => True
  | (_, v) :: fields => Listless v ∧ ListlessFields fields

end

theorem legibleFields_iff {fields : List (String × Value)} : LegibleFields fields ↔ ∀ e ∈ fields, Legible e.2 := by
  induction fields with
  | nil => simp [LegibleFields]
  | cons e fields ih => rw [LegibleFields, ih, List.forall_mem_cons]

theorem listlessFields_iff {fields : List (String × Value)} : ListlessFields fields ↔ ∀ e ∈ fields, Listless e.2 := by
  induction fields with
  | nil => simp [ListlessFields]
  | cons e fields ih => rw [ListlessFields, ih, List.forall_mem_cons]

theorem legibleFields_sortFields (fields : List (String × Value)) :
    LegibleFields (sortFields fields) ↔ LegibleFields fields := by
  simp only [legibleFields_iff, (perm_sortFields fields).mem_iff]

theorem listlessFields_sortFields (fields : List (String × Value)) :
    ListlessFields (sortFields fields) ↔ ListlessFields fields := by
  simp only [listlessFields_iff, (perm_sortFields fields).mem_iff]

theorem keys_byKeyFields (fields : List (String × Value)) :
    (sortFields (byKeyFields fields)).map Prod.fst |>.Perm (fields.map Prod.fst) := by
  refine ((perm_sortFields _).map Prod.fst).trans (.of_eq ?_)
  rw [byKeyFields_eq_map, List.map_map]
  rfl

theorem indexKeyed_byKey (fields : List (String × Value)) :
    IndexKeyed (sortFields (byKeyFields fields)) ↔ IndexKeyed fields := by
  have hlength : (sortFields (byKeyFields fields)).length = fields.length := by
    rw [(perm_sortFields _).length_eq, byKeyFields_eq_map, List.length_map]
  unfold IndexKeyed
  rw [hlength]
  exact ⟨(keys_byKeyFields fields).symm.trans, (keys_byKeyFields fields).trans⟩

mutual

theorem legible_byKey : ∀ v : Value, Legible v.byKey ↔ Legible v
  | .leaf _ => Iff.rfl
  | .list xs => legible_byKeyList xs
  | .object fields => by
    unfold byKey Legible
    rw [indexKeyed_byKey, legibleFields_sortFields, legible_byKeyFields fields]

theorem legible_byKeyList : ∀ xs : List Value, LegibleList (byKeyList xs) ↔ LegibleList xs
  | [] => Iff.rfl
  | x :: xs => and_congr (legible_byKey x) (legible_byKeyList xs)

theorem legible_byKeyFields : ∀ fields : List (String × Value), LegibleFields (byKeyFields fields) ↔ LegibleFields fields
  | [] => Iff.rfl
  | (_, v) :: fields => and_congr (legible_byKey v) (legible_byKeyFields fields)

end

mutual

theorem listless_byKey : ∀ v : Value, Listless v.byKey ↔ Listless v
  | .leaf _ => Iff.rfl
  | .list xs => Iff.rfl
  | .object fields => by
    unfold byKey Listless
    rw [listlessFields_sortFields, listless_byKeyFields fields]

theorem listless_byKeyFields : ∀ fields : List (String × Value),
    ListlessFields (byKeyFields fields) ↔ ListlessFields fields
  | [] => Iff.rfl
  | (_, v) :: fields => and_congr (listless_byKey v) (listless_byKeyFields fields)

end

mutual

/-- Where no object has the keys of a list, the encoder only orders the keys. -/
theorem reading_of_legible : ∀ {v : Value}, Legible v → reading v = v.byKey
  | .leaf _, _ => rfl
  | .list xs, h => congrArg Tree.list (readingList_of_legible h)
  | .object fields, h => by
    have hkeys : fields.map Prod.fst ≠ indexKeys fields.length := fun heq => h.1 (.of_eq heq)
    unfold reading byKey
    rw [if_neg hkeys, readingFields_of_legible h.2]

theorem readingList_of_legible : ∀ {xs : List Value}, LegibleList xs → readingList xs = byKeyList xs
  | [], _ => rfl
  | x :: xs, h => by rw [readingList, byKeyList, reading_of_legible h.1, readingList_of_legible h.2]

theorem readingFields_of_legible : ∀ {fields : List (String × Value)}, LegibleFields fields →
    readingFields fields = byKeyFields fields
  | [], _ => rfl
  | (k, v) :: fields, h => by
    rw [readingFields, byKeyFields, reading_of_legible h.1, readingFields_of_legible h.2]

end

mutual

/-- What is seen without a list is the value itself. -/
theorem reading_of_listless : ∀ {v : Value}, Listless (reading v) → reading v = v.byKey
  | .leaf _, _ => rfl
  | .list _, h => h.elim
  | .object fields, h => by
    unfold reading at h ⊢
    by_cases hkeys : fields.map Prod.fst = indexKeys fields.length
    · rw [if_pos hkeys] at h
      exact h.elim
    · rw [if_neg hkeys] at h ⊢
      unfold Listless at h
      rw [byKey, readingFields_of_listless ((listlessFields_sortFields _).mp h)]

theorem readingFields_of_listless : ∀ {fields : List (String × Value)}, ListlessFields (readingFields fields) →
    readingFields fields = byKeyFields fields
  | [], _ => rfl
  | (k, v) :: fields, h => by
    rw [readingFields, byKeyFields, reading_of_listless h.1, readingFields_of_listless h.2]

end

/-- A value without lists and without objects that have their keys is told from every other. -/
theorem reading_eq_iff_of_plain {v : Value} (hlegible : Legible v) (hlistless : Listless v) (w : Value) :
    reading v = reading w ↔ Same v w := by
  have hv : reading v = v.byKey := reading_of_legible hlegible
  unfold Same
  rw [hv]
  constructor
  · intro h
    have hw : Listless (reading w) := h ▸ (listless_byKey v).mpr hlistless
    rw [h, reading_of_listless hw]
  · intro h
    have hw : Legible w := by
      rw [← legible_byKey, ← h, legible_byKey]
      exact hlegible
    rw [h, reading_of_legible hw]

/-! ## Which have not -/

/-- A value that is read alike without being the same, or is the same without being read alike. -/
def Confused (v w : Value) : Prop := ¬ (reading v = reading w ↔ Same v w)

theorem confused_of_reading {v w : Value} (h : reading v = reading w) (hne : ¬ Same v w) : Confused v w :=
  fun hiff => hne (hiff.mp h)

theorem confused_of_same {v w : Value} (h : Same v w) (hne : reading v ≠ reading w) : Confused v w :=
  fun hiff => hne (hiff.mpr h)

theorem indexKeys_nodup (i n : Nat) : ((List.range' i n).map (toString : Nat → String)).Nodup :=
  List.Nodup.map (fun _ _ h => Nat.repr_injective h) List.nodup_range'

theorem distinct_indexed {xs : List Value} (h : DistinctList xs) : Distinct (.object (indexed 0 xs)) := by
  refine ⟨?_, ?_⟩
  · rw [keys_indexed]
    exact indexKeys_nodup 0 xs.length
  · rw [distinctFields_iff]
    have hmem : ∀ (i : Nat) (ys : List Value), ∀ e ∈ indexed i ys, e.2 ∈ ys := by
      intro i ys
      induction ys generalizing i with
      | nil => exact fun e he => (nomatch he)
      | cons y ys ih =>
        intro e he
        rcases List.mem_cons.mp he with rfl | he
        · exact List.mem_cons_self
        · exact List.mem_cons_of_mem _ (ih (i + 1) e he)
    exact fun e he => distinctList_iff.mp h e.2 (hmem 0 xs e he)

/-- A list is written like the object of its elements under their keys. -/
theorem confused_list {xs : List Value} (h : DistinctList xs) :
    ∃ w, Distinct w ∧ Confused (.list xs) w :=
  ⟨.object (indexed 0 xs), distinct_indexed h, confused_of_reading (reading_indexed xs).symm fun hsame => nomatch hsame⟩

theorem readingList_eq_map (xs : List Value) : readingList xs = xs.map reading := by
  induction xs with
  | nil => rfl
  | cons x xs ih => rw [readingList, ih, List.map_cons]

theorem reading_inOrder {fields : List (String × Value)} (h : fields.map Prod.fst = indexKeys fields.length) :
    reading (.object fields) = reading (.list (fields.map Prod.snd)) := by
  have hlist : reading (.object fields) = .list ((readingFields fields).map Prod.snd) := by
    unfold reading
    exact if_pos h
  rw [hlist, reading, readingFields_eq_map, readingList_eq_map, List.map_map, List.map_map]
  rfl

theorem reading_outOfOrder {fields : List (String × Value)} (h : fields.map Prod.fst ≠ indexKeys fields.length) :
    reading (.object fields) = .object (sortFields (readingFields fields)) := by
  unfold reading
  exact if_neg h

/-- Fields that have the keys of a list can be put in their order. -/
theorem exists_inOrder {fields : List (String × Value)} (h : IndexKeyed fields) :
    ∃ gs : List (String × Value), gs.Perm fields ∧ gs.map Prod.fst = indexKeys gs.length := by
  have hkeyed : List.Forall₂ (fun k (e : String × Value) => e.1 = k) (fields.map Prod.fst) fields := by
    rw [List.forall₂_map_left_iff]
    exact List.forall₂_same.mpr fun _ _ => rfl
  obtain ⟨gs, hgs, hperm⟩ := List.perm_comp_forall₂ h.symm hkeyed
  refine ⟨gs, hperm, ?_⟩
  rw [hperm.length_eq]
  have hkeys : ∀ {ks : List String} {es : List (String × Value)},
      List.Forall₂ (fun k (e : String × Value) => e.1 = k) ks es → es.map Prod.fst = ks := by
    intro ks es hes
    induction hes with
    | nil => rfl
    | cons hk _ ih => rw [List.map_cons, hk, ih]
  exact hkeys hgs

/-- An object with the keys of a list is written like the list, or unlike itself in their order. -/
theorem confused_object {fields : List (String × Value)} (h : Distinct (.object fields)) (hindex : IndexKeyed fields) :
    ∃ w, Distinct w ∧ Confused (.object fields) w := by
  obtain ⟨hnodup, hfields⟩ := h
  by_cases hkeys : fields.map Prod.fst = indexKeys fields.length
  · refine ⟨.list (fields.map Prod.snd), ?_, confused_of_reading (reading_inOrder hkeys) fun hsame => nomatch hsame⟩
    unfold Distinct
    rw [distinctList_iff, List.forall_mem_map]
    exact distinctFields_iff.mp hfields
  · obtain ⟨gs, hperm, hgs⟩ := exists_inOrder hindex
    refine ⟨.object gs, ⟨(hperm.map Prod.fst).nodup_iff.mpr hnodup, ?_⟩,
      confused_of_same (same_object_of_perm hnodup hperm.symm) ?_⟩
    · rw [distinctFields_iff] at hfields ⊢
      exact fun e he => hfields e (hperm.mem_iff.mp he)
    · rw [reading_outOfOrder hkeys, reading_inOrder hgs]
      exact fun heq => nomatch heq

/-- What is confused in a field is confused in the object. -/
theorem confused_field {fs gs : List (String × Value)} {k : String} {v w : Value}
    (h : Distinct (.object (fs ++ (k, v) :: gs))) (hindex : ¬ IndexKeyed (fs ++ (k, v) :: gs)) (hw : Distinct w)
    (hconfused : Confused v w) :
    Distinct (.object (fs ++ (k, w) :: gs)) ∧
      Confused (.object (fs ++ (k, v) :: gs)) (.object (fs ++ (k, w) :: gs)) := by
  obtain ⟨hnodup, hfields⟩ := h
  have hkeys : (fs ++ (k, w) :: gs).map Prod.fst = (fs ++ (k, v) :: gs).map Prod.fst := by
    rw [List.map_append, List.map_append, List.map_cons, List.map_cons]
  have hmapped : ∀ f : Value → Value,
      (((fs.map fun e => (e.1, f e.2)) ++ (k, f v) :: gs.map fun e => (e.1, f e.2)).map Prod.fst).Nodup := by
    intro f
    have heq : ((fs.map fun e => (e.1, f e.2)) ++ (k, f v) :: gs.map fun e => (e.1, f e.2)).map Prod.fst =
        (fs ++ (k, v) :: gs).map Prod.fst := by
      simp [List.map_map, Function.comp_def]
    rw [heq]
    exact hnodup
  have hout : ∀ u : Value, (fs ++ (k, u) :: gs).map Prod.fst ≠ indexKeys (fs ++ (k, u) :: gs).length := by
    intro u heq
    refine hindex (.of_eq ?_)
    simpa using heq
  refine ⟨⟨hkeys ▸ hnodup, ?_⟩, fun hiff => hconfused ?_⟩
  · rw [distinctFields_iff] at hfields ⊢
    intro e he
    rcases List.mem_append.mp he with hfs | hgs
    · exact hfields e (List.mem_append_left _ hfs)
    · rcases List.mem_cons.mp hgs with rfl | hgs
      · exact hw
      · exact hfields e (List.mem_append_right _ (List.mem_cons_of_mem _ hgs))
  · have hreading : reading (.object (fs ++ (k, v) :: gs)) = reading (.object (fs ++ (k, w) :: gs)) ↔
        reading v = reading w := by
      rw [reading_outOfOrder (hout v), reading_outOfOrder (hout w), readingFields_eq_map, readingFields_eq_map,
        List.map_append, List.map_append, List.map_cons, List.map_cons, Tree.object.injEq,
        sortFields_update_iff (hmapped reading)]
    have hsame : Same (.object (fs ++ (k, v) :: gs)) (.object (fs ++ (k, w) :: gs)) ↔ Same v w := by
      unfold Same
      rw [byKey, byKey, byKeyFields_eq_map, byKeyFields_eq_map, List.map_append, List.map_append, List.map_cons,
        List.map_cons, Tree.object.injEq, sortFields_update_iff (hmapped byKey)]
    rw [← hreading, ← hsame]
    exact hiff

mutual

/-- Every other value has one that it is confused with. -/
theorem exists_confused : ∀ {v : Value}, Distinct v → ¬ (Legible v ∧ Listless v) → ∃ w, Distinct w ∧ Confused v w
  | .leaf _, _, h => absurd ⟨trivial, trivial⟩ h
  | .list _, hv, _ => confused_list hv
  | .object fields, hv, h => by
    by_cases hindex : IndexKeyed fields
    · exact confused_object hv hindex
    · have hfields : ¬ (LegibleFields fields ∧ ListlessFields fields) := fun hf => h ⟨⟨hindex, hf.1⟩, hf.2⟩
      obtain ⟨fs, k, v, gs, rfl, w, hw, hconfused⟩ := exists_confused_field hv.2 hfields
      obtain ⟨hdistinct, hobject⟩ := confused_field hv hindex hw hconfused
      exact ⟨_, hdistinct, hobject⟩

theorem exists_confused_field : ∀ {fields : List (String × Value)}, DistinctFields fields →
    ¬ (LegibleFields fields ∧ ListlessFields fields) →
    ∃ fs k v gs, fields = fs ++ (k, v) :: gs ∧ ∃ w, Distinct w ∧ Confused v w
  | [], _, h => absurd ⟨trivial, trivial⟩ h
  | (k, v) :: fields, hv, h => by
    by_cases hplain : Legible v ∧ Listless v
    · have hrest : ¬ (LegibleFields fields ∧ ListlessFields fields) :=
        fun hf => h ⟨⟨hplain.1, hf.1⟩, ⟨hplain.2, hf.2⟩⟩
      obtain ⟨fs, l, u, gs, rfl, hw⟩ := exists_confused_field hv.2 hrest
      exact ⟨(k, v) :: fs, l, u, gs, rfl, hw⟩
    · exact ⟨[], k, v, fields, rfl, exists_confused hv.1 hplain⟩

end

/-- Two values whose objects all have keys of their own have one text just when they are the same; and
a value is told from every other just when it has no lists besides. -/
theorem encode_separates (p : Platform) (hjson : p.jsonText = jsonText) :
    (∀ v w : Value, Legible v → Legible w → (encode p (decode v) = encode p (decode w) ↔ Same v w)) ∧
      ∀ v : Value, Distinct v →
        ((∀ w, Distinct w → (encode p (decode v) = encode p (decode w) ↔ Same v w)) ↔ Legible v ∧ Listless v) := by
  simp only [encode_eq_iff hjson]
  refine ⟨fun v w hv hw => ?_, fun v hv => ⟨fun h => ?_, fun h w _ => reading_eq_iff_of_plain h.1 h.2 w⟩⟩
  · rw [reading_of_legible hv, reading_of_legible hw]
    exact Iff.rfl
  · by_contra hplain
    obtain ⟨w, hw, hconfused⟩ := exists_confused hv hplain
    exact hconfused (h w hw)

/-- A platform that prints texts; no float is printed here. -/
def printer : Platform := ⟨id, jsonText, fun _ => none, fun _ => "", fun _ => none⟩

theorem printer_separates :
    printer.jsonText = jsonText ∧
      (∀ v w : Value, Legible v → Legible w →
        (encode printer (decode v) = encode printer (decode w) ↔ Same v w)) ∧
      ∀ v : Value, Distinct v →
        ((∀ w, Distinct w → (encode printer (decode v) = encode printer (decode w) ↔ Same v w)) ↔
          Legible v ∧ Listless v) :=
  ⟨rfl, encode_separates printer rfl⟩

/-- `{"meta":{}}` and `{"meta":[]}` have one text; `{"1":true,"0":false}` has another in its other order. -/
theorem empty_object_is_list :
    (encode printer (decode (.object [("meta", .object [])])) =
        encode printer (decode (.object [("meta", .list [])])) ∧
      ¬ Same (.object [("meta", .object [])] : Value) (.object [("meta", .list [])])) ∧
    (encode printer (decode (.object [("1", .leaf (.bool true)), ("0", .leaf (.bool false))])) ≠
        encode printer (decode (.object [("0", .leaf (.bool false)), ("1", .leaf (.bool true))])) ∧
      Same (.object [("1", .leaf (.bool true)), ("0", .leaf (.bool false))] : Value)
        (.object [("0", .leaf (.bool false)), ("1", .leaf (.bool true))])) := by
  refine ⟨⟨rfl, fun h => nomatch h⟩, ?_, ?_⟩
  · rw [Ne, encode_eq_iff rfl]
    exact fun h => nomatch h
  · exact same_object_of_perm (by decide) (.swap _ _ _)

end SimpleL1.Kernel.CanonicalJson
