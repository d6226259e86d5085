import SimpleL1.Interpreter.Value
import SimpleL1.Realm.History

/-!
# Canonical text in the interpreter

`canonicalEncode` sorts keys by their UTF-8 bytes and prints a number as
`serde_json` does, which is a parameter. Strings are escaped as `JSON.stringify`
escapes them. On ASCII keys and on numbers both sides spell alike the text is the
text of the first implementation: `canonicalEncode_eq`.
-/

namespace SimpleL1.Interpreter

open SimpleL1.Js SimpleL1.Realm

/-- How `serde_json` prints a number it has read from JSON. -/
structure Serde where
  number : Number → List Char
  /-- An integer literal that fits `i64` or `u64` is kept as an integer and prints its digits. -/
  number_int : ∀ n : Int, -2 ^ 63 ≤ n → n < 2 ^ 64 → number (.int n) = (Number.int n).chars

/-! ## Key order -/

def utf8 (c : Char) : List Nat :=
  let n := c.toNat
  if n < 0x80 then [n]
  else if n < 0x800 then [0xC0 + n / 0x40, 0x80 + n % 0x40]
  else if n < 0x10000 then [0xE0 + n / 0x1000, 0x80 + n / 0x40 % 0x40, 0x80 + n % 0x40]
  else [0xF0 + n / 0x40000, 0x80 + n / 0x1000 % 0x40, 0x80 + n / 0x40 % 0x40, 0x80 + n % 0x40]

/-- The order of `String` in Rust. -/
def byteLe (a b : String) : Bool := lexLe (a.toList.flatMap utf8) (b.toList.flatMap utf8)

def sortKeys {α : Type} (fs : List (String × α)) : List (String × α) :=
  fs.insertionSort fun a b => byteLe a.1 b.1 = true

def isAscii (s : String) : Bool := s.toList.all (·.toNat < 0x80)

theorem flatMap_utf8 {s : String} (h : isAscii s = true) :
    s.toList.flatMap utf8 = s.toList.flatMap utf16 := by
  apply List.flatMap_congr
  intro c hc
  have hlt : c.toNat < 0x80 := by simpa using List.all_eq_true.mp h c hc
  rw [utf8, utf16, if_pos hlt, if_pos (by omega)]

theorem byteLe_eq {a b : String} (ha : isAscii a = true) (hb : isAscii b = true) :
    byteLe a b = keyLe a b := by
  rw [byteLe, keyLe, flatMap_utf8 ha, flatMap_utf8 hb]

theorem sortKeys_eq {α : Type} {fs : List (String × α)} (h : ∀ p ∈ fs, isAscii p.1 = true) :
    sortKeys fs = sortFields fs := by
  have hcongr := List.map_insertionSort (fun a b : String × α => byteLe a.1 b.1 = true)
    (fun a b : String × α => keyLe a.1 b.1 = true) id fs
    (fun a ha b hb => by rw [byteLe_eq (h a ha) (h b hb)]; rfl)
  simpa [sortKeys, sortFields] using hcongr

/-! ## The text -/

section
variable (serde : Serde)

mutual

def canonicalChars : Json → List Char
  | .null => ['n', 'u', 'l', 'l']
  | .bool true => ['t', 'r', 'u', 'e']
  | .bool false => ['f', 'a', 'l', 's', 'e']
  | .num n => serde.number n
  | .str s => quote s
  | .arr xs => '[' :: joinComma (canonicalElems xs) ++ [']']
  | .obj fs =>
    '{' :: joinComma ((sortKeys (canonicalValues fs)).map fun p => quote p.1 ++ ':' :: p.2) ++ ['}']

def canonicalElems : List Json → List (List Char)
  | [] => []
  | x :: xs => canonicalChars x :: canonicalElems xs

def canonicalValues : List (String × Json) → List (String × List Char)
  | [] => []
  | (k, v) :: fs => (k, canonicalChars v) :: canonicalValues fs

end

def canonicalEncode (value : Json) : String := String.ofList (canonicalChars serde value)

end

/-! ## Keys and numbers of a value -/

section
variable (key : String → Bool) (num : Number → Bool)

mutual

/-- Every key and every number in the value passes. -/
def every : Json → Bool
  | .num n => num n
  | .arr xs => everyElem xs
  | .obj fs => everyField fs
  | _ => true

def everyElem : List Json → Bool
  | [] => true
  | x :: xs => every x && everyElem xs

def everyField : List (String × Json) → Bool
  | [] => true
  | (k, v) :: fs => key k && every v && everyField fs

end

end

theorem everyElem_iff {key : String → Bool} {num : Number → Bool} {xs : List Json} :
    everyElem key num xs = true ↔ ∀ x ∈ xs, every key num x = true := by
  induction xs with
  | nil => simp [everyElem]
  | cons x xs ih => simp [everyElem, ih]

theorem every_get {key : String → Bool} {num : Number → Bool} {fs : Fields} {k : String} {v : Json}
    (h : everyField key num fs = true) (hk : fs.get k = some v) : every key num v = true := by
  induction fs with
  | nil => cases hk
  | cons p fs ih =>
    obtain ⟨k', v'⟩ := p
    simp only [everyField, Bool.and_eq_true] at h
    rw [Fields.get_cons] at hk
    split at hk
    · cases hk; exact h.1.2
    · exact ih h.2 hk

theorem every_prop {key : String → Bool} {num : Number → Bool} {v w : Json} {k : String}
    (h : every key num v = true) (hk : v.prop k = some w) : every key num w = true := by
  cases v with
  | obj fs => exact every_get h hk
  | _ => cases hk

def asciiKeys : Json → Bool := every isAscii fun _ => true

/-- Both sides print the numbers of the value alike. -/
def spelled (serde : Serde) : Json → Bool :=
  every (fun _ => true) fun n => serde.number n == Json.numText n

theorem keys_canonicalValues (serde : Serde) : ∀ {fs : List (String × Json)},
    everyField isAscii (fun _ => true) fs = true →
      ∀ p ∈ canonicalValues serde fs, isAscii p.1 = true
  | [], _ => nofun
  | (k, v) :: fs, h => by
    simp only [everyField, Bool.and_eq_true] at h
    intro p hp
    rcases List.mem_cons.mp hp with rfl | hp
    · exact h.1.1
    · exact keys_canonicalValues serde h.2 p hp

section
variable {serde : Serde}

mutual

theorem canonicalChars_eq : ∀ {v : Json}, asciiKeys v = true → spelled serde v = true →
    canonicalChars serde v = Realm.canonicalChars v
  | .null, _, _ | .bool true, _, _ | .bool false, _, _ | .str _, _, _ => rfl
  | .num n, _, h => by
    show serde.number n = Json.numText n
    simpa [spelled, every] using h
  | .arr xs, hk, hn => by
    simp only [canonicalChars, Realm.canonicalChars, canonicalElems_eq hk hn]
  | .obj fs, hk, hn => by
    have hkeys := keys_canonicalValues serde hk
    rw [canonicalValues_eq hk hn] at hkeys
    simp only [canonicalChars, Realm.canonicalChars, canonicalValues_eq hk hn, sortKeys_eq hkeys]

theorem canonicalElems_eq : ∀ {xs : List Json}, everyElem isAscii (fun _ => true) xs = true →
    everyElem (fun _ => true) (fun n => serde.number n == Json.numText n) xs = true →
    canonicalElems serde xs = Realm.canonicalElems xs
  | [], _, _ => rfl
  | x :: xs, hk, hn => by
    simp only [everyElem, Bool.and_eq_true] at hk hn
    rw [canonicalElems, Realm.canonicalElems, canonicalChars_eq hk.1 hn.1,
      canonicalElems_eq hk.2 hn.2]

theorem canonicalValues_eq : ∀ {fs : List (String × Json)},
    everyField isAscii (fun _ => true) fs = true →
    everyField (fun _ => true) (fun n => serde.number n == Json.numText n) fs = true →
    canonicalValues serde fs = Realm.canonicalValues fs
  | [], _, _ => rfl
  | (k, v) :: fs, hk, hn => by
    simp only [everyField, Bool.and_eq_true] at hk hn
    rw [canonicalValues, Realm.canonicalValues, canonicalChars_eq hk.1.2 hn.1.2,
      canonicalValues_eq hk.2 hn.2]

end

theorem canonicalEncode_eq {v : Json} (hk : asciiKeys v = true) (hn : spelled serde v = true) :
    canonicalEncode serde v = Realm.canonicalEncode v := by
  rw [canonicalEncode, Realm.canonicalEncode, canonicalChars_eq hk hn]

end

theorem spelled_int (serde : Serde) {n : Int} (h : 0 ≤ n) (hlt : n < 2 ^ 63) :
    spelled serde (.num (.int n)) = true := by
  have hchars := serde.number_int n (by omega) (by omega)
  simpa [spelled, every, Json.numText, Number.isFinite] using hchars

end SimpleL1.Interpreter
