import SimpleL1.Js.Array
import SimpleL1.Js.Canon

/-!
# Canonical text on the wire

Keys are sorted by their code points as they come, then keys and strings are written in
normal form. NFC is a parameter: an idempotent function on strings. The canonical text is
the text of one value, `wire`.
-/

namespace SimpleL1.Wire

open SimpleL1.Js

/-- `normalize('NFC')`. -/
structure Nfc where
  normal : String → String
  normal_normal : ∀ s, normal (normal s) = normal s

attribute [simp] Nfc.normal_normal

/-! ## Key order -/

def codePoints (value : String) : List Nat := value.toList.map Char.toNat

def compareCodes : List Nat → List Nat → Int
  | a :: as, b :: bs => if a ≠ b then (a : Int) - b else compareCodes as bs
  | as, bs => (as.length : Int) - bs.length

def compareKeys (left right : String) : Int := compareCodes (codePoints left) (codePoints right)

def sortKeys {α : Type} (fs : List (String × α)) : List (String × α) :=
  fs.insertionSort fun a b => compareKeys a.1 b.1 ≤ 0

theorem compareCodes_le : ∀ {as bs : List Nat}, compareCodes as bs ≤ 0 ↔ lexLe as bs = true
  | [], bs => by simp [compareCodes, lexLe]
  | a :: as, [] => by
    simp only [compareCodes, lexLe, List.length_cons, List.length_nil, Bool.false_eq_true, iff_false]
    omega
  | a :: as, b :: bs => by
    simp only [compareCodes, lexLe, Bool.or_eq_true, Bool.and_eq_true, decide_eq_true_eq]
    by_cases h : a = b
    · subst h
      simp [compareCodes_le]
    · rw [if_pos h]
      constructor
      · intro hle
        exact .inl (by omega)
      · rintro (hlt | ⟨heq, -⟩)
        · omega
        · exact absurd heq h

theorem codePoints_injective {a b : String} (h : codePoints a = codePoints b) : a = b := by
  have hinj : Function.Injective Char.toNat := fun c d hcd => Char.toNat_inj.mp hcd
  exact String.toList_inj.mp (List.map_injective_iff.mpr hinj h)

theorem compareKeys_antisymm {a b : String} (h : compareKeys a b ≤ 0) (h' : compareKeys b a ≤ 0) :
    a = b :=
  codePoints_injective (lexLe_antisymm (compareCodes_le.mp h) (compareCodes_le.mp h'))

theorem compareKeys_total (a b : String) : compareKeys a b ≤ 0 ∨ compareKeys b a ≤ 0 := by
  unfold compareKeys
  rw [compareCodes_le, compareCodes_le]
  exact lexLe_total _ _

theorem compareKeys_trans {a b c : String} (h : compareKeys a b ≤ 0) (h' : compareKeys b c ≤ 0) :
    compareKeys a c ≤ 0 :=
  compareCodes_le.mpr (lexLe_trans (compareCodes_le.mp h) (compareCodes_le.mp h'))

variable {α β : Type}

theorem perm_sortKeys (fs : List (String × α)) : (sortKeys fs).Perm fs := List.perm_insertionSort _ fs

/-- Keys in order; each may come again. -/
def Sorted (keys : List String) : Prop := keys.Pairwise fun a b => compareKeys a b ≤ 0

theorem sorted_sortKeys (fs : List (String × α)) : Sorted ((sortKeys fs).map Prod.fst) := by
  let le (a b : String × α) : Prop := compareKeys a.1 b.1 ≤ 0
  have htotal : Std.Total le := ⟨fun a b => compareKeys_total _ _⟩
  have htrans : IsTrans (String × α) le := ⟨fun a b c => compareKeys_trans⟩
  exact List.pairwise_map.mpr (List.pairwise_insertionSort le fs)

theorem sortKeys_of_sorted {fs : List (String × α)} (h : Sorted (fs.map Prod.fst)) : sortKeys fs = fs :=
  List.Pairwise.insertionSort_eq (List.pairwise_map.mp h)

/-- A list of fields with one order is sorted into it, when every key is there once. -/
theorem sortKeys_eq_of_perm {fs gs : List (String × α)} (h : fs.Perm gs)
    (hnodup : (gs.map Prod.fst).Nodup) (hsorted : Sorted (gs.map Prod.fst)) : sortKeys fs = gs := by
  refine List.Perm.eq_of_pairwise (fun a b ha hb hab hba => ?_)
    (List.pairwise_map.mp (sorted_sortKeys fs)) (List.pairwise_map.mp hsorted) ((perm_sortKeys fs).trans h)
  exact List.inj_on_of_nodup_map hnodup (h.mem_iff.mp ((perm_sortKeys fs).mem_iff.mp ha)) hb
    (compareKeys_antisymm hab hba)

theorem map_sortKeys (f : α → β) (fs : List (String × α)) :
    sortKeys (fs.map fun p => (p.1, f p.2)) = (sortKeys fs).map fun p => (p.1, f p.2) :=
  (List.map_insertionSort (fun a b : String × α => compareKeys a.1 b.1 ≤ 0)
    (fun a b : String × β => compareKeys a.1 b.1 ≤ 0) (fun p => (p.1, f p.2)) fs
    fun _ _ _ _ => Iff.rfl).symm

/-! ## The text -/

def isSafeInteger : Number → Bool
  | .int n => decide (n.natAbs ≤ 2 ^ 53 - 1)
  | _ => false

def assertSupportedNumber (value : Number) : JsM Unit := do
  throwUnless value.isFinite (.error "BAD_CANONICALIZATION: unsupported JSON number")
  throwUnless (isSafeInteger value) (.error "BAD_CANONICALIZATION: non-safe integer")

/-- A field's text, once its value has one. -/
def fieldText (n : Nfc) (field : String × JsM (List Char)) : JsM (List Char) := do
  let child ← field.2
  .ok (quote (n.normal field.1) ++ ':' :: child)

mutual

def canonicalizeValue (n : Nfc) : Json → JsM (List Char)
  | .str s => .ok (quote (n.normal s))
  | .num value => do
    assertSupportedNumber value
    .ok value.chars
  | .arr xs => do
    let texts ← canonicalizeList n xs
    .ok ('[' :: joinComma texts ++ [']'])
  | .obj fs => do
    let texts ← (sortKeys (canonicalizeFields n fs)).mapM (fieldText n)
    .ok ('\x7b' :: joinComma texts ++ ['\x7d'])
  | v => .ok v.text

def canonicalizeList (n : Nfc) : List Json → JsM (List (List Char))
  | [] => .ok []
  | x :: xs => do
    let text ← canonicalizeValue n x
    let texts ← canonicalizeList n xs
    .ok (text :: texts)

/-- The fields with what canonicalizing their values gives. -/
def canonicalizeFields (n : Nfc) : List (String × Json) → List (String × JsM (List Char))
  | [] => []
  | (k, v) :: fs => (k, canonicalizeValue n v) :: canonicalizeFields n fs

end

def canonicalJson (n : Nfc) : Json → JsM (List Char)
  | .obj fs => canonicalizeValue n (.obj fs)
  | _ => .error (.error "BAD_CANONICALIZATION: root must be a JSON object")

/-! ## The value that is written -/

mutual

def wire (n : Nfc) : Json → Json
  | .str s => .str (n.normal s)
  | .arr xs => .arr (wireList n xs)
  | .obj fs => .obj ((sortKeys (wireFields n fs)).map fun p => (n.normal p.1, p.2))
  | v => v

def wireList (n : Nfc) : List Json → List Json
  | [] => []
  | x :: xs => wire n x :: wireList n xs

def wireFields (n : Nfc) : List (String × Json) → List (String × Json)
  | [] => []
  | (k, v) :: fs => (k, wire n v) :: wireFields n fs

end

mutual

/-- Every number is a safe integer. -/
def supported : Json → Bool
  | .num value => isSafeInteger value
  | .arr xs => supportedList xs
  | .obj fs => supportedFields fs
  | _ => true

def supportedList : List Json → Bool
  | [] => true
  | x :: xs => supported x && supportedList xs

def supportedFields : List (String × Json) → Bool
  | [] => true
  | (_, v) :: fs => supported v && supportedFields fs

end

variable {n : Nfc}

theorem canonicalizeFields_eq_map (fs : List (String × Json)) :
    canonicalizeFields n fs = fs.map fun p => (p.1, canonicalizeValue n p.2) := by
  induction fs with
  | nil => rfl
  | cons p fs ih => simp [canonicalizeFields, ih]

theorem wireList_eq_map (xs : List Json) : wireList n xs = xs.map (wire n) := by
  induction xs with
  | nil => rfl
  | cons x xs ih => simp [wireList, ih]

theorem wireFields_eq_map (fs : List (String × Json)) :
    wireFields n fs = fs.map fun p => (p.1, wire n p.2) := by
  induction fs with
  | nil => rfl
  | cons p fs ih => simp [wireFields, ih]

theorem supportedList_eq_all (xs : List Json) : supportedList xs = xs.all supported := by
  induction xs with
  | nil => rfl
  | cons x xs ih => simp [supportedList, ih]

theorem supportedFields_eq_all (fs : List (String × Json)) :
    supportedFields fs = fs.all fun p => supported p.2 := by
  induction fs with
  | nil => rfl
  | cons p fs ih => simp [supportedFields, ih]

/-- The fields of the written object. -/
theorem wire_obj (fs : List (String × Json)) : wire n (.obj fs) =
    .obj ((sortKeys fs).map fun p => (n.normal p.1, wire n p.2)) := by
  rw [wire, wireFields_eq_map, map_sortKeys, List.map_map]
  rfl

theorem assertSupportedNumber_eq_ok {x : Number} {u : Unit} :
    assertSupportedNumber x = .ok u ↔ isSafeInteger x = true := by
  unfold assertSupportedNumber
  rw [throwUnless_bind_eq_ok, throwUnless_eq_ok]
  refine ⟨fun h => h.2, fun h => ⟨?_, h⟩⟩
  cases x <;> first | rfl | cases h

theorem text_num {x : Number} (h : isSafeInteger x = true) : (Json.num x).text = x.chars := by
  cases x with
  | int m => rfl
  | _ => cases h

theorem mapM_fieldText {fs : List (String × Json)} {ts : List (List Char)}
    (h : ∀ p ∈ fs, ∀ t, canonicalizeValue n p.2 = .ok t ↔ supported p.2 = true ∧ t = (wire n p.2).text) :
    (fs.map fun p => (p.1, canonicalizeValue n p.2)).mapM (fieldText n) = .ok ts ↔
      (∀ p ∈ fs, supported p.2 = true) ∧
        ts = Json.fieldTexts (fs.map fun p => (n.normal p.1, wire n p.2)) := by
  induction fs generalizing ts with
  | nil =>
    rw [List.map_nil, List.mapM_nil, pure_eq_ok, Except.ok.injEq]
    exact ⟨fun h => ⟨nofun, h.symm⟩, fun h => h.2.symm⟩
  | cons p fs ih =>
    obtain ⟨k, v⟩ := p
    have ih := fun ts => @ih ts fun q hq => h q (List.mem_cons_of_mem _ hq)
    have hv := h (k, v) List.mem_cons_self
    rw [List.map_cons, mapM_cons_eq_ok, List.forall_mem_cons]
    constructor
    · rintro ⟨t, rest, ht, hrest, rfl⟩
      obtain ⟨child, hchild, ht⟩ := bind_eq_ok.mp ht
      cases ht
      obtain ⟨hs, rfl⟩ := (hv child).mp hchild
      obtain ⟨hall, rfl⟩ := (ih rest).mp hrest
      exact ⟨⟨hs, hall⟩, rfl⟩
    · rintro ⟨⟨hs, hall⟩, rfl⟩
      exact ⟨_, _, bind_eq_ok.mpr ⟨_, (hv _).mpr ⟨hs, rfl⟩, rfl⟩, (ih _).mpr ⟨hall, rfl⟩, rfl⟩

mutual

/-- A value is accepted when its numbers are, and its canonical text is that of `wire`. -/
theorem canonicalizeValue_eq_ok : ∀ {v : Json} {t : List Char},
    canonicalizeValue n v = .ok t ↔ supported v = true ∧ t = (wire n v).text
  | .null, t => by
    rw [canonicalizeValue, Except.ok.injEq]
    · exact ⟨fun h => ⟨rfl, h.symm⟩, fun h => h.2.symm⟩
    all_goals nofun
  | .bool b, t => by
    rw [canonicalizeValue, Except.ok.injEq]
    · exact ⟨fun h => ⟨rfl, h.symm⟩, fun h => h.2.symm⟩
    all_goals nofun
  | .str s, t => by
    rw [canonicalizeValue, Except.ok.injEq]
    exact ⟨fun h => ⟨rfl, h.symm⟩, fun h => h.2.symm⟩
  | .num x, t => by
    rw [canonicalizeValue, bind_eq_ok]
    constructor
    · rintro ⟨_, hx, ht⟩
      cases ht
      have hsafe := assertSupportedNumber_eq_ok.mp hx
      exact ⟨hsafe, (text_num hsafe).symm⟩
    · rintro ⟨hsafe, rfl⟩
      exact ⟨(), assertSupportedNumber_eq_ok.mpr hsafe, congrArg Except.ok (text_num hsafe).symm⟩
  | .arr xs, t => by
    rw [canonicalizeValue, bind_eq_ok]
    constructor
    · rintro ⟨ts, hts, ht⟩
      cases ht
      obtain ⟨hs, rfl⟩ := canonicalizeList_eq_ok.mp hts
      exact ⟨hs, rfl⟩
    · rintro ⟨hs, rfl⟩
      exact ⟨_, canonicalizeList_eq_ok.mpr ⟨hs, rfl⟩, rfl⟩
  | .obj fs, t => by
    have hfields : ∀ p ∈ sortKeys fs, ∀ t,
        canonicalizeValue n p.2 = .ok t ↔ supported p.2 = true ∧ t = (wire n p.2).text := fun p hp _ =>
      canonicalizeFields_eq_ok p ((perm_sortKeys fs).mem_iff.mp hp)
    have hall : (∀ p ∈ sortKeys fs, supported p.2 = true) ↔ supported (.obj fs) = true := by
      rw [supported, supportedFields_eq_all, List.all_eq_true]
      exact forall_congr' fun p => imp_congr_left (perm_sortKeys fs).mem_iff
    rw [canonicalizeValue, canonicalizeFields_eq_map, map_sortKeys, bind_eq_ok, wire_obj]
    constructor
    · rintro ⟨ts, hts, ht⟩
      cases ht
      obtain ⟨hs, rfl⟩ := (mapM_fieldText hfields).mp hts
      exact ⟨hall.mp hs, rfl⟩
    · rintro ⟨hs, rfl⟩
      exact ⟨_, (mapM_fieldText hfields).mpr ⟨hall.mpr hs, rfl⟩, rfl⟩

theorem canonicalizeList_eq_ok : ∀ {xs : List Json} {ts : List (List Char)},
    canonicalizeList n xs = .ok ts ↔ supportedList xs = true ∧ ts = Json.texts (wireList n xs)
  | [], ts => by
    rw [canonicalizeList, Except.ok.injEq]
    exact ⟨fun h => ⟨rfl, h.symm⟩, fun h => h.2.symm⟩
  | x :: xs, ts => by
    rw [canonicalizeList, bind_eq_ok, supportedList, Bool.and_eq_true]
    constructor
    · rintro ⟨t, ht, h⟩
      obtain ⟨rest, hrest, h⟩ := bind_eq_ok.mp h
      cases h
      obtain ⟨hs, rfl⟩ := canonicalizeValue_eq_ok.mp ht
      obtain ⟨hs', rfl⟩ := canonicalizeList_eq_ok.mp hrest
      exact ⟨⟨hs, hs'⟩, rfl⟩
    · rintro ⟨⟨hs, hs'⟩, rfl⟩
      exact ⟨_, canonicalizeValue_eq_ok.mpr ⟨hs, rfl⟩,
        bind_eq_ok.mpr ⟨_, canonicalizeList_eq_ok.mpr ⟨hs', rfl⟩, rfl⟩⟩

theorem canonicalizeFields_eq_ok : ∀ {fs : List (String × Json)}, ∀ p ∈ fs, ∀ {t : List Char},
    canonicalizeValue n p.2 = .ok t ↔ supported p.2 = true ∧ t = (wire n p.2).text
  | (_, v) :: fs, p, hp => by
    rcases List.mem_cons.mp hp with rfl | hp
    · exact canonicalizeValue_eq_ok
    · exact canonicalizeFields_eq_ok p hp

end

theorem canonicalJson_eq_ok {v : Json} {t : List Char} : canonicalJson n v = .ok t ↔
    (∃ fs, v = .obj fs) ∧ supported v = true ∧ t = (wire n v).text := by
  cases v with
  | obj fs =>
    rw [canonicalJson, canonicalizeValue_eq_ok]
    exact ⟨fun h => ⟨⟨fs, rfl⟩, h⟩, fun h => h.2⟩
  | _ => exact ⟨(fun h => by cases h), fun h => by obtain ⟨⟨fs, h⟩, -⟩ := h; cases h⟩

end SimpleL1.Wire
