import Mathlib.Data.Nat.Log
import Mathlib.Tactic.Ring

/-!
# JavaScript numbers

A finite number is kept as the decimal it prints as: `int n`, or `dec m k` for
`m / 10^(k+1)`. A double is determined by its shortest decimal, so equality and
printing are exact; `-0` and `0` are one value. `ofDecimal` rounds a decimal
literal to the nearest double and back to its shortest decimal. `succ` is exact
on the integers below `2^53`, which bounds every sequence number of a log (an
array holds fewer than `2^32` entries).
-/

namespace SimpleL1.Js

inductive Number where
  | nan
  | infinity (neg : Bool)
  | int (n : Int)
  | dec (m : Int) (k : Nat)
  deriving DecidableEq, Repr

namespace Number

def isFinite : Number → Bool
  | int _ | dec .. => true
  | _ => false

def isInteger : Number → Bool
  | int _ => true
  | _ => false

/-- `Boolean(x)` on numbers. -/
def truthy : Number → Bool
  | nan => false
  | int n => n != 0
  | _ => true

/-- `x < 1`. -/
def ltOne : Number → Bool
  | nan => false
  | infinity neg => neg
  | int n => decide (n < 1)
  | dec m k => decide (m < 10 ^ (k + 1))

/-- A finite number as `m / 10^k`. -/
def fraction : Number → Option (Int × Nat)
  | int n => some (n, 0)
  | dec m k => some (m, k + 1)
  | _ => none

/-- `x < y`. -/
def lt (x y : Number) : Bool :=
  match x.fraction, y.fraction with
  | some (a, j), some (b, k) => decide (a * 10 ^ k < b * 10 ^ j)
  | some _, none => y = infinity false
  | none, some _ => x = infinity true
  | none, none => x = infinity true && y = infinity false

/-- `x <= y`. -/
def le (x y : Number) : Bool := x ≠ nan && y ≠ nan && !lt y x

/-- `x + 1`. -/
def succ : Number → Number
  | int n => int (n + 1)
  | dec m k => dec (m + 10 ^ (k + 1)) k
  | x => x

@[simp] theorem int_lt_int (m n : Int) : (int m).lt (int n) = decide (m < n) := by
  simp [lt, fraction]

@[simp] theorem int_le_int (m n : Int) : (int m).le (int n) = decide (m ≤ n) := by
  by_cases h : m ≤ n
  · simp [le, h]
  · simp [le, h, Int.not_le.mp h]

theorem cross_lt {a b c : Int} {j k l : Nat} (h : ¬ b * 10 ^ j < a * 10 ^ k)
    (h' : b * 10 ^ l < c * 10 ^ k) : a * 10 ^ l < c * 10 ^ j := by
  have hj : (0 : Int) < 10 ^ j := Int.pow_pos (by decide)
  have hk : (0 : Int) < 10 ^ k := Int.pow_pos (by decide)
  have hl : (0 : Int) < 10 ^ l := Int.pow_pos (by decide)
  have hle : a * 10 ^ k * 10 ^ l ≤ b * 10 ^ j * 10 ^ l :=
    Int.mul_le_mul_of_nonneg_right (Int.not_lt.mp h) (Int.le_of_lt hl)
  have hlt : b * 10 ^ l * 10 ^ j < c * 10 ^ k * 10 ^ j := Int.mul_lt_mul_of_pos_right h' hj
  refine Int.lt_of_mul_lt_mul_right (a := 10 ^ k) ?_ (Int.le_of_lt hk)
  calc a * 10 ^ l * 10 ^ k = a * 10 ^ k * 10 ^ l := Int.mul_right_comm ..
    _ ≤ b * 10 ^ j * 10 ^ l := hle
    _ = b * 10 ^ l * 10 ^ j := Int.mul_right_comm ..
    _ < c * 10 ^ k * 10 ^ j := hlt
    _ = c * 10 ^ j * 10 ^ k := Int.mul_right_comm ..

theorem eq_of_lt {x y : Number} (h : x.fraction = none) (hlt : x.lt y = true) :
    x = infinity true := by
  unfold lt at hlt
  rw [h] at hlt
  cases hfy : y.fraction <;> simp_all

theorem lt_of_le_of_lt {x y z : Number} (hxy : x.le y = true) (hyz : y.lt z = true) :
    x.lt z = true := by
  unfold le at hxy
  simp only [Bool.and_eq_true, decide_eq_true_eq, Bool.not_eq_true'] at hxy
  obtain ⟨⟨hx, -⟩, hnot⟩ := hxy
  cases hfx : x.fraction with
  | none =>
    -- `x` is the negative infinity, as `y` is not below it.
    have hinf : x = infinity true := by
      cases x with
      | nan => exact absurd rfl hx
      | infinity neg =>
        cases neg with
        | true => rfl
        | false =>
          cases hfy : y.fraction with
          | none =>
            rw [eq_of_lt hfy hyz] at hnot
            cases hnot
          | some q =>
            unfold lt at hnot
            rw [hfy] at hnot
            cases hnot
      | int n => cases hfx
      | dec m k => cases hfx
    unfold lt at hyz ⊢
    rw [hfx]
    cases hfz : z.fraction with
    | none =>
      cases hfy : y.fraction <;> simp_all
    | some q => exact decide_eq_true hinf
  | some q =>
    unfold lt at hnot hyz ⊢
    rw [hfx] at hnot ⊢
    cases hfy : y.fraction with
    | none =>
      rw [hfy] at hnot hyz
      cases hfz : z.fraction <;> simp_all
    | some r =>
      rw [hfy] at hnot hyz
      cases hfz : z.fraction with
      | none =>
        rw [hfz] at hyz
        exact hyz
      | some t =>
        rw [hfz] at hyz
        exact decide_eq_true (cross_lt (of_decide_eq_false hnot) (of_decide_eq_true hyz))

/-! ## Printing -/

abbrev digits (n : Nat) : List Char := Nat.toDigits 10 n

def signChars (m : Int) : List Char := if m < 0 then ['-'] else []

def padLeft (n : Nat) (cs : List Char) : List Char := List.replicate (n - cs.length) '0' ++ cs

/-- Drop the trailing zeros of `n`, at most `fuel` of them. -/
def stripZeros : Nat → Nat → Nat
  | 0, n => n
  | fuel + 1, n => if n % 10 = 0 then stripZeros fuel (n / 10) else n

def exponentChars (e : Int) : List Char :=
  'e' :: (if e < 0 then '-' else '+') :: digits e.natAbs

/-- `d.ddde±x` with the digits `ds` and the decimal exponent `e`. -/
def scientific (ds : List Char) (e : Int) : List Char :=
  match ds with
  | [] => []
  | [d] => d :: exponentChars e
  | d :: ds => d :: '.' :: ds ++ exponentChars e

/-- `Number::toString`. -/
def chars : Number → List Char
  | nan => ['N', 'a', 'N']
  | infinity neg => (if neg then ['-'] else []) ++ "Infinity".toList
  | int n =>
    let a := n.natAbs
    signChars n ++
      if a < 10 ^ 21 then digits a
      else scientific (digits (stripZeros (digits a).length a)) ((digits a).length - 1)
  | dec m k =>
    let a := m.natAbs
    signChars m ++
      if (digits a).length + 5 ≤ k then scientific (digits a) ((digits a).length - 1 - (k + 1 : Int))
      else digits (a / 10 ^ (k + 1)) ++ '.' :: padLeft (k + 1) (digits (a % 10 ^ (k + 1)))

def toString (x : Number) : String := String.ofList x.chars

/-! ## Reading decimals -/

def takeDigits (cs : List Char) : List Char × List Char :=
  (cs.takeWhile Char.isDigit, cs.dropWhile Char.isDigit)

def readExponent : List Char → Option Int
  | [] => some 0
  | c :: cs =>
    if c = 'e' ∨ c = 'E' then
      match cs with
      | '-' :: ds => if ds ≠ [] ∧ ds.all Char.isDigit then some (-(Nat.ofDigitChars 10 ds 0 : Int)) else none
      | '+' :: ds => if ds ≠ [] ∧ ds.all Char.isDigit then some (Nat.ofDigitChars 10 ds 0 : Int) else none
      | ds => if ds ≠ [] ∧ ds.all Char.isDigit then some (Nat.ofDigitChars 10 ds 0 : Int) else none
    else none

def takeFraction : List Char → List Char × List Char
  | '.' :: r => takeDigits r
  | r => ([], r)

/-- An unsigned decimal literal as `(m, e)` for `m * 10^e`. -/
def readUnsigned (cs : List Char) : Option (Nat × Int) :=
  let i := (takeDigits cs).1
  let f := (takeFraction (takeDigits cs).2).1
  if i = [] ∧ f = [] then none
  else (readExponent (takeFraction (takeDigits cs).2).2).map fun e =>
    (Nat.ofDigitChars 10 (i ++ f) 0, e - f.length)

/-- The exact value `± m * 10^e`. -/
def exact (neg : Bool) (m : Nat) (e : Int) : Number :=
  let s : Int := if neg then -m else m
  if 0 ≤ e then int (s * 10 ^ e.toNat) else dec s ((-e).toNat - 1)

/-- A decimal literal, signed. -/
def readSigned : List Char → Option Number
  | '-' :: cs => (readUnsigned cs).map fun p => exact true p.1 p.2
  | cs => (readUnsigned cs).map fun p => exact false p.1 p.2

/-! ## Printing is injective -/

theorem digits_all (n : Nat) : ∀ c ∈ digits n, c.isDigit = true :=
  fun _ hc => Nat.isDigit_of_mem_toDigits (by decide) (by decide) hc

theorem padLeft_all {n : Nat} {cs : List Char} (h : ∀ c ∈ cs, c.isDigit = true) :
    ∀ c ∈ padLeft n cs, c.isDigit = true := by
  intro c hc
  rcases List.mem_append.mp hc with hc | hc
  · rw [(List.mem_replicate.mp hc).2]; rfl
  · exact h c hc

theorem takeDigits_append (ds r : List Char) (h : ∀ c ∈ ds, c.isDigit = true)
    (hr : ∀ c ∈ r.head?, c.isDigit = false) : takeDigits (ds ++ r) = (ds, r) := by
  have hr' : r.takeWhile Char.isDigit = [] ∧ r.dropWhile Char.isDigit = r := by
    cases r with
    | nil => simp
    | cons c r => simp [hr c rfl]
  rw [takeDigits, List.takeWhile_append_of_pos h, List.dropWhile_append_of_pos h, hr'.1, hr'.2,
    List.append_nil]

theorem takeDigits_all {ds : List Char} (h : ∀ c ∈ ds, c.isDigit = true) :
    takeDigits ds = (ds, []) := by
  simpa using takeDigits_append ds [] h (by simp)

theorem readExponent_exponentChars (e : Int) : readExponent (exponentChars e) = some e := by
  have hall : (digits e.natAbs).all Char.isDigit = true := List.all_eq_true.mpr (digits_all _)
  have hne : digits e.natAbs ≠ [] := Nat.toDigits_ne_nil
  have hif : ∀ z : Int, (if digits e.natAbs ≠ [] ∧ (digits e.natAbs).all Char.isDigit = true
      then some z else none) = some z := fun z => if_pos ⟨hne, hall⟩
  have hv : Nat.ofDigitChars 10 (digits e.natAbs) 0 = e.natAbs := Nat.ofDigitChars_ten_toDigits
  unfold exponentChars
  by_cases he : e < 0
  · rw [if_pos he, readExponent, if_pos (.inl rfl), hv]
    exact (hif _).trans (congrArg some (by omega))
  · rw [if_neg he, readExponent, if_pos (.inl rfl), hv]
    exact (hif _).trans (congrArg some (by omega))

theorem readUnsigned_digits (a : Nat) : readUnsigned (digits a) = some (a, 0) := by
  have hne : digits a ≠ [] := Nat.toDigits_ne_nil
  simp [readUnsigned, takeDigits_all (digits_all a), takeFraction, hne, readExponent]

theorem readUnsigned_scientific {ds : List Char} (hne : ds ≠ []) (h : ∀ c ∈ ds, c.isDigit = true)
    (e : Int) :
    readUnsigned (scientific ds e) = some (Nat.ofDigitChars 10 ds 0, e - (ds.length - 1)) := by
  have he : ∀ c ∈ (exponentChars e).head?, c.isDigit = false := by
    intro c hc; cases hc; rfl
  match ds, hne with
  | [d], _ =>
    have hd := takeDigits_append [d] (exponentChars e) h he
    simp only [List.cons_append, List.nil_append] at hd
    have hf : takeFraction (exponentChars e) = ([], exponentChars e) := rfl
    simp only [readUnsigned, scientific, hd, hf, readExponent_exponentChars]
    simp
  | d :: d' :: ds, _ =>
    have hd := takeDigits_append [d] ('.' :: (d' :: ds) ++ exponentChars e)
      (fun c hc => h c (by simp_all)) (by intro c hc; cases hc; rfl)
    have hds := takeDigits_append (d' :: ds) (exponentChars e)
      (fun c hc => h c (List.mem_cons_of_mem _ hc)) he
    simp only [List.cons_append, List.nil_append] at hd hds
    simp only [readUnsigned, scientific, List.cons_append, hd, takeFraction, hds,
      readExponent_exponentChars]
    simp

theorem length_padLeft {n : Nat} {cs : List Char} (h : cs.length ≤ n) : (padLeft n cs).length = n := by
  simp only [padLeft, List.length_append, List.length_replicate]; omega

theorem ofDigitChars_padLeft (n r : Nat) : Nat.ofDigitChars 10 (padLeft n (digits r)) 0 = r := by
  rw [padLeft, Nat.ofDigitChars_append]; simp

theorem readUnsigned_point (a k : Nat) :
    readUnsigned (digits (a / 10 ^ (k + 1)) ++ '.' :: padLeft (k + 1) (digits (a % 10 ^ (k + 1)))) =
      some (a, -(k + 1 : Int)) := by
  have hlt : a % 10 ^ (k + 1) < 10 ^ (k + 1) := Nat.mod_lt _ (Nat.pow_pos (by decide))
  have hlen : (padLeft (k + 1) (digits (a % 10 ^ (k + 1)))).length = k + 1 :=
    length_padLeft ((Nat.length_toDigits_le_iff (by decide) (by omega)).mpr hlt)
  have hne : digits (a / 10 ^ (k + 1)) ≠ [] := Nat.toDigits_ne_nil
  have hi := takeDigits_append (digits (a / 10 ^ (k + 1)))
    ('.' :: padLeft (k + 1) (digits (a % 10 ^ (k + 1)))) (digits_all _) (by intro c hc; cases hc; rfl)
  have hf := takeDigits_all (padLeft_all (n := k + 1) (digits_all (a % 10 ^ (k + 1))))
  simp only [readUnsigned, hi, takeFraction, hf, hne, false_and, ↓reduceIte, readExponent,
    Option.map_some, hlen, Option.some.injEq, Prod.mk.injEq]
  refine ⟨?_, by push_cast; ring⟩
  rw [Nat.ofDigitChars_append, Nat.ofDigitChars_eq_ofDigitChars_zero, hlen, ofDigitChars_padLeft,
    Nat.ofDigitChars_ten_toDigits, Nat.div_add_mod]

theorem stripZeros_spec (fuel : Nat) {n : Nat} (hn : 0 < n) :
    ∃ t, n = stripZeros fuel n * 10 ^ t ∧
      (digits n).length = (digits (stripZeros fuel n)).length + t := by
  induction fuel generalizing n with
  | zero => exact ⟨0, by simp [stripZeros]⟩
  | succ fuel ih =>
    unfold stripZeros
    split
    · next h0 =>
      obtain ⟨t, ht, hl⟩ := ih (n := n / 10) (by omega)
      refine ⟨t + 1, ?_, ?_⟩
      · rw [pow_succ, ← Nat.mul_assoc, ← ht]; omega
      · have hd : digits n = digits (n / 10) ++ [(n % 10).digitChar] :=
          Nat.toDigits_of_base_le (by decide) (by omega)
        rw [hd, List.length_append, hl]; simp; omega
    · exact ⟨0, by simp⟩

/-- The sign and the magnitude of a printed number, as `exact` puts them together. -/
theorem exact_neg_natAbs {n : Int} : (if n < 0 then -(n.natAbs : Int) else n.natAbs) = n := by
  split <;> omega

theorem readSigned_sign {n : Int} {cs : List Char} (h : ∀ c ∈ cs.head?, c ≠ '-') :
    readSigned (signChars n ++ cs) = (readUnsigned cs).map fun p => exact (decide (n < 0)) p.1 p.2 := by
  unfold signChars
  by_cases hn : n < 0
  · simp [hn, readSigned]
  · simp only [hn, ↓reduceIte, List.nil_append, decide_false]
    unfold readSigned
    split
    · next r => exact absurd rfl (h '-' rfl)
    · rfl

theorem head_digits_append {n : Nat} {r : List Char} : ∀ c ∈ (digits n ++ r).head?, c ≠ '-' := by
  intro c hc
  have hne : digits n ≠ [] := Nat.toDigits_ne_nil
  obtain ⟨d, ds, hd⟩ := List.exists_cons_of_ne_nil hne
  rw [hd] at hc; cases hc
  rintro rfl
  have := digits_all n '-' (by rw [hd]; exact List.mem_cons_self)
  simp at this

theorem head_scientific {ds : List Char} (h : ∀ c ∈ ds, c.isDigit = true) (e : Int) :
    ∀ c ∈ (scientific ds e).head?, c ≠ '-' := by
  intro c hc
  match ds with
  | [] => simp [scientific] at hc
  | [d] | d :: d' :: ds =>
    simp only [scientific, List.cons_append, List.head?_cons, Option.mem_def, Option.some.injEq] at hc
    subst hc
    rintro rfl
    have := h '-' List.mem_cons_self
    simp at this

theorem readSigned_chars {x : Number} (hx : x.isFinite = true) : readSigned x.chars = some x := by
  cases x with
  | nan => cases hx
  | infinity => cases hx
  | int n =>
    simp only [chars]
    split
    · rw [readSigned_sign (by simpa using head_digits_append (r := [])), readUnsigned_digits]
      simp only [Option.map_some, exact, Int.le_refl, ↓reduceIte, decide_eq_true_eq,
        exact_neg_natAbs, Int.toNat_zero, pow_zero, mul_one]
    · next hlt =>
      have hpos : 0 < n.natAbs := by omega
      obtain ⟨t, ht, hl⟩ := stripZeros_spec (digits n.natAbs).length hpos
      rw [readSigned_sign (head_scientific (digits_all _) _),
        readUnsigned_scientific Nat.toDigits_ne_nil (digits_all _)]
      simp only [Nat.ofDigitChars_ten_toDigits, Option.map_some, Option.some.injEq]
      generalize stripZeros (digits n.natAbs).length n.natAbs = s at ht hl ⊢
      have he : ((digits n.natAbs).length : Int) - 1 - ((digits s).length - 1) = t := by omega
      rw [he, exact, if_pos (by omega), Int.toNat_natCast, Number.int.injEq]
      have hs : (s : Int) * 10 ^ t = n.natAbs := by rw [ht]; push_cast; rfl
      by_cases hn : n < 0
      · simp only [hn, decide_true, ↓reduceIte]; rw [neg_mul, hs]; omega
      · simp only [hn, decide_false, Bool.false_eq_true, ↓reduceIte]; rw [hs]; omega
  | dec m k =>
    have hk : ∀ e : Int, e = -(k + 1 : Int) →
        exact (decide (m < 0)) m.natAbs e = dec m k := by
      rintro e rfl
      rw [exact, if_neg (by omega)]
      simp only [decide_eq_true_eq, exact_neg_natAbs, Number.dec.injEq, true_and]
      omega
    simp only [chars]
    split
    · rw [readSigned_sign (head_scientific (digits_all _) _),
        readUnsigned_scientific Nat.toDigits_ne_nil (digits_all _)]
      simp only [Nat.ofDigitChars_ten_toDigits, Option.map_some, Option.some.injEq]
      exact hk _ (by ring)
    · rw [readSigned_sign head_digits_append, readUnsigned_point]
      simp only [Option.map_some, Option.some.injEq]
      exact hk _ rfl

theorem chars_injective {x y : Number} (hx : x.isFinite = true) (hy : y.isFinite = true)
    (h : x.chars = y.chars) : x = y :=
  Option.some.inj (by rw [← readSigned_chars hx, h, readSigned_chars hy])

/-- The characters a finite number prints with. -/
def isNumChar (c : Char) : Bool := c.isDigit || c == '-' || c == '+' || c == '.' || c == 'e'

theorem isNumChar_of_digit {c : Char} (h : c.isDigit = true) : isNumChar c = true := by
  simp [isNumChar, h]

theorem chars_numChar {x : Number} (hx : x.isFinite = true) : ∀ c ∈ x.chars, isNumChar c = true := by
  have hsign : ∀ n : Int, ∀ c ∈ signChars n, isNumChar c = true := by
    intro n c hc; unfold signChars at hc; split at hc <;> simp_all [isNumChar]
  have hexp : ∀ e : Int, ∀ c ∈ exponentChars e, isNumChar c = true := by
    intro e c hc
    simp only [exponentChars, List.mem_cons] at hc
    rcases hc with rfl | rfl | hc
    · rfl
    · split <;> rfl
    · exact isNumChar_of_digit (digits_all _ c hc)
  have hsci : ∀ ds : List Char, ∀ e : Int, (∀ c ∈ ds, c.isDigit = true) →
      ∀ c ∈ scientific ds e, isNumChar c = true := by
    intro ds e h c hc
    match ds with
    | [] => simp [scientific] at hc
    | [d] =>
      rcases List.mem_cons.mp hc with rfl | hc
      · exact isNumChar_of_digit (h _ (by simp))
      · exact hexp e c hc
    | d :: d' :: ds =>
      simp only [scientific, List.cons_append, List.mem_cons, List.mem_append] at hc
      rcases hc with rfl | rfl | rfl | hc | hc
      · exact isNumChar_of_digit (h _ (by simp))
      · rfl
      · exact isNumChar_of_digit (h _ (by simp))
      · exact isNumChar_of_digit (h _ (by simp [hc]))
      · exact hexp e c hc
  cases x with
  | nan => cases hx
  | infinity => cases hx
  | int n =>
    intro c hc
    rcases List.mem_append.mp hc with hc | hc
    · exact hsign n c hc
    · split at hc
      · exact isNumChar_of_digit (digits_all _ c hc)
      · exact hsci _ _ (digits_all _) c hc
  | dec m k =>
    intro c hc
    rcases List.mem_append.mp hc with hc | hc
    · exact hsign m c hc
    · split at hc
      · exact hsci _ _ (digits_all _) c hc
      · rcases List.mem_append.mp hc with hc | hc
        · exact isNumChar_of_digit (digits_all _ c hc)
        · rcases List.mem_cons.mp hc with rfl | hc
          · rfl
          · exact isNumChar_of_digit (padLeft_all (digits_all _) c hc)

theorem chars_ne_nil {x : Number} (hx : x.isFinite = true) : x.chars ≠ [] := by
  intro h
  have := readSigned_chars hx
  rw [h] at this
  cases this

end Number

end SimpleL1.Js
