import SimpleL1.Js.Number

/-!
# Numeric strings

`ofString` is `Number(s)` on a string: trim, then a decimal, hexadecimal, octal
or binary literal. `ofDecimal` rounds a decimal to the nearest double (ties to
even) and returns the number that double prints as; a literal of at most 15
digits in range is that decimal itself.
-/

namespace SimpleL1.Js

/-- White space and line terminators, as `trim` and `Number` skip them. -/
def isWhite (c : Char) : Bool :=
  let n := c.toNat
  (9 ≤ n && n ≤ 13) || n == 0x20 || n == 0xA0 || n == 0x1680 || (0x2000 ≤ n && n ≤ 0x200A) ||
    n == 0x2028 || n == 0x2029 || n == 0x202F || n == 0x205F || n == 0x3000 || n == 0xFEFF

def trimChars (cs : List Char) : List Char :=
  ((cs.dropWhile isWhite).reverse.dropWhile isWhite).reverse

/-- `String.prototype.trim`. -/
def trim (s : String) : String := String.ofList (trimChars s.toList)

theorem dropWhile_head {α : Type*} {p : α → Bool} {l : List α} :
    ∀ a ∈ (l.dropWhile p).head?, p a = false := by
  intro a ha
  have := List.head?_dropWhile_not p l
  rw [Option.mem_def.mp ha] at this
  exact this

theorem dropWhile_eq_self {α : Type*} {p : α → Bool} {l : List α}
    (h : ∀ a ∈ l.head?, p a = false) : l.dropWhile p = l := by
  cases l with
  | nil => rfl
  | cons a l => rw [List.dropWhile_cons_of_neg (by simp [h a rfl])]

theorem trimChars_idem (cs : List Char) : trimChars (trimChars cs) = trimChars cs := by
  have hpre : trimChars cs <+: cs.dropWhile isWhite := by
    rw [← List.reverse_suffix, trimChars, List.reverse_reverse]
    exact List.dropWhile_suffix _
  have hhead : (trimChars cs).dropWhile isWhite = trimChars cs := by
    refine dropWhile_eq_self fun a ha => ?_
    obtain ⟨t, ht⟩ := hpre
    refine dropWhile_head (l := cs) a ?_
    rw [← ht]
    obtain ⟨l, hl⟩ : ∃ l, trimChars cs = a :: l := by
      cases h : trimChars cs with
      | nil => rw [h] at ha; cases ha
      | cons b l => rw [h] at ha; cases ha; exact ⟨l, rfl⟩
    rw [hl]; rfl
  rw [trimChars, hhead, trimChars, List.reverse_reverse, dropWhile_eq_self dropWhile_head]

@[simp] theorem trim_trim (s : String) : trim (trim s) = trim s := by
  simp [trim, trimChars_idem]

theorem trim_of_none {s : String} (h : ∀ c ∈ s.toList, isWhite c = false) : trim s = s := by
  have hself : ∀ cs : List Char, (∀ c ∈ cs, isWhite c = false) → cs.dropWhile isWhite = cs :=
    fun cs hcs => dropWhile_eq_self fun c hc => hcs c (List.mem_of_mem_head? hc)
  unfold trim trimChars
  rw [hself _ h, hself _ fun c hc => h c (List.mem_reverse.mp hc), List.reverse_reverse,
    String.ofList_toList]

namespace Number

def roundHalfEven (num den : Nat) : Nat :=
  let q := num / den
  if den < 2 * (num % den) ∨ (2 * (num % den) = den ∧ q % 2 = 1) then q + 1 else q

/-- `num / den` over `b^e`, as a fraction. -/
def scale (num den b : Nat) (e : Int) : Nat × Nat :=
  if 0 ≤ e then (num, den * b ^ e.toNat) else (num * b ^ (-e).toNat, den)

/-- The double nearest to `num / den` as `m * 2^e`; `none` on overflow. -/
def nearestDouble (num den : Nat) : Option (Nat × Int) :=
  let e0 : Int := (Nat.log2 num : Int) - Nat.log2 den - 53
  let q0 := scale num den 2 e0
  let e := max (if q0.1 / q0.2 < 2 ^ 53 then e0 else e0 + 1) (-1074)
  let q := scale num den 2 e
  let m := roundHalfEven q.1 q.2
  let r := if m = 2 ^ 53 then (2 ^ 52, e + 1) else (m, e)
  if 1024 ≤ r.2 + (Nat.log2 r.1 : Int) then none else some r

/-- The least `j ≤ fuel` with `1 ≤ num * 10^j / den`. -/
def leadingZeros (num den : Nat) : Nat → Nat
  | 0 => 0
  | fuel + 1 => if den ≤ num then 0 else leadingZeros (num * 10) den fuel + 1

/-- The shortest decimal `s * 10^t`, of at most `n + 1` more digits than `k`, that reads as `d`. -/
def shortestFrom (num den : Nat) (p : Int) (d : Nat × Int) : Nat → Nat → Nat × Int
  | k, 0 => (roundHalfEven (scale num den 10 (p - k)).1 (scale num den 10 (p - k)).2, p - k)
  | k, n + 1 =>
    let t := p - k
    let q := scale num den 10 t
    let f := q.1 / q.2
    let reads (s : Nat) : Bool :=
      let r := scale s 1 10 (-t)
      decide (nearestDouble r.1 r.2 = some d)
    let low := if 2 * (q.1 % q.2) ≤ q.2 then (f, f + 1) else (f + 1, f)
    if reads low.1 then (low.1, t)
    else if reads low.2 then (low.2, t)
    else shortestFrom num den p d (k + 1) n

def shortest (d : Nat × Int) : Nat × Int :=
  let q := scale d.1 1 2 (-d.2)
  let p : Int := if q.2 ≤ q.1 then (digits (q.1 / q.2)).length else 1 - leadingZeros q.1 q.2 330
  shortestFrom q.1 q.2 p d 1 16

/-- `exact` after dropping trailing zeros. -/
def normal (neg : Bool) (m : Nat) (e : Int) : Number :=
  let s := stripZeros (digits m).length m
  exact neg s (e + ((digits m).length - (digits s).length))

/-- The number a decimal literal `± m * 10^e` reads as. -/
def ofDecimal (neg : Bool) (m : Nat) (e : Int) : Number :=
  let s := stripZeros (digits m).length m
  let n : Int := (digits s).length
  let t := e + ((digits m).length - n)
  if m = 0 then int 0
  else if n ≤ 15 ∧ -300 ≤ t ∧ t + n ≤ 300 then exact neg s t
  else if 400 ≤ t + n then infinity neg
  else if t + n ≤ -400 then int 0
  else
    match nearestDouble (scale s 1 10 (-t)).1 (scale s 1 10 (-t)).2 with
    | none => infinity neg
    | some d => if d.1 = 0 then int 0 else normal neg (shortest d).1 (shortest d).2

def digitValue (c : Char) : Nat :=
  if c.isDigit then c.toNat - 48
  else if 'a' ≤ c ∧ c ≤ 'z' then c.toNat - 87
  else if 'A' ≤ c ∧ c ≤ 'Z' then c.toNat - 55
  else 36

def ofRadix (b : Nat) (cs : List Char) : Number :=
  if cs ≠ [] ∧ cs.all fun c => decide (digitValue c < b) then
    ofDecimal false (cs.foldl (fun n c => b * n + digitValue c) 0) 0
  else nan

def ofUnsigned (neg : Bool) (cs : List Char) : Number :=
  if cs = "Infinity".toList then infinity neg
  else match readUnsigned cs with
    | some (m, e) => ofDecimal neg m e
    | none => nan

def ofChars : List Char → Number
  | [] => int 0
  | '-' :: cs => ofUnsigned true cs
  | '+' :: cs => ofUnsigned false cs
  | '0' :: c :: cs =>
    if c = 'x' ∨ c = 'X' then ofRadix 16 cs
    else if c = 'o' ∨ c = 'O' then ofRadix 8 cs
    else if c = 'b' ∨ c = 'B' then ofRadix 2 cs
    else ofUnsigned false ('0' :: c :: cs)
  | cs => ofUnsigned false cs

/-- `Number(s)`. -/
def ofString (s : String) : Number := ofChars (trimChars s.toList)

end Number

end SimpleL1.Js
