import SimpleL1.Js.Json

/-!
# Arithmetic on numbers

Sums and multiples are exact: a double would round them. `parseFloat` reads the longest
part of a text, from its start, that is a decimal literal.
-/

namespace SimpleL1.Js

namespace Number

/-- `m / 10^k`. -/
def ofFraction (m : Int) : Nat → Number
  | 0 => int m
  | k + 1 => dec m k

def add (x y : Number) : Number :=
  match x.fraction, y.fraction with
  | some (a, j), some (b, k) => ofFraction (a * 10 ^ k + b * 10 ^ j) (j + k)
  | some _, none => y
  | none, some _ => x
  | none, none => if x = y then x else nan

def neg : Number → Number
  | int m => int (-m)
  | dec m k => dec (-m) k
  | infinity sign => infinity !sign
  | nan => nan

/-- `x * 1000`. -/
def thousandfold (x : Number) : Number :=
  match x.fraction with
  | some (a, j) => ofFraction (a * 1000) j
  | none => x

@[simp] theorem add_int (a b : Int) : add (int a) (int b) = int (a + b) := by
  simp [add, fraction, ofFraction]

/-- The number that the longest readable start of a text spells. -/
def ofStart (neg : Bool) (cs : List Char) : Number :=
  ((cs.inits.reverse.map (ofUnsigned neg)).find? (· ≠ nan)).getD nan

/-- `parseFloat(s)`. -/
def parseFloat (s : String) : Number :=
  match s.toList.dropWhile isWhite with
  | '-' :: cs => ofStart true cs
  | '+' :: cs => ofStart false cs
  | cs => ofStart false cs

end Number

def parseFloat (v : Option Json) : JsM Number := Number.parseFloat <$> toStr v

end SimpleL1.Js
