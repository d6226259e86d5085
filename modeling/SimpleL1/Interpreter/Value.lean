import SimpleL1.Js.Json

/-!
# JSON values in the interpreter

The second implementation reads the same JSON through `serde_json`: `get` finds a
field of an object, `or_else` falls back only where a key is absent, and `as_str`
and its siblings give nothing for a value of another type. A `Value` is a `Json`;
`get` is `prop` and `or_else` is `Option.or`.
-/

namespace SimpleL1.Interpreter

open SimpleL1.Js

/-- `Value::is_object`: an array is none. -/
def isObject : Json → Bool
  | .obj _ => true
  | _ => false

def isNull : Json → Bool
  | .null => true
  | _ => false

def asStr : Json → Option String
  | .str s => some s
  | _ => none

def asBool : Json → Option Bool
  | .bool b => some b
  | _ => none

def asF64 : Json → Option Number
  | .num n => some n
  | _ => none

def asArray : Json → Option (List Json)
  | .arr xs => some xs
  | _ => none

@[simp] theorem isNull_null : isNull .null = true := rfl

@[simp] theorem isNull_obj (fs : Fields) : isNull (.obj fs) = false := rfl

@[simp] theorem asStr_str (s : String) : asStr (.str s) = some s := rfl

@[simp] theorem asF64_num (n : Number) : asF64 (.num n) = some n := rfl

theorem asStr_eq_some {v : Json} {s : String} : asStr v = some s ↔ v = .str s := by
  cases v <;> simp [asStr]

theorem bind_asStr_eq_some {v : Option Json} {s : String} :
    v.bind asStr = some s ↔ v = some (.str s) := by
  cases v <;> simp [asStr_eq_some]

theorem bind_asF64_eq_some {v : Option Json} {n : Number} :
    v.bind asF64 = some n ↔ v = some (.num n) := by
  cases v with
  | none => simp
  | some v => cases v <;> simp [asF64]

/-- `v.get("envelope").filter(is_object)`, else the value itself. -/
def readEnvelope (v : Json) : Json := ((v.prop "envelope").filter isObject).getD v

/-- `char::is_whitespace`: it has U+0085, and U+FEFF is no white space. -/
def isWhitespace (c : Char) : Bool :=
  let n := c.toNat
  (9 ≤ n && n ≤ 13) || n == 0x20 || n == 0x85 || n == 0xA0 || n == 0x1680
    || (0x2000 ≤ n && n ≤ 0x200A) || n == 0x2028 || n == 0x2029 || n == 0x202F || n == 0x205F
    || n == 0x3000

/-- `str::trim`. -/
def strTrim (s : String) : String :=
  String.ofList (((s.toList.dropWhile isWhitespace).reverse.dropWhile isWhitespace).reverse)

theorem strTrim_empty : strTrim "" = "" := by decide

end SimpleL1.Interpreter
