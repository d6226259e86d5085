import SimpleL1.Realm.History
import SimpleL1.Js.Array

/-!
# What the node takes from its platform

Case mapping, Unicode normalisation and the calendar are parameters, beside the
digests of `Host`. On top of them stand the addresses of the identity kernel and
the canonical hashes that name protocol artifacts.
-/

namespace SimpleL1.Node

open SimpleL1.Js

structure Platform extends Realm.Host where
  /-- `toLowerCase` and `toUpperCase`. -/
  lower : String → String
  upper : String → String
  /-- `normalize('NFC')`. -/
  nfc : String → String
  /-- `Date.parse`. -/
  parseDate : String → Number
  /-- `toISOString` of a time value in range. -/
  isoDate : Int → String
  lower_lower : ∀ s, lower (lower s) = lower s
  isoDate_ne_empty : ∀ t, isoDate t ≠ ""

/-! ## Values -/

/-- `v.k`, which throws on `undefined` and `null`. -/
def member (v : Option Json) (k : String) : JsM (Option Json) :=
  match v with
  | none => throw (.typeError ("Cannot read properties of undefined (reading '" ++ k ++ "')"))
  | some .null => throw (.typeError ("Cannot read properties of null (reading '" ++ k ++ "')"))
  | some v => return v.prop k

theorem member_eq_ok {v : Json} {k : String} {a : Option Json} :
    member (some v) k = .ok a ↔ v ≠ .null ∧ a = v.prop k := by
  cases v <;> simp [member, eq_comm] <;> rfl

/-- `v || []` where an array method is called on the result. -/
def arrayOrEmpty (v : Option Json) (method : String) : JsM (List Json) :=
  match v with
  | some (.arr xs) => return xs
  | v => if truthy v then throw (.typeError (method ++ " is not a function")) else return []

/-- `{ ...v }`. -/
def spread : Option Json → Fields
  | some (.str s) => s.toList.zipIdx.map fun p => (Number.toString (.int p.2), .str (String.ofList [p.1]))
  | some v => v.spread
  | none => []

/-- `{ ...fs, k: v }`; a field set to `undefined` reads like an absent one. -/
def assign (fs : Fields) (k : String) (v : Option Json) : Fields :=
  match v with
  | some v => fs.set k v
  | none => fs.filter fun p => p.1 ≠ k

/-- `{ ...fs, ...gs }`. -/
def merge (fs gs : Fields) : Fields := gs.foldl (fun acc p => acc.set p.1 p.2) fs

/-- Reading what no field of the second changes. -/
theorem get_merge_of_agrees {fs gs : Fields} {k : String} {v : Option Json} (h : fs.get k = v)
    (hall : ∀ p ∈ gs, p.1 = k → some p.2 = v) : (merge fs gs).get k = v := by
  unfold merge
  induction gs generalizing fs with
  | nil => exact h
  | cons p gs ih =>
    rw [List.foldl_cons]
    refine ih ?_ fun q hq => hall q (List.mem_cons_of_mem p hq)
    rw [Fields.get_set]
    split
    · next hk => exact hall p List.mem_cons_self hk.symm
    · exact h

/-- `a || b`, where `b` is not `undefined`. -/
def orElse (a : Option Json) (b : Json) : Json := (or a (some b)).getD b

theorem orElse_truthy {e : Option Json} {v : Json} (hv : v.truthy = true) : (orElse e v).truthy = true := by
  unfold orElse Js.or
  split
  · next he =>
    cases e with
    | none => cases he
    | some e => exact he
  · exact hv

theorem orElse_of_truthy {v : Option Json} (h : truthy v = true) (fallback : Json) :
    some (orElse v fallback) = v := by
  cases v with
  | none => cases h
  | some v => rw [orElse, Js.or, if_pos h]; rfl

theorem orElse_of_falsy {v : Option Json} (h : truthy v = false) (fallback : Json) :
    orElse v fallback = fallback := by
  rw [orElse, Js.or, h]
  rfl

/-- `String(e).toLowerCase()` of `e || fallback`. -/
def lowerOf (p : Platform) (e : Option Json) (fallback : String) : JsM String :=
  p.lower <$> toStr (or e (some (.str fallback)))

/-- `s.includes(c)`. -/
def includes (s : String) (c : Char) : Bool := s.toList.contains c

/-- `s.slice(0, n)`. -/
def sliceTo (n : Nat) (s : String) : String := String.ofList (s.toList.take n)

/-- Two operands may be one object only if they have one text; strings and numbers are compared
as `===` does. -/
def sameRef (a b : Option Json) : Bool :=
  strictEq a b || (a.any Json.isObject && b.any Json.isObject && a.map Json.text == b.map Json.text)

/-! ## Dates -/

/-- A time value in the range of `Date`, else `NaN`. -/
def timeClip : Number → Number
  | .int n => if n.natAbs ≤ 8640000000000000 then .int n else .nan
  | .dec m k =>
    if (m.tdiv (10 ^ (k + 1))).natAbs ≤ 8640000000000000 then .int (m.tdiv (10 ^ (k + 1))) else .nan
  | _ => .nan

/-- The time value of `new Date(v)`. -/
def newDate (p : Platform) : Option Json → JsM Number
  | none => return .nan
  | some (.str s) => return timeClip (p.parseDate s)
  | some (.arr xs) => do return timeClip (p.parseDate (← (Json.arr xs).toStr))
  | some (.obj fs) => do return timeClip (p.parseDate (← (Json.obj fs).toStr))
  | some v => timeClip <$> v.toNumber

def toISOString (p : Platform) : Number → JsM String
  | .int t => return p.isoDate t
  | _ => throw (.error "Invalid time value")

/-- `e || now.toISOString()`. -/
def orNow (p : Platform) (e : Option Json) (now : Number) : JsM Json :=
  match e with
  | some v => if v.truthy then return v else Json.str <$> toISOString p now
  | none => Json.str <$> toISOString p now

/-- `new Date(now.getTime() + ms)`. -/
def laterBy (ms : Int) : Number → Number
  | .int t => timeClip (.int (t + ms))
  | _ => .nan

theorem orNow_truthy {p : Platform} {e : Option Json} {now : Number} {v : Json}
    (h : orNow p e now = .ok v) : v.truthy = true := by
  have hiso : ∀ {now : Number} {v : Json}, Json.str <$> toISOString p now = .ok v →
      v.truthy = true := by
    intro now v h
    obtain ⟨s, hs, rfl⟩ := map_eq_ok.mp h
    cases now with
    | int t =>
      cases hs
      simpa [Json.truthy] using p.isoDate_ne_empty t
    | _ => cases hs
  unfold orNow at h
  split at h
  · split at h
    · next hv => cases h; exact hv
    · exact hiso h
  · exact hiso h

/-! ## Addresses -/

def ENTITY_ADDRESS_VERSION : String := "simple-l1:entity:v1"

def KEY_ADDRESS_VERSION : String := "simple-l1:passkey-key:v1"

def isHexDigit (c : Char) : Bool := c.isDigit || ('a' ≤ c && c ≤ 'f')

/-- `/^tag[a-f0-9]{n}$/i`. -/
def matchesAddress (tag : String) (n : Nat) (s : String) : Bool :=
  let cs := s.toList.map Char.toLower
  cs.take tag.length == tag.toList && (cs.drop tag.length).length == n
    && (cs.drop tag.length).all isHexDigit

def normalizeAddress (p : Platform) (tag : String) (n : Nat) : Option Json → Option String
  | some (.str s) =>
    let normalized := p.lower (trim s)
    if matchesAddress tag n normalized then some normalized else none
  | _ => none

def normalizeEntityAddress (p : Platform) (address : Option Json) : Option String :=
  normalizeAddress p "sl1e_" 39 address

def normalizeKeyAddress (p : Platform) (address : Option Json) : Option String :=
  normalizeAddress p "sl1_" 40 address

def assertEntityAddress (p : Platform) (address : Option Json) : JsM String :=
  match normalizeEntityAddress p address with
  | some normalized => return normalized
  | none => throw (.error "entity_l1_address must be an sl1e_ v1 entity address")

def assertKeyAddress (p : Platform) (address : Option Json) : JsM String :=
  match normalizeKeyAddress p address with
  | some normalized => return normalized
  | none => throw (.error "proof_key_l1_address must be an sl1_ v1 key address")

/-- `a ? identity.assertEntityAddress(a) : null`. -/
def entityAddressOrNull (p : Platform) (address : Option Json) : JsM Json :=
  if truthy address then Json.str <$> assertEntityAddress p address else return .null

def keyAddressOrNull (p : Platform) (address : Option Json) : JsM Json :=
  if truthy address then Json.str <$> assertKeyAddress p address else return .null

def keyAddressFromPublicKey (p : Platform) (publicKey : Option Json) : JsM String :=
  if truthy publicKey then
    (fun s => "sl1_" ++ sliceTo 40 (p.sha256 s)) <$> toStr publicKey
  else throw (.error "publicKey is required to derive an SL1 key address")

def systemEntityAddress (p : Platform) (seed : String) : String :=
  "sl1e_" ++ sliceTo 39 (p.sha256 (ENTITY_ADDRESS_VERSION ++ ":" ++ seed))

def controllerBindingId (p : Platform) (entityAddress keyAddress : String)
    (credentialId : Option Json) : JsM String :=
  (fun s => "cb_" ++ sliceTo 20 (p.sha256 (entityAddress ++ ":" ++ keyAddress ++ ":" ++ s)))
    <$> toStr credentialId

/-! ## Protocol artifacts -/

/-- The number a key is, where it is an array index: such keys come first in an object. -/
def arrayIndex (key : String) : Option Nat :=
  match key.toList with
  | [] => none
  | c :: cs =>
    if c.isDigit then
      let n := Nat.ofDigitChars 10 (c :: cs) 0
      if Number.digits n = c :: cs ∧ n < 2 ^ 32 - 1 then some n else none
    else none

/-- The fields of an object in the order they are enumerated. -/
def enumerated (fs : Fields) : Fields :=
  (fs.filter fun f => (arrayIndex f.1).isSome).insertionSort
    (fun f g => (arrayIndex f.1).getD 0 ≤ (arrayIndex g.1).getD 0) ++
      fs.filter fun f => (arrayIndex f.1).isNone

/-- An object that is built, its own fields in the order they were set; and whether setting
`__proto__` sets its prototype, which it does until the prototype is one without that accessor. -/
structure Accumulator where
  fields : Fields
  accessor : Bool

/-- `acc[k] = v`, where `accessor` is that of the value. -/
def Accumulator.assign (acc : Accumulator) (k : String) (v : Json) (accessor : Bool) : Accumulator :=
  if acc.accessor && k = "__proto__" then
    match v with
    | .null => { acc with accessor := false }
    | .arr _ | .obj _ => { acc with accessor }
    | _ => acc
  else { acc with fields := acc.fields.set k v }

mutual

/-- Strings and keys in normal form C, keys in order; with the accessor of the value. -/
def canonical (p : Platform) : Json → Json × Bool
  | .arr xs => (.arr (canonicalAll p xs), true)
  | .str s => (.str (p.nfc s), true)
  | .obj fs =>
    let acc := (sortFields (canonicalFields p fs)).foldl (fun acc f => acc.assign (p.nfc f.1) f.2.1 f.2.2)
      (Accumulator.mk [] true)
    (.obj (enumerated acc.fields), acc.accessor)
  | v => (v, true)

def canonicalAll (p : Platform) : List Json → List Json
  | [] => []
  | x :: xs => (canonical p x).1 :: canonicalAll p xs

def canonicalFields (p : Platform) : List (String × Json) → List (String × Json × Bool)
  | [] => []
  | (k, v) :: fs => (k, canonical p v) :: canonicalFields p fs

end

def canonicalize (p : Platform) (value : Json) : Json := (canonical p value).1

def canonicalJson (p : Platform) (value : Json) : String :=
  String.ofList (canonicalize p value).text

def hashObject (p : Platform) (value : Json) : String := p.sha256 (canonicalJson p value)

def artifactId (p : Platform) (tag : String) (value : Json) (length : Nat) : String :=
  tag ++ "_" ++ sliceTo length (hashObject p value)

/-- `e || artifactId(tag, value, length)`. -/
def orArtifactId (p : Platform) (e : Option Json) (tag : String) (value : Json) (length : Nat) :
    Json :=
  orElse e (.str (artifactId p tag value length))

end SimpleL1.Node
