import SimpleL1.Js.NumericString

/-!
# JSON values under JavaScript's operators

`Json` is a JavaScript value that came out of `JSON.parse` or was built from
such values; `undefined` is `none`, so an expression has the type `Option Json`.
Objects list their fields in insertion order. Strings are Lean strings (no lone
surrogates). The operators are the ones the realm code uses: property reads,
`||`, `??`, `===`, `String(x)`, `Number(x)` and spread.
-/

namespace SimpleL1.Js

/-- A thrown exception, with its `message`. -/
inductive Error where
  | typeError (message : String)
  | error (message : String)
  deriving DecidableEq, Repr

def Error.message : Error → String
  | typeError m | error m => m

abbrev JsM := Except Error

/-! ## Completed computations -/

theorem bind_eq_ok {α β : Type} {x : JsM α} {f : α → JsM β} {b : β} :
    x >>= f = .ok b ↔ ∃ a, x = .ok a ∧ f a = .ok b := by
  cases x with
  | error e => exact ⟨(fun h => by cases h), fun ⟨_, h, _⟩ => by cases h⟩
  | ok a => exact ⟨fun h => ⟨a, rfl, h⟩, fun ⟨_, h, hf⟩ => by cases h; exact hf⟩

theorem map_eq_ok {α β : Type} {x : JsM α} {f : α → β} {b : β} :
    f <$> x = .ok b ↔ ∃ a, x = .ok a ∧ f a = b := by
  cases x with
  | error e => exact ⟨(fun h => by cases h), fun ⟨_, h, _⟩ => by cases h⟩
  | ok a =>
    exact ⟨fun h => ⟨a, rfl, Except.ok.inj h⟩, fun ⟨_, h, hf⟩ => by cases h; exact congrArg _ hf⟩

@[simp] theorem ok_bind {α β : Type} (a : α) (f : α → JsM β) : (Except.ok a >>= f) = f a := rfl

@[simp] theorem error_bind {α β : Type} (e : Error) (f : α → JsM β) :
    ((Except.error e : JsM α) >>= f) = .error e := rfl

@[simp] theorem map_ok {α β : Type} (f : α → β) (a : α) :
    Except.map f (.ok a : JsM α) = .ok (f a) := rfl

@[simp] theorem pure_eq_ok {α : Type} (a : α) : (pure a : JsM α) = .ok a := rfl

theorem ite_bind {α β : Type} {c : Prop} [Decidable c] (x y : JsM α) (f : α → JsM β) :
    (if c then x >>= f else y >>= f) = (if c then x else y) >>= f := by
  split <;> rfl

/-- `if (!c) throw e`. -/
def throwUnless (c : Bool) (e : Error) : JsM Unit := if c then .ok () else .error e

@[simp] theorem throwUnless_true (e : Error) : throwUnless true e = .ok () := rfl

theorem throwUnless_eq_ok {c : Bool} {e : Error} {u : Unit} :
    throwUnless c e = .ok u ↔ c = true := by
  cases c with
  | false => exact ⟨nofun, nofun⟩
  | true => exact ⟨fun _ => rfl, fun _ => rfl⟩

theorem throwUnless_bind_eq_ok {α : Type} {c : Bool} {e : Error} {f : Unit → JsM α} {a : α} :
    throwUnless c e >>= f = .ok a ↔ c = true ∧ f () = .ok a := by
  cases c with
  | false => exact ⟨nofun, nofun⟩
  | true => exact ⟨fun h => ⟨rfl, h⟩, fun h => h.2⟩

inductive Json where
  | null
  | bool (b : Bool)
  | num (n : Number)
  | str (s : String)
  | arr (xs : List Json)
  | obj (fields : List (String × Json))
  deriving Repr

/-- The own properties of an object. -/
abbrev Fields := List (String × Json)

instance : Inhabited Json := ⟨.null⟩

namespace Fields

/-- `fs[k]`. -/
def get (fs : Fields) (k : String) : Option Json := fs.lookup k

/-- `fs[k] = v`. -/
def set : Fields → String → Json → Fields
  | [], k, v => [(k, v)]
  | (k', v') :: fs, k, v => if k' = k then (k, v) :: fs else (k', v') :: set fs k v

/-- An object literal; a field whose value is `undefined` reads like an absent one. -/
def ofOptions (fs : List (String × Option Json)) : Fields :=
  fs.filterMap fun p => p.2.map (p.1, ·)

@[simp] theorem get_nil (k : String) : get [] k = none := rfl

@[simp] theorem get_cons (k k' : String) (v : Json) (fs : Fields) :
    get ((k', v) :: fs) k = if k = k' then some v else get fs k := by
  by_cases h : k = k'
  · simp [get, h]
  · have hk : (k == k') = false := beq_false_of_ne h
    simp only [get, List.lookup_cons, hk, h, if_false]

@[simp] theorem get_ofOptions_nil (k : String) : get (ofOptions []) k = none := rfl

@[simp] theorem get_ofOptions_cons (k k' : String) (v : Option Json)
    (fs : List (String × Option Json)) :
    get (ofOptions ((k', v) :: fs)) k =
      if k = k' then v.or (get (ofOptions fs) k) else get (ofOptions fs) k := by
  cases v with
  | none => simp [ofOptions]
  | some v => simp [ofOptions]

theorem get_set (fs : Fields) (k k' : String) (v : Json) :
    (fs.set k v).get k' = if k' = k then some v else fs.get k' := by
  induction fs with
  | nil => simp [set]
  | cons p fs ih =>
    obtain ⟨k0, v0⟩ := p
    by_cases h : k0 = k
    · subst h; by_cases h' : k' = k0 <;> simp [set, h']
    · by_cases h' : k' = k0
      · subst h'; simp [set, h]
      · simp [set, h, h', ih]

end Fields

namespace Json

/-- `v.k`: only objects have properties of the names the code reads. -/
def prop : Json → String → Option Json
  | obj fs, k => Fields.get fs k
  | _, _ => none

@[simp] theorem prop_obj (fs : Fields) (k : String) : (obj fs).prop k = fs.get k := rfl

/-- `v && typeof v === 'object'`. -/
def isObject : Json → Bool
  | arr _ | obj _ => true
  | _ => false

def isArray : Json → Bool
  | arr _ => true
  | _ => false

def truthy : Json → Bool
  | null => false
  | bool b => b
  | num n => n.truthy
  | str s => s ≠ ""
  | arr _ | obj _ => true

/-- `{ ...v }` of an object or an array. -/
def spread : Json → Fields
  | obj fs => fs
  | arr xs => xs.zipIdx.map fun p => (Number.toString (.int p.2), p.1)
  | _ => []

@[simp] theorem spread_obj (fs : Fields) : (obj fs).spread = fs := rfl

/-- No own `toString` hides the inherited one. -/
def hasOwnToString (fs : Fields) : Bool := (fs.get "toString").isSome

def primitiveError : Error := .typeError "Cannot convert object to primitive value"

mutual

/-- `String(v)`. -/
def toStr : Json → JsM String
  | null => .ok "null"
  | bool b => .ok (if b then "true" else "false")
  | num n => .ok n.toString
  | str s => .ok s
  | arr xs => (elemStrs xs).map (String.intercalate ",")
  | obj fs => if hasOwnToString fs then .error primitiveError else .ok "[object Object]"

/-- The texts `Array.prototype.join` puts together. -/
def elemStrs : List Json → JsM (List String)
  | [] => .ok []
  | null :: xs => (elemStrs xs).map ("" :: ·)
  | x :: xs => do
    let s ← toStr x
    let ss ← elemStrs xs
    .ok (s :: ss)

end

/-- `Number(v)`. -/
def toNumber : Json → JsM Number
  | null => .ok (.int 0)
  | bool b => .ok (.int (if b then 1 else 0))
  | num n => .ok n
  | str s => .ok (Number.ofString s)
  | arr xs => (toStr (arr xs)).map Number.ofString
  | obj fs => if hasOwnToString fs then .error primitiveError else .ok .nan

end Json

/-- `Boolean(e)`. -/
def truthy : Option Json → Bool
  | none => false
  | some v => v.truthy

/-- `a || b`. -/
def or (a b : Option Json) : Option Json := if truthy a then a else b

/-- `a ?? b`. -/
def nullish (a b : Option Json) : Option Json :=
  match a with
  | none | some .null => b
  | some v => some v

/-- `e || null`. -/
def orNull (a : Option Json) : Json :=
  match a with
  | none => .null
  | some v => if v.truthy then v else .null

/-- `a === b`; two objects are the same only by reference, so never here. -/
def strictEq : Option Json → Option Json → Bool
  | none, none => true
  | some .null, some .null => true
  | some (.bool a), some (.bool b) => a == b
  | some (.num a), some (.num b) => a == b && a != .nan
  | some (.str a), some (.str b) => a == b
  | _, _ => false

def toStr : Option Json → JsM String
  | none => .ok "undefined"
  | some v => v.toStr

def toNumber : Option Json → JsM Number
  | none => .ok .nan
  | some v => v.toNumber

/-- What `join` makes of an element. -/
def joined : Option Json → JsM String
  | none | some .null => .ok ""
  | v => toStr v

/-- `typeof v === 'string' && v.trim() !== ''`. -/
def isNonEmptyString : Option Json → Bool
  | some (.str s) => trim s ≠ ""
  | _ => false

/-- `String(e || '')`. -/
def strOrEmpty (e : Option Json) : JsM String := toStr (or e (some (.str "")))

/-- The string a value is, or the empty string. -/
def textOf : Option Json → String
  | some (.str s) => s
  | _ => ""

@[simp] theorem truthy_str (s : String) : truthy (some (.str s)) = (s ≠ "" : Bool) := rfl

@[simp] theorem truthy_none : truthy none = false := rfl

@[simp] theorem or_none (b : Option Json) : or none b = b := rfl

theorem or_of_truthy {a : Option Json} (h : truthy a = true) (b : Option Json) : or a b = a := by
  simp [or, h]

theorem or_of_falsy {a : Option Json} (h : truthy a = false) (b : Option Json) : or a b = b := by
  simp [or, h]

@[simp] theorem or_null (b : Option Json) : or (some .null) b = b := rfl

@[simp] theorem or_arr (xs : List Json) (b : Option Json) :
    or (some (.arr xs)) b = some (.arr xs) := rfl

@[simp] theorem or_str {s : String} (h : s ≠ "") (b : Option Json) :
    or (some (.str s)) b = some (.str s) := or_of_truthy (by simp [h]) b

@[simp] theorem strOrEmpty_str (s : String) : strOrEmpty (some (.str s)) = .ok s := by
  by_cases h : s = ""
  · subst h; rfl
  · rw [strOrEmpty, or_str h]; rfl

@[simp] theorem strOrEmpty_none : strOrEmpty none = .ok "" := rfl

@[simp] theorem toStr_str (s : String) : toStr (some (.str s)) = .ok s := rfl

@[simp] theorem toNumber_num (n : Number) : toNumber (some (.num n)) = .ok n := rfl

@[simp] theorem nullish_none (b : Option Json) : nullish none b = b := rfl

@[simp] theorem nullish_null (b : Option Json) : nullish (some .null) b = b := rfl

@[simp] theorem nullish_num (n : Number) (b : Option Json) :
    nullish (some (.num n)) b = some (.num n) := rfl

@[simp] theorem nullish_str (s : String) (b : Option Json) :
    nullish (some (.str s)) b = some (.str s) := rfl

@[simp] theorem orNull_none : orNull none = .null := rfl

@[simp] theorem orNull_str {s : String} (h : s ≠ "") : orNull (some (.str s)) = .str s := by
  simp [orNull, Json.truthy, h]

@[simp] theorem strictEq_str (a b : String) :
    strictEq (some (.str a)) (some (.str b)) = (a == b) := rfl

@[simp] theorem strictEq_null : strictEq (some .null) (some .null) = true := rfl

theorem eq_of_strictEq {a b : Option Json} (h : strictEq a b = true) : a = b := by
  unfold strictEq at h
  split at h <;> simp_all

theorem strictEq_comm (a b : Option Json) : strictEq a b = strictEq b a := by
  have hswap : ∀ a b : Option Json, strictEq a b = true → strictEq b a = true := by
    intro a b h
    cases eq_of_strictEq h
    exact h
  exact Bool.eq_iff_iff.mpr ⟨hswap a b, hswap b a⟩

theorem strictEq_str_iff {a : Option Json} {s : String} :
    strictEq a (some (.str s)) = true ↔ a = some (.str s) := by
  unfold strictEq
  split <;> simp_all

theorem strictEq_null_iff {a : Option Json} :
    strictEq a (some .null) = true ↔ a = some .null := by
  unfold strictEq
  split <;> simp_all

theorem strictEq_true_iff {a : Option Json} :
    strictEq a (some (.bool true)) = true ↔ a = some (.bool true) := by
  unfold strictEq
  split <;> simp_all

end SimpleL1.Js
