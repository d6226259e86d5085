import SimpleL1.Js.Text

/-!
# Records as JSON objects

A `Codec` writes a record as the object the source keeps it in and reads it back.
Reading inverts writing, so nothing is lost in between; a list of records is
written and read entry by entry.
-/

namespace SimpleL1.Js

/-- `v.k` when it is a string. -/
def strField (v : Json) (k : String) : Option String :=
  match v.prop k with
  | some (.str s) => some s
  | _ => none

theorem strField_eq {v : Json} {k s : String} (h : v.prop k = some (.str s)) :
    strField v k = some s := by
  rw [strField, h]

structure Codec (α : Type) where
  encode : α → Json
  decode : Json → Option α
  decode_encode : ∀ a, decode (encode a) = some a

namespace Codec

variable {α : Type}

theorem mapM_decode (c : Codec α) (xs : List α) : (xs.map c.encode).mapM c.decode = some xs := by
  induction xs with
  | nil => rfl
  | cons x xs ih => rw [List.map_cons, List.mapM_cons, c.decode_encode, ih]; rfl

def list (c : Codec α) : Codec (List α) where
  encode xs := .arr (xs.map c.encode)
  decode
    | .arr vs => vs.mapM c.decode
    | _ => none
  decode_encode := c.mapM_decode

/-- `null` stands for no record; no record is written as `null`. -/
def orNull (c : Codec α) (h : ∀ a, c.encode a ≠ .null) : Codec (Option α) where
  encode
    | none => .null
    | some a => c.encode a
  decode
    | .null => some none
    | v => (c.decode v).map some
  decode_encode := by
    rintro (_ | a)
    · rfl
    · split
      · next heq => exact absurd heq (h a)
      · rw [c.decode_encode]; rfl

end Codec

/-! ## Copies -/

/-- `JSON.parse(JSON.stringify(v))`. -/
def clone (v : Json) : Json := v.written

theorem clone_eq_of_text {v w : Json} (h : v.text = w.text) : clone v = clone w :=
  Json.written_eq_of_text h

theorem finite_iff_clone {v : Json} : v.finite = true ↔ clone v = v := by
  constructor
  · exact Json.written_of_finite
  · intro h
    rw [← h]
    exact Json.finite_written v

@[simp] theorem clone_clone (v : Json) : clone (clone v) = clone v :=
  finite_iff_clone.mp (Json.finite_written v)

/-! ## Object literals -/

theorem finite_ofOptions (fs : List (String × Option Json)) :
    Json.finiteFields (Fields.ofOptions fs) = fs.all fun p => p.2.all Json.finite := by
  induction fs with
  | nil => rfl
  | cons p fs ih =>
    obtain ⟨k, _ | v⟩ := p
    · exact ih
    · show (v.finite && Json.finiteFields (Fields.ofOptions fs)) = _
      rw [ih]
      rfl

theorem written_ofOptions (fs : List (String × Option Json)) :
    Json.writtenFields (Fields.ofOptions fs) =
      Fields.ofOptions (fs.map fun p => (p.1, p.2.map Json.written)) := by
  induction fs with
  | nil => rfl
  | cons p fs ih =>
    obtain ⟨k, _ | v⟩ := p
    · exact ih
    · show (k, v.written) :: Json.writtenFields (Fields.ofOptions fs) = _
      rw [ih]
      rfl

theorem map_written_of_all {o : Option Json} (h : o.all Json.finite = true) :
    o.map Json.written = o := by
  cases o with
  | none => rfl
  | some v => exact congrArg some (Json.written_of_finite h)

end SimpleL1.Js
