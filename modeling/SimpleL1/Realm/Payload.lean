import SimpleL1.Realm.Acceptance

/-!
# Checked payloads

What `validatePayload` leaves of a field of the contract: a required string is a
string that is not blank, an optional one is absent, null or a string. So the
coercions of a handler do not fail on the fields of its contract.
-/

namespace SimpleL1.Realm

open SimpleL1.Js

/-- The three groups of checks of a payload contract. -/
structure PayloadOk (schema : PayloadContract) (payload : Fields) : Prop where
  required : ∀ field ∈ schema.required, requiredFieldOk (payload.get field) = true
  oneOf : ∀ fields ∈ schema.requireOneOf,
    ∃ field ∈ fields, isNonEmptyString (payload.get field) = true
  typed : ∀ p ∈ schema.fields, fieldTypeOk (payload.get p.1) p.2 = true

theorem validatePayload_eq_nil {t : EventType} {payload : Fields} :
    validatePayload t.name payload = [] ↔
      PayloadOk (realmEventRegistry t).payloadContract payload := by
  unfold validatePayload
  simp only [registryLookup_name, List.append_eq_nil_iff, List.map_eq_nil_iff,
    List.filter_eq_nil_iff, Bool.not_eq_true', Bool.not_eq_false]
  constructor
  · rintro ⟨⟨hreq, hone⟩, htyped⟩
    refine ⟨hreq, ?_, htyped⟩
    intro fields hfields
    rw [Option.mem_def.mp hfields] at hone
    simpa [ite_nil] using hone
  · rintro ⟨hreq, hone, htyped⟩
    refine ⟨⟨hreq, ?_⟩, htyped⟩
    split
    · rfl
    · next fields hfields => simpa [ite_nil] using hone fields hfields

theorem ne_empty_of_trim {s : String} (h : trim s ≠ "") : s ≠ "" := by
  rintro rfl
  exact h (by decide)

/-- An optional string field: absent, null or a string. -/
inductive OptionalString : Option Json → Prop where
  | none : OptionalString none
  | null : OptionalString (some .null)
  | str (s : String) : OptionalString (some (.str s))

namespace PayloadOk

variable {schema : PayloadContract} {payload : Fields}

theorem optional (h : PayloadOk schema payload) (field : String)
    (hf : (field, FieldType.string) ∈ schema.fields) : OptionalString (payload.get field) := by
  have ht := h.typed _ hf
  unfold fieldTypeOk at ht
  split at ht
  · next hnone => exact hnone ▸ .none
  · next hnull => exact hnull ▸ .null
  · next s hs => exact hs ▸ .str s
  · cases ht
  · cases ht

theorem string (h : PayloadOk schema payload) (field : String)
    (hf : (field, FieldType.string) ∈ schema.fields) (hr : field ∈ schema.required) :
    ∃ s, payload.get field = some (.str s) ∧ trim s ≠ "" := by
  have hreq := h.required _ hr
  have hopt := h.optional field hf
  generalize payload.get field = v at hreq hopt
  cases hopt with
  | none => cases hreq
  | null => cases hreq
  | str s =>
    refine ⟨s, rfl, ?_⟩
    simpa [requiredFieldOk, isNonEmptyString, strictEq, Json.isArray] using hreq

end PayloadOk

end SimpleL1.Realm
