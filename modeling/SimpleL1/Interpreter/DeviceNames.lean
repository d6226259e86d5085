import SimpleL1.Interpreter.Projection
import SimpleL1.Realm.Payload

/-!
# The name of an issued device

Both sides take `authority_ref`, else `device_authority`, else the device's id.
`or_else` keeps a key that is present, where `||` goes on from `null` and from the
empty string, and a name that is no string is empty to one side and `String(..)`
to the other. `issuedAuthorityRef_eq_iff`: the payloads on which they agree are the
`NamedAlike` ones.
-/

namespace SimpleL1.Interpreter

open SimpleL1.Js SimpleL1.Realm

/-- A payload's device is named alike: by an `authority_ref` of its own, by a `device_authority`
beside no `authority_ref`, by its id, or by neither side. -/
inductive NamedAlike (payload : Json) : Prop
  | own {ref : String} : payload.prop "authority_ref" = some (.str ref) → ref ≠ "" →
      NamedAlike payload
  | authority {ref : String} : payload.prop "authority_ref" = none →
      payload.prop "device_authority" = some (.str ref) → ref ≠ "" → NamedAlike payload
  | byId : payload.prop "authority_ref" = none → payload.prop "device_authority" = none →
      NamedAlike payload
  /-- `String` of an array may be empty, as of `[]` or `[null]`. -/
  | unnamed {xs : List Json} : truthy (payload.prop "authority_ref") = false →
      payload.prop "device_authority" = some (.arr xs) → (Json.arr xs).toStr = .ok "" →
      NamedAlike payload

/-- The migration adapter moves a name, and the handler finds the same one. -/
theorem get_fillFrom (next : Fields) (field source k : String) :
    (fillFrom next field source).get k =
      if k = field ∧ truthy (next.get field) = false ∧ truthy (next.get source) = true then
        next.get source
      else next.get k := by
  unfold fillFrom
  cases hsource : next.get source with
  | none => simp
  | some v =>
    have hv : truthy (some v) = v.truthy := rfl
    cases hfield : truthy (next.get field) with
    | true => simp
    | false => cases hvalue : v.truthy <;> by_cases hk : k = field <;> simp [hv, hvalue, Fields.get_set, hk]

theorem or_migrated (payload : Fields) :
    or ((deviceKeyIssuedMigrationAdapter (.obj payload)).get "authority_ref")
        ((deviceKeyIssuedMigrationAdapter (.obj payload)).get "device_authority") =
      or (payload.get "authority_ref") (payload.get "device_authority") := by
  have hget : ∀ k, k ≠ "capabilities" → (deviceKeyIssuedMigrationAdapter (.obj payload)).get k =
      (fillFrom (fillFrom (fillFrom payload "device_id" "device") "public_key" "publicKey")
        "authority_ref" "device_authority").get k := by
    intro k hk
    unfold deviceKeyIssuedMigrationAdapter
    dsimp only [Json.spread_obj]
    split
    · rfl
    · rw [Fields.get_set, if_neg hk]
  rw [hget _ (by decide), hget _ (by decide)]
  simp only [get_fillFrom]
  simp only [String.reduceEq, false_and, if_false, true_and]
  by_cases href : truthy (payload.get "authority_ref") = true
  · simp [href]
  · rw [Bool.not_eq_true] at href
    by_cases hauth : truthy (payload.get "device_authority") = true
    · simp [href, hauth, or_of_truthy hauth, or_of_falsy href]
    · simp [href, hauth]

theorem toString_ne_empty (n : Number) : n.toString ≠ "" := by
  intro h
  have hchars : n.chars = [] := by simpa [Number.toString] using congrArg String.toList h
  cases n with
  | nan => cases hchars
  | infinity neg => cases neg <;> cases hchars
  | int n => exact Number.chars_ne_nil rfl hchars
  | dec m k => exact Number.chars_ne_nil rfl hchars

/-- Of the values `||` does not skip only an array is the empty text. -/
theorem array_of_toStr_empty {v : Json} (htruthy : v.truthy = true) (h : v.toStr = .ok "") :
    ∃ xs, v = .arr xs := by
  cases v with
  | null => cases htruthy
  | bool b => cases b <;> exact absurd (Except.ok.inj h) (by decide)
  | num n => exact absurd (Except.ok.inj h) (toString_ne_empty n)
  | str s =>
    have hs : s = "" := Except.ok.inj h
    simp [Json.truthy, hs] at htruthy
  | arr xs => exact ⟨xs, rfl⟩
  | obj fs =>
    unfold Json.toStr at h
    split at h
    · cases h
    · exact absurd (Except.ok.inj h) (by decide)

/-- The registry's name for a device is empty only when it is the text of an array. -/
theorem refOr_eq_empty_iff {v : Option Json} {id ref : String}
    (href : refOr v "device:" (some (.str id)) = .ok ref) :
    "" = ref ↔ ∃ xs, v = some (.arr xs) ∧ (Json.arr xs).toStr = .ok "" := by
  unfold refOr at href
  split at href
  · next htruthy =>
    obtain _ | v := v
    · cases htruthy
    constructor
    · rintro rfl
      obtain ⟨xs, rfl⟩ := array_of_toStr_empty htruthy href
      exact ⟨xs, rfl, href⟩
    · rintro ⟨xs, hv, hempty⟩
      cases hv
      exact Except.ok.inj (hempty.symm.trans href)
  · next hfalsy =>
    have hne : "" ≠ "device:" ++ id := by
      intro he
      simpa using congrArg String.toList he
    rw [← Except.ok.inj href]
    constructor
    · intro h; exact absurd h hne
    · rintro ⟨xs, rfl, -⟩; exact absurd rfl hfalsy

/-- Where the interpreter reads the empty name, only an array makes the two sides alike. -/
theorem namedAlike_iff_of_falsy {payload : Json}
    (hfalsy : truthy (payload.prop "authority_ref") = false)
    (hbyId : payload.prop "authority_ref" = none → payload.prop "device_authority" ≠ none)
    (hauth : payload.prop "authority_ref" = none →
      ∀ s, payload.prop "device_authority" = some (.str s) → s = "") :
    NamedAlike payload ↔ ∃ xs, payload.prop "device_authority" = some (.arr xs)
      ∧ (Json.arr xs).toStr = .ok "" := by
  constructor
  · intro h
    cases h with
    | own href hne =>
      rw [href] at hfalsy
      simp [hne] at hfalsy
    | authority href hD hne => exact absurd (hauth href _ hD) hne
    | byId href hD => exact absurd hD (hbyId href)
    | unnamed _ hD hempty => exact ⟨_, hD, hempty⟩
  · rintro ⟨xs, hD, hempty⟩
    exact .unnamed hfalsy hD hempty

/-- When the interpreter reads a payload's device name as the registry does. -/
theorem issuedAuthorityRef_eq_iff {payload : Fields} {id ref : String}
    (hid : payload.get "device_id" = some (.str id))
    (hopt : OptionalString (payload.get "authority_ref"))
    (href : refOr (or (payload.get "authority_ref") (payload.get "device_authority")) "device:"
      (some (.str id)) = .ok ref) :
    issuedAuthorityRef (.obj payload) = ref ↔ NamedAlike (.obj payload) := by
  have hdevice : issuedDeviceId (.obj payload) = id := by
    simp [issuedDeviceId, hid]
  have hread : issuedAuthorityRef (.obj payload) =
      ((((payload.get "authority_ref").or (payload.get "device_authority")).map asStr).getD
        (some ("device:" ++ id))).getD "" := by
    rw [issuedAuthorityRef, hdevice]
    rfl
  rw [hread]
  cases hA : payload.get "authority_ref" with
  | none =>
    cases hD : payload.get "device_authority" with
    | none =>
      rw [hA, hD] at href
      exact ⟨fun _ => .byId hA hD, fun _ => Except.ok.inj href⟩
    | some v =>
      rw [hA, or_none] at href
      by_cases hs : ∃ s, v = .str s ∧ s ≠ ""
      · obtain ⟨s, rfl, hne⟩ := hs
        rw [hD] at href
        have hsr : s = ref := by simpa [refOr, hne] using href
        exact ⟨fun _ => .authority hA hD hne, fun _ => hsr⟩
      · have hempty : (((none.or (some v)).map asStr).getD (some ("device:" ++ id))).getD "" = "" := by
          cases v with
          | str s => simpa [asStr] using hs
          | _ => rfl
        rw [hempty, refOr_eq_empty_iff href, namedAlike_iff_of_falsy]
        · rfl
        · show truthy (payload.get "authority_ref") = false
          rw [hA]
          rfl
        · intro _
          show payload.get "device_authority" ≠ none
          simp [hD]
        · intro _ s hstr
          by_contra hne
          exact hs ⟨s, Option.some.inj (hD.symm.trans hstr), hne⟩
  | some a =>
    by_cases hs : ∃ s, a = .str s ∧ s ≠ ""
    · obtain ⟨s, rfl, hne⟩ := hs
      rw [hA, or_str hne] at href
      have hsr : s = ref := by simpa [refOr, hne] using href
      exact ⟨fun _ => .own hA hne, fun _ => hsr⟩
    · have hempty : (asStr a).getD "" = "" := by
        cases a with
        | str s => simpa [asStr] using hs
        | _ => rfl
      have hfalsy : truthy (some a) = false := by
        rw [hA] at hopt
        cases hopt with
        | null => rfl
        | str s => simpa using hs
      rw [hA, or_of_falsy hfalsy] at href
      have hleft : ((((some a).or (payload.get "device_authority")).map asStr).getD
          (some ("device:" ++ id))).getD "" = "" := hempty
      rw [hleft, refOr_eq_empty_iff href, namedAlike_iff_of_falsy]
      · rfl
      · show truthy (payload.get "authority_ref") = false
        rw [hA]
        exact hfalsy
      · intro hnone
        cases hA.symm.trans hnone
      · intro hnone
        cases hA.symm.trans hnone

end SimpleL1.Interpreter
