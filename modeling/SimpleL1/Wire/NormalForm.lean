import SimpleL1.Wire.Canonical

/-!
# Canonical text as a normal form

The text of an object is reproduced by parsing and canonicalizing it, and two such texts are
equal just when the objects are equal after normalization, if in every object inside the
keys are still in order, each once, after normalization: `normal_form_iff`.
-/

namespace SimpleL1.Wire

open SimpleL1.Js

/-! ## Values by their parts -/

mutual

/-- What holds of a value's parts holds of the value. -/
theorem by_parts {P : Json → Prop} (hnull : P .null) (hbool : ∀ b, P (.bool b)) (hnum : ∀ x, P (.num x))
    (hstr : ∀ s, P (.str s)) (harr : ∀ xs, (∀ x ∈ xs, P x) → P (.arr xs))
    (hobj : ∀ fs : Fields, (∀ p ∈ fs, P p.2) → P (.obj fs)) : ∀ v, P v
  | .null => hnull
  | .bool b => hbool b
  | .num x => hnum x
  | .str s => hstr s
  | .arr xs => harr xs (by_elements hnull hbool hnum hstr harr hobj xs)
  | .obj fs => hobj fs (by_fields hnull hbool hnum hstr harr hobj fs)

theorem by_elements {P : Json → Prop} (hnull : P .null) (hbool : ∀ b, P (.bool b)) (hnum : ∀ x, P (.num x))
    (hstr : ∀ s, P (.str s)) (harr : ∀ xs, (∀ x ∈ xs, P x) → P (.arr xs))
    (hobj : ∀ fs : Fields, (∀ p ∈ fs, P p.2) → P (.obj fs)) : ∀ xs : List Json, ∀ x ∈ xs, P x
  | y :: xs, x, hx => (List.mem_cons.mp hx).elim
    (fun heq => heq ▸ by_parts hnull hbool hnum hstr harr hobj y)
    fun hx => by_elements hnull hbool hnum hstr harr hobj xs x hx

theorem by_fields {P : Json → Prop} (hnull : P .null) (hbool : ∀ b, P (.bool b)) (hnum : ∀ x, P (.num x))
    (hstr : ∀ s, P (.str s)) (harr : ∀ xs, (∀ x ∈ xs, P x) → P (.arr xs))
    (hobj : ∀ fs : Fields, (∀ p ∈ fs, P p.2) → P (.obj fs)) : ∀ fs : Fields, ∀ p ∈ fs, P p.2
  | (_, v) :: fs, p, hp => (List.mem_cons.mp hp).elim
    (fun heq => heq ▸ by_parts hnull hbool hnum hstr harr hobj v)
    fun hp => by_fields hnull hbool hnum hstr harr hobj fs p hp

end

mutual

/-- Every object inside has the property. -/
def Everywhere (P : Fields → Prop) : Json → Prop
  | .arr xs => EverywhereList P xs
  | .obj fs => P fs ∧ EverywhereFields P fs
  | _ => True

def EverywhereList (P : Fields → Prop) : List Json → Prop
  | [] => True
  | x :: xs => Everywhere P x ∧ EverywhereList P xs

def EverywhereFields (P : Fields → Prop) : List (String × Json) → Prop
  | [] => True
  | (_, v) :: fs => Everywhere P v ∧ EverywhereFields P fs

end

theorem everywhere_arr {P : Fields → Prop} {xs : List Json} :
    Everywhere P (.arr xs) ↔ ∀ x ∈ xs, Everywhere P x := by
  rw [Everywhere]
  induction xs with
  | nil => simp [EverywhereList]
  | cons x xs ih => simp [EverywhereList, ih]

theorem everywhere_obj {P : Fields → Prop} {fs : Fields} :
    Everywhere P (.obj fs) ↔ P fs ∧ ∀ p ∈ fs, Everywhere P p.2 := by
  have hfields : EverywhereFields P fs ↔ ∀ p ∈ fs, Everywhere P p.2 := by
    induction fs with
    | nil => simp [EverywhereFields]
    | cons p fs ih =>
      rw [EverywhereFields, ih, List.forall_mem_cons]
  rw [Everywhere, hfields]

/-! ## Keys in order -/

def keysOf (fs : Fields) : List String := fs.map Prod.fst

/-- Keys in order, each once. -/
def Ascending (keys : List String) : Prop := keys.Pairwise fun a b => compareKeys a b < 0

instance (keys : List String) : Decidable (Ascending keys) := by
  unfold Ascending
  infer_instance

theorem compareCodes_eq_zero : ∀ {as bs : List Nat}, compareCodes as bs = 0 → as = bs
  | [], [], _ => rfl
  | [], _ :: _, h => by
    simp only [compareCodes, List.length_cons, List.length_nil] at h
    omega
  | _ :: _, [], h => by
    simp only [compareCodes, List.length_cons, List.length_nil] at h
    omega
  | a :: as, b :: bs, h => by
    rw [compareCodes] at h
    by_cases hab : a = b
    · rw [if_neg (not_not.mpr hab)] at h
      rw [hab, compareCodes_eq_zero h]
    · rw [if_pos hab] at h
      omega

theorem compareKeys_self (a : String) : compareKeys a a = 0 := by
  have h : ∀ as, compareCodes as as = 0 := by
    intro as
    induction as with
    | nil => rfl
    | cons a as ih => simp [compareCodes, ih]
  exact h _

theorem compareKeys_lt {a b : String} : compareKeys a b < 0 ↔ compareKeys a b ≤ 0 ∧ a ≠ b := by
  constructor
  · intro h
    refine ⟨by omega, ?_⟩
    rintro rfl
    rw [compareKeys_self] at h
    omega
  · rintro ⟨hle, hne⟩
    have : compareKeys a b ≠ 0 := fun h => hne (codePoints_injective (compareCodes_eq_zero h))
    omega

theorem ascending_iff {keys : List String} : Ascending keys ↔ Sorted keys ∧ keys.Nodup := by
  unfold Ascending Sorted List.Nodup
  rw [← List.pairwise_and_iff]
  exact List.Pairwise.iff fun _ _ => compareKeys_lt

/-- In every object inside, the sorted keys are in order, each once, after normalization. -/
def InOrder (n : Nfc) : Json → Prop :=
  Everywhere fun fs => Ascending ((keysOf (sortKeys fs)).map n.normal)

/-- No object inside has a key twice. -/
def DistinctKeys : Json → Prop := Everywhere fun fs => (keysOf fs).Nodup

/-- A JSON value: every key once in an object, and no number that is not finite. -/
structure Wellformed (v : Json) : Prop where
  distinct : DistinctKeys v
  finite : v.finite = true

/-! ## Parsing -/

/-- The fields as they are set one by one. -/
def collect (fs : Fields) : Fields := fs.foldl (fun o p => o.set p.1 p.2) []

mutual

/-- What `JSON.parse` makes of the text of a value: of a key that comes again the last value counts. -/
def parsed : Json → Json
  | .arr xs => .arr (parsedList xs)
  | .obj fs => .obj (collect (parsedFields fs))
  | v => v

def parsedList : List Json → List Json
  | [] => []
  | x :: xs => parsed x :: parsedList xs

def parsedFields : List (String × Json) → List (String × Json)
  | [] => []
  | (k, v) :: fs => (k, parsed v) :: parsedFields fs

end

/-- The text spells the value, key by key. -/
def Spells (t : List Char) (v : Json) : Prop := v.finite = true ∧ v.text = t

/-- The text has no key twice in an object, and parsing and canonicalizing it gives it again. -/
def Reproduced (n : Nfc) (t : List Char) : Prop :=
  ∃ v, Spells t v ∧ DistinctKeys v ∧ canonicalJson n (parsed v) = .ok t

theorem set_append {fs : Fields} {k : String} {v : Json} (h : k ∉ keysOf fs) :
    fs.set k v = fs ++ [(k, v)] := by
  induction fs with
  | nil => rfl
  | cons p fs ih =>
    obtain ⟨k', v'⟩ := p
    simp only [keysOf, List.map_cons, List.mem_cons, not_or] at h
    rw [Fields.set, if_neg (Ne.symm h.1), ih h.2, List.cons_append]

theorem collect_of_nodup {fs : Fields} (h : (keysOf fs).Nodup) : collect fs = fs := by
  have hall : ∀ (gs fs : Fields), (keysOf (gs ++ fs)).Nodup →
      fs.foldl (fun o p => o.set p.1 p.2) gs = gs ++ fs := by
    intro gs fs
    induction fs generalizing gs with
    | nil => simp
    | cons p fs ih =>
      intro hnodup
      have hp : p.1 ∉ keysOf gs := by
        intro hin
        rw [keysOf, List.map_append, List.nodup_append] at hnodup
        exact hnodup.2.2 _ hin _ List.mem_cons_self rfl
      rw [List.foldl_cons, set_append hp, ih]
      · simp
      · simpa using hnodup
  exact hall [] fs h

theorem parsedFields_eq_map (fs : Fields) : parsedFields fs = fs.map fun p => (p.1, parsed p.2) := by
  induction fs with
  | nil => rfl
  | cons p fs ih => simp [parsedFields, ih]

theorem parsedList_eq_map (xs : List Json) : parsedList xs = xs.map parsed := by
  induction xs with
  | nil => rfl
  | cons x xs ih => simp [parsedList, ih]

/-- Nothing is lost when no key comes twice. -/
theorem parsed_of_distinct {v : Json} : DistinctKeys v → parsed v = v := by
  induction v using by_parts with
  | harr xs ih =>
    intro h
    rw [parsed, parsedList_eq_map, List.map_congr_left fun x hx => ih x hx (everywhere_arr.mp h x hx),
      List.map_id']
  | hobj fs ih =>
    intro h
    obtain ⟨hkeys, hfields⟩ := everywhere_obj.mp h
    have hmap : fs.map (fun p => (p.1, parsed p.2)) = fs := by
      rw [List.map_congr_left fun p hp => show (p.1, parsed p.2) = p by rw [ih p hp (hfields p hp)],
        List.map_id']
    rw [parsed, parsedFields_eq_map, hmap, collect_of_nodup hkeys]
  | _ => exact fun _ => rfl

/-! ## The written value -/

variable {n : Nfc}

theorem keysOf_wire (fs : Fields) :
    keysOf ((sortKeys fs).map fun p => (n.normal p.1, wire n p.2)) =
      (keysOf (sortKeys fs)).map n.normal := by
  simp [keysOf]

theorem finite_wire {v : Json} : supported v = true → (wire n v).finite = true := by
  induction v using by_parts with
  | hnum x =>
    intro h
    cases x <;> first | rfl | cases h
  | harr xs ih =>
    intro h
    rw [supported, supportedList_eq_all, List.all_eq_true] at h
    have hlist : ∀ ys : List Json, Json.finiteList ys = ys.all Json.finite := fun ys => by
      induction ys with
      | nil => rfl
      | cons y ys ihy => simp [Json.finiteList, ihy]
    rw [wire, Json.finite, wireList_eq_map, hlist, List.all_map, List.all_eq_true]
    exact fun x hx => ih x hx (h x hx)
  | hobj fs ih =>
    intro h
    rw [supported, supportedFields_eq_all, List.all_eq_true] at h
    rw [wire_obj, Json.finite, Json.finiteFields_eq_all, List.all_map, List.all_eq_true]
    intro p hp
    have hp := (perm_sortKeys fs).mem_iff.mp hp
    exact ih p hp (h p hp)
  | _ => exact fun _ => rfl

theorem supported_wire {v : Json} : supported (wire n v) = supported v := by
  induction v using by_parts with
  | harr xs ih =>
    rw [wire, supported, supportedList_eq_all, wireList_eq_map, List.all_map, supported,
      supportedList_eq_all]
    rw [Bool.eq_iff_iff, List.all_eq_true, List.all_eq_true]
    exact forall₂_congr fun x hx => by rw [Function.comp, ih x hx]
  | hobj fs ih =>
    rw [wire_obj, supported, supportedFields_eq_all, List.all_map, supported, supportedFields_eq_all,
      ← (perm_sortKeys fs).all_eq]
    rw [Bool.eq_iff_iff, List.all_eq_true, List.all_eq_true]
    exact forall₂_congr fun p hp => by rw [Function.comp, ih p ((perm_sortKeys fs).mem_iff.mp hp)]
  | _ => rfl

/-- A value in order is written with every key once. -/
theorem distinct_wire {v : Json} : InOrder n v → DistinctKeys (wire n v) := by
  induction v using by_parts with
  | harr xs ih =>
    intro h
    rw [wire, wireList_eq_map]
    refine everywhere_arr.mpr fun x hx => ?_
    obtain ⟨y, hy, rfl⟩ := List.mem_map.mp hx
    exact ih y hy (everywhere_arr.mp h y hy)
  | hobj fs ih =>
    intro h
    obtain ⟨hkeys, hfields⟩ := everywhere_obj.mp h
    rw [wire_obj]
    refine everywhere_obj.mpr ⟨?_, fun p hp => ?_⟩
    · rw [keysOf_wire]
      exact (ascending_iff.mp hkeys).2
    · obtain ⟨q, hq, rfl⟩ := List.mem_map.mp hp
      have hq := (perm_sortKeys fs).mem_iff.mp hq
      exact ih q hq (hfields q hq)
  | _ => exact fun _ => trivial

/-- Writing a written value that is in order changes nothing. -/
theorem wire_wire {v : Json} : InOrder n v → wire n (wire n v) = wire n v := by
  induction v using by_parts with
  | hstr s =>
    intro _
    simp [wire]
  | harr xs ih =>
    intro h
    rw [wire, wire, wireList_eq_map, wireList_eq_map, List.map_map]
    exact congrArg Json.arr (List.map_congr_left fun x hx => ih x hx (everywhere_arr.mp h x hx))
  | hobj fs ih =>
    intro h
    obtain ⟨hkeys, hfields⟩ := everywhere_obj.mp h
    rw [wire_obj, wire_obj, sortKeys_of_sorted, List.map_map]
    · refine congrArg Json.obj (List.map_congr_left fun p hp => ?_)
      have hp := (perm_sortKeys fs).mem_iff.mp hp
      simp [ih p hp (hfields p hp)]
    · rw [← keysOf, keysOf_wire]
      exact (ascending_iff.mp hkeys).1
  | _ => exact fun _ => rfl

/-- A value that is written with every key once, and written so again, is in order. -/
theorem inOrder_of_wire {v : Json} :
    DistinctKeys (wire n v) → wire n (wire n v) = wire n v → InOrder n v := by
  induction v using by_parts with
  | harr xs ih =>
    intro hdistinct hwire
    rw [wire, wireList_eq_map] at hdistinct
    rw [wire, wire, wireList_eq_map, wireList_eq_map, List.map_map] at hwire
    refine everywhere_arr.mpr fun x hx => ih x hx ?_ ?_
    · exact everywhere_arr.mp hdistinct _ (List.mem_map_of_mem hx)
    · exact List.map_inj_left.mp (Json.arr.inj hwire) x hx
  | hobj fs ih =>
    intro hdistinct hwire
    rw [wire_obj] at hdistinct
    obtain ⟨hkeys, hfields⟩ := everywhere_obj.mp hdistinct
    rw [wire_obj, wire_obj] at hwire
    have hwire := Json.obj.inj hwire
    have hsorted : Sorted (keysOf ((sortKeys fs).map fun p => (n.normal p.1, wire n p.2))) := by
      have hmap := congrArg keysOf hwire
      rw [keysOf_wire] at hmap
      have hfix : (keysOf (sortKeys ((sortKeys fs).map fun p => (n.normal p.1, wire n p.2)))).map n.normal =
          keysOf (sortKeys ((sortKeys fs).map fun p => (n.normal p.1, wire n p.2))) := by
        conv_rhs => rw [← List.map_id (keysOf _)]
        refine List.map_congr_left fun k hk => ?_
        obtain ⟨p, hp, rfl⟩ := List.mem_map.mp hk
        obtain ⟨q, -, rfl⟩ := List.mem_map.mp ((perm_sortKeys _).mem_iff.mp hp)
        exact n.normal_normal q.1
      rw [← hmap, hfix]
      exact sorted_sortKeys _
    refine everywhere_obj.mpr ⟨?_, fun p hp => ?_⟩
    · rw [← keysOf_wire]
      exact ascending_iff.mpr ⟨hsorted, hkeys⟩
    · have hp := (perm_sortKeys fs).mem_iff.mpr hp
      refine ih p ((perm_sortKeys fs).mem_iff.mp hp) (hfields _ (List.mem_map_of_mem hp)) ?_
      rw [sortKeys_of_sorted hsorted, List.map_map] at hwire
      exact (Prod.mk.inj (List.map_inj_left.mp hwire p hp)).2
  | _ => exact fun _ _ => trivial

theorem text_wire_inj {v w : Json} (hv : supported v = true) (hw : supported w = true) :
    (wire n v).text = (wire n w).text ↔ wire n v = wire n w :=
  ⟨Json.text_injective (finite_wire hv) (finite_wire hw), congrArg Json.text⟩

/-- A canonical text is reproduced exactly when the object is in order. -/
theorem reproduced_iff {v : Json} {t : List Char} (h : canonicalJson n v = .ok t) :
    Reproduced n t ↔ InOrder n v := by
  obtain ⟨⟨fs, rfl⟩, hs, rfl⟩ := canonicalJson_eq_ok.mp h
  constructor
  · rintro ⟨w, ⟨hfinite, htext⟩, hdistinct, hw⟩
    have hw' := Json.text_injective hfinite (finite_wire hs) htext
    subst hw'
    rw [parsed_of_distinct hdistinct] at hw
    obtain ⟨-, hsw, heq⟩ := canonicalJson_eq_ok.mp hw
    exact inOrder_of_wire hdistinct
      (Json.text_injective (finite_wire hsw) (finite_wire hs) heq.symm)
  · intro hin
    refine ⟨_, ⟨finite_wire hs, rfl⟩, distinct_wire hin, ?_⟩
    rw [parsed_of_distinct (distinct_wire hin)]
    refine canonicalJson_eq_ok.mpr ⟨⟨_, wire_obj fs⟩, ?_, ?_⟩
    · rw [supported_wire]
      exact hs
    · rw [wire_wire hin]

/-! ## Equal after normalization -/

mutual

/-- All keys and strings in normal form. -/
def normalized (n : Nfc) : Json → Json
  | .str s => .str (n.normal s)
  | .arr xs => .arr (normalizedList n xs)
  | .obj fs => .obj (normalizedFields n fs)
  | v => v

def normalizedList (n : Nfc) : List Json → List Json
  | [] => []
  | x :: xs => normalized n x :: normalizedList n xs

def normalizedFields (n : Nfc) : List (String × Json) → List (String × Json)
  | [] => []
  | (k, v) :: fs => (n.normal k, normalized n v) :: normalizedFields n fs

end

mutual

/-- Keys sorted by their code points. -/
def arranged : Json → Json
  | .arr xs => .arr (arrangedList xs)
  | .obj fs => .obj (sortKeys (arrangedFields fs))
  | v => v

def arrangedList : List Json → List Json
  | [] => []
  | x :: xs => arranged x :: arrangedList xs

def arrangedFields : List (String × Json) → List (String × Json)
  | [] => []
  | (k, v) :: fs => (k, arranged v) :: arrangedFields fs

end

theorem normalizedList_eq_map (xs : List Json) : normalizedList n xs = xs.map (normalized n) := by
  induction xs with
  | nil => rfl
  | cons x xs ih => simp [normalizedList, ih]

theorem normalizedFields_eq_map (fs : Fields) :
    normalizedFields n fs = fs.map fun p => (n.normal p.1, normalized n p.2) := by
  induction fs with
  | nil => rfl
  | cons p fs ih => simp [normalizedFields, ih]

theorem arrangedList_eq_map (xs : List Json) : arrangedList xs = xs.map arranged := by
  induction xs with
  | nil => rfl
  | cons x xs ih => simp [arrangedList, ih]

theorem arrangedFields_eq_map (fs : Fields) : arrangedFields fs = fs.map fun p => (p.1, arranged p.2) := by
  induction fs with
  | nil => rfl
  | cons p fs ih => simp [arrangedFields, ih]

/-- The normalized fields are those of the sorted object in another order. -/
theorem perm_normalized (fs : Fields) :
    (keysOf (fs.map fun p => (n.normal p.1, normalized n p.2))).Perm ((keysOf (sortKeys fs)).map n.normal) := by
  have h : keysOf (fs.map fun p => (n.normal p.1, normalized n p.2)) = (keysOf fs).map n.normal := by
    simp [keysOf]
  rw [h]
  exact ((perm_sortKeys fs).symm.map Prod.fst).map n.normal

theorem distinct_normalized {v : Json} : InOrder n v → DistinctKeys (normalized n v) := by
  induction v using by_parts with
  | harr xs ih =>
    intro h
    rw [normalized, normalizedList_eq_map]
    refine everywhere_arr.mpr fun x hx => ?_
    obtain ⟨y, hy, rfl⟩ := List.mem_map.mp hx
    exact ih y hy (everywhere_arr.mp h y hy)
  | hobj fs ih =>
    intro h
    obtain ⟨hkeys, hfields⟩ := everywhere_obj.mp h
    rw [normalized, normalizedFields_eq_map]
    refine everywhere_obj.mpr ⟨?_, fun p hp => ?_⟩
    · exact (perm_normalized fs).nodup_iff.mpr (ascending_iff.mp hkeys).2
    · obtain ⟨q, hq, rfl⟩ := List.mem_map.mp hp
      exact ih q hq (hfields q hq)
  | _ => exact fun _ => trivial

/-- What is written of a value in order: its normalized form, arranged. -/
theorem wire_eq_arranged {v : Json} : InOrder n v → wire n v = arranged (normalized n v) := by
  induction v using by_parts with
  | harr xs ih =>
    intro h
    rw [wire, normalized, arranged, wireList_eq_map, normalizedList_eq_map, arrangedList_eq_map,
      List.map_map]
    exact congrArg Json.arr (List.map_congr_left fun x hx => ih x hx (everywhere_arr.mp h x hx))
  | hobj fs ih =>
    intro h
    obtain ⟨hkeys, hfields⟩ := everywhere_obj.mp h
    rw [wire_obj, normalized, arranged, normalizedFields_eq_map, arrangedFields_eq_map, List.map_map]
    have hmap : fs.map ((fun p => (p.1, arranged p.2)) ∘ fun p => (n.normal p.1, normalized n p.2)) =
        fs.map fun p => (n.normal p.1, wire n p.2) :=
      List.map_congr_left fun p hp => by simp [ih p hp (hfields p hp)]
    rw [hmap]
    refine congrArg Json.obj (sortKeys_eq_of_perm ((perm_sortKeys fs).symm.map _) ?_ ?_).symm
    · rw [← keysOf, keysOf_wire]
      exact (ascending_iff.mp hkeys).2
    · rw [← keysOf, keysOf_wire]
      exact (ascending_iff.mp hkeys).1
  | _ => exact fun _ => rfl

/-- The order the fields come in does not matter to the arrangement. -/
theorem arranged_canon {v : Json} : DistinctKeys v → arranged v.canon = arranged v := by
  induction v using by_parts with
  | harr xs ih =>
    intro h
    rw [Json.canon, Json.canonList_eq_map, arranged, arranged, arrangedList_eq_map, arrangedList_eq_map,
      List.map_map]
    exact congrArg Json.arr (List.map_congr_left fun x hx => ih x hx (everywhere_arr.mp h x hx))
  | hobj fs ih =>
    intro h
    obtain ⟨hkeys, hfields⟩ := everywhere_obj.mp h
    rw [Json.canon, Json.canonFields_eq_map, arranged, arranged, arrangedFields_eq_map,
      arrangedFields_eq_map]
    have hperm : ((sortFields (fs.map fun p => (p.1, p.2.canon))).map fun p => (p.1, arranged p.2)).Perm
        (sortKeys (fs.map fun p => (p.1, arranged p.2))) := by
      refine ((perm_sortFields _).map _).trans ?_
      rw [List.map_map, List.map_congr_left fun p hp =>
        show ((fun p => (p.1, arranged p.2)) ∘ fun p => (p.1, p.2.canon)) p = (p.1, arranged p.2) by
          simp [ih p hp (hfields p hp)]]
      exact (perm_sortKeys _).symm
    refine congrArg Json.obj (sortKeys_eq_of_perm hperm ?_ (sorted_sortKeys _))
    refine ((perm_sortKeys _).map Prod.fst).nodup_iff.mpr ?_
    rw [List.map_map]
    exact hkeys
  | _ => exact fun _ => rfl

theorem canon_arranged {v : Json} : DistinctKeys v → (arranged v).canon = v.canon := by
  induction v using by_parts with
  | harr xs ih =>
    intro h
    rw [arranged, Json.canon, Json.canon, Json.canonList_eq_map, Json.canonList_eq_map,
      arrangedList_eq_map, List.map_map]
    exact congrArg Json.arr (List.map_congr_left fun x hx => ih x hx (everywhere_arr.mp h x hx))
  | hobj fs ih =>
    intro h
    obtain ⟨hkeys, hfields⟩ := everywhere_obj.mp h
    rw [arranged, Json.canon, Json.canon, Json.canonFields_eq_map, Json.canonFields_eq_map,
      arrangedFields_eq_map]
    have hperm : ((sortKeys (fs.map fun p => (p.1, arranged p.2))).map fun p => (p.1, p.2.canon)).Perm
        (fs.map fun p => (p.1, p.2.canon)) := by
      refine ((perm_sortKeys _).map _).trans ?_
      rw [List.map_map, List.map_congr_left fun p hp =>
        show ((fun p => (p.1, p.2.canon)) ∘ fun p => (p.1, arranged p.2)) p = (p.1, p.2.canon) by
          simp [ih p hp (hfields p hp)]]
    refine congrArg Json.obj (sortFields_perm hperm ((hperm.map Prod.fst).nodup_iff.mpr ?_))
    rw [List.map_map]
    exact hkeys
  | _ => exact fun _ => rfl

/-- Values in order are written alike exactly when they are equal after normalization. -/
theorem wire_eq_iff {v w : Json} (hv : InOrder n v) (hw : InOrder n w) :
    wire n v = wire n w ↔ (normalized n v).Same (normalized n w) := by
  unfold Json.Same
  rw [wire_eq_arranged hv, wire_eq_arranged hw]
  constructor
  · intro h
    rw [← canon_arranged (distinct_normalized hv), h, canon_arranged (distinct_normalized hw)]
  · intro h
    rw [← arranged_canon (distinct_normalized hv), h, arranged_canon (distinct_normalized hw)]

/-- The canonical text of an object is reproduced, and it tells the object from those with a
reproduced text up to normalization, exactly when the object is in order. -/
theorem normal_form_iff {v : Json} {t : List Char} (h : canonicalJson n v = .ok t) :
    (Reproduced n t ∧ ∀ w u, canonicalJson n w = .ok u → Reproduced n u →
      (t = u ↔ (normalized n v).Same (normalized n w))) ↔ InOrder n v := by
  rw [reproduced_iff h]
  refine ⟨fun hboth => hboth.1, fun hv => ⟨hv, fun w u hu hw => ?_⟩⟩
  have hin := (reproduced_iff hu).mp hw
  obtain ⟨-, hsv, rfl⟩ := canonicalJson_eq_ok.mp h
  obtain ⟨-, hsw, rfl⟩ := canonicalJson_eq_ok.mp hu
  rw [text_wire_inj hsv hsw, wire_eq_iff hv hin]

/-! ## One accented key -/

/-- NFC on the texts with no accent but `é`: `e` and a combining acute accent are one character. -/
def composing : Nfc where
  normal s := if s = "e\u0301" then "\u00e9" else s
  normal_normal s := by
    by_cases h : s = "e\u0301"
    · rw [if_pos h]
      rfl
    · rw [if_neg h, if_neg h]

theorem composed_reproduced : Reproduced composing ('{' :: '"' :: 'f' :: '"' :: ':' :: '1' :: ['}']) := by
  have h : canonicalJson composing (.obj [("f", .num (.int 1))]) =
      .ok ('{' :: '"' :: 'f' :: '"' :: ':' :: '1' :: ['}']) := by rfl
  refine ((normal_form_iff h).mpr ?_).1
  refine everywhere_obj.mpr ⟨by decide, fun p hp => ?_⟩
  cases List.mem_singleton.mp hp
  trivial

/-- The decomposed key sorts before `f` and is written as the composed one, which sorts after it. -/
theorem decomposed_not_reproduced : ∃ v t, canonicalJson composing v = .ok t ∧ ¬ Reproduced composing t := by
  have h : canonicalJson composing (.obj [("e\u0301", .num (.int 1)), ("f", .num (.int 2))]) =
      .ok ((wire composing (.obj [("e\u0301", .num (.int 1)), ("f", .num (.int 2))])).text) := by rfl
  refine ⟨_, _, h, fun hrep => ?_⟩
  have hin := (everywhere_obj.mp ((reproduced_iff h).mp hrep)).1
  revert hin
  decide

end SimpleL1.Wire
