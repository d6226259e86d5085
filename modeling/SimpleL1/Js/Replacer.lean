import SimpleL1.Js.Canon
import Mathlib.Data.List.Dedup

/-!
# Writing the listed keys only

`JSON.stringify` with a list of keys writes of every object, at any depth, the
fields whose names are listed, in the order of the list. What is written is what
is seen along the paths over listed names: two values have one text when they look
the same along all of these.
-/

namespace SimpleL1.Js

/-! ## Paths -/

inductive Step where
  | key (k : String)
  | index (i : Nat)
  deriving DecidableEq

/-- What is seen at a place: a scalar as it is written, or the kind of what is there. -/
inductive Face where
  | leaf (v : Json)
  | array (length : Nat)
  | object

namespace Json

def child : Json → Step → Option Json
  | obj fs, .key k => Fields.get fs k
  | arr xs, .index i => xs[i]?
  | _, _ => none

def follow (v : Json) : List Step → Option Json
  | [] => some v
  | s :: path => (v.child s).bind (follow · path)

def face : Json → Face
  | arr xs => .array xs.length
  | obj _ => .object
  | num n => .leaf (num n).written
  | v => .leaf v

/-- What is seen at the end of the path. -/
def faceAt (v : Json) (path : List Step) : Option Face := (v.follow path).map face

@[simp] theorem faceAt_nil (v : Json) : v.faceAt [] = some v.face := rfl

theorem faceAt_cons (v : Json) (s : Step) (path : List Step) :
    v.faceAt (s :: path) = (v.child s).bind (faceAt · path) := by
  rw [faceAt, follow]
  cases v.child s <;> rfl

end Json

open Json

/-! ## Values with their keys in order -/

def keyLt (a b : String) : Prop := keyLe a b = true ∧ a ≠ b

namespace Json

mutual

/-- The names of every object come in order, and once. -/
def Ascending : Json → Prop
  | arr xs => AscendingList xs
  | obj fs => (fs.map Prod.fst).Pairwise keyLt ∧ AscendingFields fs
  | _ => True

def AscendingList : List Json → Prop
  | [] => True
  | x :: xs => Ascending x ∧ AscendingList xs

def AscendingFields : List (String × Json) → Prop
  | [] => True
  | (_, v) :: fs => Ascending v ∧ AscendingFields fs

end

end Json

theorem nodup_of_keyLt {ks : List String} (h : ks.Pairwise keyLt) : ks.Nodup :=
  h.imp And.right

/-- Names in order are determined by which names there are. -/
theorem keys_ext {ks ks' : List String} (h : ks.Pairwise keyLt) (h' : ks'.Pairwise keyLt)
    (hmem : ∀ k, k ∈ ks ↔ k ∈ ks') : ks = ks' := by
  have hperm := (List.perm_ext_iff_of_nodup (nodup_of_keyLt h) (nodup_of_keyLt h')).mpr hmem
  exact hperm.eq_of_pairwise (fun _ _ _ _ hab hba => keyLe_antisymm hab.1 hba.1) h h'

theorem isSome_get {fs : Fields} {k : String} : (fs.get k).isSome = true ↔ k ∈ fs.map Prod.fst := by
  induction fs with
  | nil => simp [Fields.get]
  | cons p fs ih =>
    obtain ⟨k', v⟩ := p
    rw [Fields.get_cons]
    by_cases h : k = k' <;> simp [h, ih]

theorem keys_of_faceAt {fs gs : Fields} (hf : (fs.map Prod.fst).Pairwise keyLt)
    (hg : (gs.map Prod.fst).Pairwise keyLt)
    (h : ∀ k, ((fs.get k).bind fun v => v.faceAt []) = (gs.get k).bind fun v => v.faceAt []) :
    fs.map Prod.fst = gs.map Prod.fst := by
  refine keys_ext hf hg fun k => ?_
  rw [← isSome_get, ← isSome_get]
  have hk := congrArg Option.isSome (h k)
  cases hfk : fs.get k <;> cases hgk : gs.get k <;> simp_all

theorem written_of_face {v w : Json} (h : v.face = w.face) (harr : ∀ xs, v ≠ .arr xs)
    (hobj : ∀ fs, v ≠ .obj fs) : v.written = w.written := by
  cases v with
  | arr xs => exact absurd rfl (harr xs)
  | obj fs => exact absurd rfl (hobj fs)
  | num n =>
    cases w with
    | num m => exact Face.leaf.inj h
    | arr _ | obj _ => cases h
    | _ => exact Face.leaf.inj h
  | _ =>
    cases w with
    | num m => exact Face.leaf.inj h
    | arr _ | obj _ => cases h
    | _ => exact congrArg written (Face.leaf.inj h)

mutual

/-- Values with their keys in order are written alike when they look the same everywhere. -/
theorem written_eq_of_faceAt : ∀ {v w : Json}, v.Ascending → w.Ascending →
    (∀ path, v.faceAt path = w.faceAt path) → v.written = w.written
  | .arr xs, w, hv, hw, h => by
    cases w with
    | arr ys =>
      have hlength : xs.length = ys.length := Face.array.inj (Option.some.inj (h []))
      refine congrArg arr (writtenList_eq_of_faceAt hv hw hlength fun i path => ?_)
      simpa [faceAt_cons, child] using h (.index i :: path)
    | _ => cases h []
  | .obj fs, w, hv, hw, h => by
    cases w with
    | obj gs =>
      have hget : ∀ k path, (Fields.get fs k).bind (faceAt · path) = (Fields.get gs k).bind (faceAt · path) :=
        fun k path => by simpa [faceAt_cons, child] using h (.key k :: path)
      exact congrArg obj (writtenFields_eq_of_faceAt hv.2 hw.2
        (keys_of_faceAt hv.1 hw.1 fun k => hget k []) (nodup_of_keyLt hv.1) hget)
    | _ => cases h []
  | .null, w, _, _, h => written_of_face (Option.some.inj (h [])) nofun nofun
  | .bool _, w, _, _, h => written_of_face (Option.some.inj (h [])) nofun nofun
  | .num _, w, _, _, h => written_of_face (Option.some.inj (h [])) nofun nofun
  | .str _, w, _, _, h => written_of_face (Option.some.inj (h [])) nofun nofun

theorem writtenList_eq_of_faceAt : ∀ {xs ys : List Json}, AscendingList xs → AscendingList ys →
    xs.length = ys.length →
    (∀ (i : Nat) path, (xs[i]?).bind (faceAt · path) = (ys[i]?).bind (faceAt · path)) →
    writtenList xs = writtenList ys
  | [], [], _, _, _, _ => rfl
  | [], _ :: _, _, _, hlength, _ => nomatch hlength
  | _ :: _, [], _, _, hlength, _ => nomatch hlength
  | x :: xs, y :: ys, hx, hy, hlength, h => by
    have hhead := written_eq_of_faceAt hx.1 hy.1 fun path => by simpa using h 0 path
    have htail := writtenList_eq_of_faceAt hx.2 hy.2 (by simpa using hlength) fun i path => by
      simpa using h (i + 1) path
    rw [writtenList, writtenList, hhead, htail]

theorem writtenFields_eq_of_faceAt : ∀ {fs gs : List (String × Json)}, AscendingFields fs →
    AscendingFields gs → fs.map Prod.fst = gs.map Prod.fst → (fs.map Prod.fst).Nodup →
    (∀ k path, (Fields.get fs k).bind (faceAt · path) = (Fields.get gs k).bind (faceAt · path)) →
    writtenFields fs = writtenFields gs
  | [], [], _, _, _, _, _ => rfl
  | [], _ :: _, _, _, hkeys, _, _ => nomatch hkeys
  | _ :: _, [], _, _, hkeys, _, _ => nomatch hkeys
  | (k, v) :: fs, (k', w) :: gs, hv, hw, hkeys, hnodup, h => by
    obtain rfl : k = k' := (List.cons.inj hkeys).1
    have hkeys : fs.map Prod.fst = gs.map Prod.fst := (List.cons.inj hkeys).2
    obtain ⟨hk, hnodup⟩ := List.nodup_cons.mp hnodup
    have hf : Fields.get fs k = none := by
      rw [← Option.not_isSome_iff_eq_none, isSome_get]
      exact hk
    have hg : Fields.get gs k = none := by
      rw [← Option.not_isSome_iff_eq_none, isSome_get, ← hkeys]
      exact hk
    have hhead := written_eq_of_faceAt hv.1 hw.1 fun path => by simpa using h k path
    have htail := writtenFields_eq_of_faceAt hv.2 hw.2 hkeys hnodup fun k' path => by
      by_cases hne : k' = k
      · rw [hne, hf, hg]
      · simpa [Fields.get_cons, hne] using h k' path
    rw [writtenFields, writtenFields, hhead, htail]

end

theorem writtenList_eq_map (xs : List Json) : writtenList xs = xs.map written := by
  induction xs with
  | nil => rfl
  | cons x xs ih => rw [writtenList, ih, List.map_cons]

theorem written_face : ∀ v : Json, v.written.face = v.face
  | .num n => by
    unfold written
    split
    · rfl
    · next h => simp [face, written, h]
  | .arr xs => by
    show Face.array _ = Face.array _
    rw [writtenList_eq_map, List.length_map]
  | .null | .bool _ | .str _ | .obj _ => rfl

theorem child_written (v : Json) (s : Step) : v.written.child s = (v.child s).map written := by
  cases v with
  | obj fs =>
    cases s with
    | key k => exact prop_written (.obj fs) k
    | index i => rfl
  | arr xs =>
    cases s with
    | key k => rfl
    | index i =>
      show (writtenList xs)[i]? = _
      rw [writtenList_eq_map, List.getElem?_map]
      rfl
  | num n =>
    unfold written
    split <;> cases s <;> rfl
  | _ => cases s <;> rfl

theorem faceAt_written (v : Json) (path : List Step) : v.written.faceAt path = v.faceAt path := by
  induction path generalizing v with
  | nil => exact congrArg some (written_face v)
  | cons s path ih =>
    rw [faceAt_cons, faceAt_cons, child_written]
    cases v.child s with
    | none => rfl
    | some w => exact ih w

/-! ## The listed keys -/

namespace Json

mutual

/-- The value with the listed names only, in the order of the list, at any depth. -/
def restrict (keys : List String) : Json → Json
  | arr xs => arr (restrictList keys xs)
  | obj fs => obj (keys.filterMap fun k => (Fields.get (restrictFields keys fs) k).map (k, ·))
  | v => v

def restrictList (keys : List String) : List Json → List Json
  | [] => []
  | x :: xs => restrict keys x :: restrictList keys xs

def restrictFields (keys : List String) : List (String × Json) → List (String × Json)
  | [] => []
  | (k, v) :: fs => (k, restrict keys v) :: restrictFields keys fs

end

/-- `JSON.stringify(v, keys)`. -/
def textOver (keys : List String) (v : Json) : List Char := (v.restrict keys).text

end Json

theorem restrictList_eq_map (keys : List String) (xs : List Json) :
    restrictList keys xs = xs.map (restrict keys) := by
  induction xs with
  | nil => rfl
  | cons x xs ih => rw [restrictList, ih, List.map_cons]

theorem get_restrictFields (keys : List String) (fs : Fields) (k : String) :
    Fields.get (restrictFields keys fs) k = (fs.get k).map (restrict keys) := by
  induction fs with
  | nil => rfl
  | cons p fs ih =>
    obtain ⟨k', v⟩ := p
    rw [restrictFields, Fields.get_cons, Fields.get_cons, ih]
    split <;> rfl

/-- The fields with the listed names. -/
def listed (keys : List String) (g : String → Option Json) : Fields :=
  keys.filterMap fun k => (g k).map (k, ·)

theorem get_listed (keys : List String) (g : String → Option Json) (k : String) :
    Fields.get (listed keys g) k = if k ∈ keys then g k else none := by
  induction keys with
  | nil => rfl
  | cons k' keys ih =>
    rw [listed, List.filterMap_cons]
    by_cases hk : k = k'
    · subst hk
      cases hg : g k with
      | none =>
        rw [Option.map_none, ← listed, ih]
        simp [hg]
      | some v => simp
    · cases hg : g k' with
      | none =>
        rw [Option.map_none, ← listed, ih]
        simp [hk]
      | some v =>
        rw [Option.map_some, ← listed, Fields.get_cons, if_neg hk, ih]
        simp [hk]

theorem map_fst_listed (keys : List String) (g : String → Option Json) :
    ((listed keys g).map Prod.fst).Sublist keys := by
  induction keys with
  | nil => exact .refl _
  | cons k keys ih =>
    rw [listed, List.filterMap_cons]
    cases g k with
    | none => exact ih.cons k
    | some v => exact ih.cons_cons k

theorem ascendingFields_listed {keys : List String} {g : String → Option Json}
    (hg : ∀ k v, g k = some v → v.Ascending) : AscendingFields (listed keys g) := by
  induction keys with
  | nil => trivial
  | cons k keys ih =>
    rw [listed, List.filterMap_cons]
    cases hk : g k with
    | none => exact ih
    | some v => exact ⟨hg k v hk, ih⟩

mutual

theorem ascending_restrict {keys : List String} (hkeys : keys.Pairwise keyLt) :
    ∀ v : Json, (v.restrict keys).Ascending
  | .arr xs => ascendingList_restrict hkeys xs
  | .obj fs => ⟨hkeys.sublist (map_fst_listed keys _),
      ascendingFields_listed fun k v hv => ascending_restrictFields hkeys fs k v hv⟩
  | .null | .bool _ | .num _ | .str _ => trivial

theorem ascendingList_restrict {keys : List String} (hkeys : keys.Pairwise keyLt) :
    ∀ xs : List Json, AscendingList (restrictList keys xs)
  | [] => trivial
  | x :: xs => ⟨ascending_restrict hkeys x, ascendingList_restrict hkeys xs⟩

theorem ascending_restrictFields {keys : List String} (hkeys : keys.Pairwise keyLt) :
    ∀ (fs : List (String × Json)) (k : String) (v : Json),
    Fields.get (restrictFields keys fs) k = some v → v.Ascending
  | [], _, _, h => nomatch h
  | (k', w) :: fs, k, v, h => by
    rw [restrictFields, Fields.get_cons] at h
    split at h
    · cases h
      exact ascending_restrict hkeys w
    · exact ascending_restrictFields hkeys fs k v h

end

/-- The path names listed keys only. -/
def Over (keys : List String) (path : List Step) : Bool :=
  path.all fun
    | .key k => keys.contains k
    | .index _ => true

theorem over_cons (keys : List String) (s : Step) (path : List Step) :
    Over keys (s :: path) = (Over keys [s] && Over keys path) := by
  simp [Over]

theorem over_congr {keys keys' : List String} (h : ∀ k, k ∈ keys ↔ k ∈ keys') (path : List Step) :
    Over keys path = Over keys' path := by
  induction path with
  | nil => rfl
  | cons s path ih =>
    rw [over_cons, over_cons keys', ih]
    cases s with
    | key k => simp [Over, h]
    | index i => rfl

theorem child_restrict (keys : List String) (v : Json) (s : Step) :
    (v.restrict keys).child s = if Over keys [s] then (v.child s).map (restrict keys) else none := by
  cases v with
  | obj fs =>
    cases s with
    | key k =>
      show Fields.get (listed keys _) k = _
      rw [get_listed, get_restrictFields]
      simp [Over, child]
    | index i => rfl
  | arr xs =>
    cases s with
    | key k =>
      show none = _
      split <;> rfl
    | index i =>
      show (restrictList keys xs)[i]? = _
      rw [restrictList_eq_map, List.getElem?_map]
      rfl
  | _ =>
    show none = _
    cases s <;> split <;> rfl

theorem face_restrict (keys : List String) (v : Json) : (v.restrict keys).face = v.face := by
  cases v with
  | arr xs =>
    show Face.array _ = Face.array _
    rw [restrictList_eq_map, List.length_map]
  | _ => rfl

/-- Of a value written over the listed keys one sees what is on the paths over these. -/
theorem faceAt_restrict (keys : List String) (v : Json) (path : List Step) :
    (v.restrict keys).faceAt path = if Over keys path then v.faceAt path else none := by
  induction path generalizing v with
  | nil => exact congrArg some (face_restrict keys v)
  | cons s path ih =>
    have hover := over_cons keys s path
    rw [faceAt_cons, faceAt_cons, child_restrict, hover]
    cases hs : Over keys [s] with
    | false => simp
    | true =>
      cases v.child s with
      | none => simp
      | some w => simpa using ih w

/-- Written over their listed keys, two values have one text just when they look the same on all
paths over these. -/
theorem textOver_eq_iff {keys keys' : List String} (hkeys : keys.Pairwise keyLt)
    (hkeys' : keys'.Pairwise keyLt) (v w : Json) :
    v.textOver keys = w.textOver keys' ↔ ∀ path, (if Over keys path then v.faceAt path else none) =
      if Over keys' path then w.faceAt path else none := by
  constructor
  · intro h path
    rw [← faceAt_restrict, ← faceAt_restrict, ← faceAt_written, written_eq_of_text h, faceAt_written]
  · intro h
    have hsame := written_eq_of_faceAt (ascending_restrict hkeys v) (ascending_restrict hkeys' w)
      fun path => by rw [faceAt_restrict, faceAt_restrict, h path]
    rw [textOver, textOver, ← text_written, hsame, text_written]

/-! ## Names in order -/

/-- `Object.keys(v).sort()`. -/
def sortedKeys (names : List String) : List String :=
  names.dedup.insertionSort (keyLe · · = true)

theorem mem_sortedKeys {names : List String} {k : String} : k ∈ sortedKeys names ↔ k ∈ names := by
  rw [sortedKeys, List.mem_insertionSort, List.mem_dedup]

theorem over_sortedKeys (names : List String) (path : List Step) :
    Over (sortedKeys names) path = Over names path :=
  over_congr (fun _ => mem_sortedKeys) path

theorem pairwise_sortedKeys (names : List String) : (sortedKeys names).Pairwise keyLt := by
  have htotal : Std.Total fun a b : String => keyLe a b = true := ⟨fun a b => lexLe_total _ _⟩
  have htrans : IsTrans String fun a b => keyLe a b = true := ⟨fun a b c => lexLe_trans⟩
  have hsorted : (sortedKeys names).Pairwise fun a b => keyLe a b = true :=
    List.pairwise_insertionSort _ _
  have hnodup : (sortedKeys names).Nodup :=
    (List.perm_insertionSort _ _).nodup_iff.mpr (List.nodup_dedup _)
  exact hsorted.and hnodup

/-! ## Objects written over their own names -/

/-- An object with its fields, those set to `undefined` among them. -/
abbrev Record := List (String × Option Json)

namespace Record

/-- `const { hidden, ...rest } = r`. -/
def without (hidden : List String) (r : Record) : Record := r.filter fun f => f.1 ∉ hidden

def names (r : Record) : List String := r.map Prod.fst

def value (r : Record) : Json := .obj (Fields.ofOptions r)

/-- `r.k`. -/
def get (r : Record) (k : String) : Option Json := (Fields.ofOptions r).get k

/-- `JSON.stringify(r, Object.keys(r).sort())`. -/
def canonical (r : Record) : String := String.ofList (r.value.textOver (sortedKeys r.names))

/-- What the text shows on the path. -/
def shown (r : Record) (path : List Step) : Option Face :=
  if Over r.names path then r.value.faceAt path else none

/-- The text shows what is on the paths over the names of the object, and nothing else. -/
theorem canonical_eq_iff {r r' : Record} :
    r.canonical = r'.canonical ↔ ∀ path, r.shown path = r'.shown path := by
  rw [canonical, canonical, String.ofList_inj,
    textOver_eq_iff (pairwise_sortedKeys _) (pairwise_sortedKeys _)]
  simp only [over_sortedKeys]
  rfl

@[simp] theorem get_cons (k k' : String) (v : Option Json) (r : Record) :
    get ((k', v) :: r) k = if k = k' then v.or (get r k) else get r k :=
  Fields.get_ofOptions_cons k k' v r

theorem mem_names_without {hidden : List String} {r : Record} {k : String} :
    k ∈ (r.without hidden).names ↔ k ∈ r.names ∧ k ∉ hidden := by
  simp only [names, without, List.mem_map, List.mem_filter, decide_eq_true_eq]
  exact ⟨fun ⟨f, ⟨hf, hk⟩, heq⟩ => ⟨⟨f, hf, heq⟩, heq ▸ hk⟩, fun ⟨⟨f, hf, heq⟩, hk⟩ => ⟨f, ⟨hf, heq ▸ hk⟩, heq⟩⟩

theorem get_without {hidden : List String} {k : String} (hk : k ∉ hidden) (r : Record) :
    (r.without hidden).get k = r.get k := by
  induction r with
  | nil => rfl
  | cons f r ih =>
    obtain ⟨k', v⟩ := f
    unfold without at ih ⊢
    by_cases hk' : k' ∈ hidden
    · have hne : k ≠ k' := fun heq => hk (heq ▸ hk')
      rw [List.filter_cons_of_neg (by simpa using hk'), ih, get_cons, if_neg hne]
    · rw [List.filter_cons_of_pos (by simpa using hk'), get_cons, get_cons, ih]

/-- A field of one object under a name that the other does not have shows in the text. -/
theorem canonical_ne {r r' : Record} {k : String} {v : Json} (hk : k ∈ r.names) (hv : r.get k = some v)
    (hk' : k ∉ r'.names) : r.canonical ≠ r'.canonical := by
  intro heq
  have hshown := canonical_eq_iff.mp heq [.key k]
  have hr : r.shown [.key k] = some v.face := by
    have hover : Over r.names [.key k] = true := by simp [Over, hk]
    rw [shown, if_pos hover]
    show ((Fields.ofOptions r).get k >>= fun w => some w).map Json.face = _
    rw [show (Fields.ofOptions r).get k = some v from hv]
    rfl
  have hr' : r'.shown [.key k] = none := by
    have hover : ¬ Over r'.names [.key k] = true := by simp [Over, hk']
    rw [shown, if_neg hover]
  rw [hr, hr'] at hshown
  cases hshown

end Record

end SimpleL1.Js
