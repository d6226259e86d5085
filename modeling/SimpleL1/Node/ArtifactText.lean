import SimpleL1.Node.Platform
import SimpleL1.Wire.NormalForm
import Mathlib.Data.Set.Function

/-!
# What the text of an artifact tells

Keys are sorted as they come and set, in normal form, in an ordinary object: keys that fall together
are one there, and `__proto__` is none. Over keys where neither happens the canonical text tells values
apart up to normal form and key order, and over no others.
-/

namespace SimpleL1.Node

open SimpleL1.Js SimpleL1.Wire

variable {p : Platform} {K : Set String}

/-- `normalize('NFC')`, idempotent. -/
def Platform.normal (p : Platform) (hnfc : ∀ s, p.nfc (p.nfc s) = p.nfc s) : Nfc := ⟨p.nfc, hnfc⟩

/-- Every key inside is one of these. -/
def Over (K : Set String) : Json → Prop := Everywhere fun fs => ∀ k ∈ Wire.keysOf fs, k ∈ K

/-- No two of the keys fall together, and none is special. -/
structure Apart (p : Platform) (K : Set String) : Prop where
  ordinary : ∀ k ∈ K, p.nfc k ≠ "__proto__"
  injOn : Set.InjOn p.nfc K

/-! ## The object that is built -/

theorem perm_enumerated (fs : Fields) : (enumerated fs).Perm fs := by
  have hsplit := List.filter_append_perm (fun f : String × Json => (arrayIndex f.1).isSome) fs
  have hnone : (fun f : String × Json => !(arrayIndex f.1).isSome) = fun f => (arrayIndex f.1).isNone := by
    funext f
    cases arrayIndex f.1 <;> rfl
  rw [hnone] at hsplit
  exact ((List.perm_insertionSort _ _).append_right _).trans hsplit

theorem assign_ordinary {acc : Accumulator} {k : String} {v : Json} {accessor : Bool} (hk : k ≠ "__proto__") :
    acc.assign k v accessor = { acc with fields := acc.fields.set k v } := by
  unfold Accumulator.assign
  rw [if_neg (by simp [hk])]

/-- Keys that stay apart are all set. -/
theorem foldl_assign (gs : Fields) (l : List (String × Json × Bool))
    (hordinary : ∀ f ∈ l, p.nfc f.1 ≠ "__proto__")
    (hnodup : (Wire.keysOf gs ++ l.map fun f => p.nfc f.1).Nodup) :
    l.foldl (fun acc f => acc.assign (p.nfc f.1) f.2.1 f.2.2) (Accumulator.mk gs true) =
      ⟨gs ++ l.map fun f => (p.nfc f.1, f.2.1), true⟩ := by
  induction l generalizing gs with
  | nil => simp
  | cons f l ih =>
    obtain ⟨hf, hl⟩ := List.forall_mem_cons.mp hordinary
    have hfresh : p.nfc f.1 ∉ Wire.keysOf gs := fun hmem =>
      (List.nodup_append.mp hnodup).2.2 _ hmem _ List.mem_cons_self rfl
    rw [List.foldl_cons, assign_ordinary hf, set_append hfresh, ih _ hl]
    · simp
    · simpa [Wire.keysOf] using hnodup

theorem canonicalFields_eq_map (fs : Fields) :
    canonicalFields p fs = fs.map fun f => (f.1, canonical p f.2) := by
  induction fs with
  | nil => rfl
  | cons f fs ih => rw [canonicalFields, ih, List.map_cons]

theorem canonicalAll_eq_map (xs : List Json) : canonicalAll p xs = xs.map (canonicalize p) := by
  induction xs with
  | nil => rfl
  | cons x xs ih =>
    rw [canonicalAll, ih, List.map_cons]
    rfl

theorem canonicalize_arr (xs : List Json) : canonicalize p (.arr xs) = .arr (xs.map (canonicalize p)) := by
  rw [← canonicalAll_eq_map]
  rfl

/-- The keys of an object stay distinct in normal form. -/
theorem Apart.nodup (h : Apart p K) {fs : Fields} (hover : ∀ k ∈ Wire.keysOf fs, k ∈ K) (hnodup : (Wire.keysOf fs).Nodup) :
    ((Wire.keysOf fs).map p.nfc).Nodup :=
  hnodup.map_on fun _ ha _ hb heq => h.injOn (hover _ ha) (hover _ hb) heq

theorem canonicalize_obj (h : Apart p K) {fs : Fields} (hover : ∀ k ∈ Wire.keysOf fs, k ∈ K)
    (hnodup : (Wire.keysOf fs).Nodup) :
    canonicalize p (.obj fs) =
      .obj (enumerated ((sortFields (fs.map fun f => (f.1, canonicalize p f.2))).map fun f => (p.nfc f.1, f.2))) := by
  have hkeys : ∀ f ∈ sortFields (fs.map fun f => (f.1, canonical p f.2)), f.1 ∈ Wire.keysOf fs := by
    intro f hf
    obtain ⟨e, he, rfl⟩ := List.mem_map.mp ((perm_sortFields _).mem_iff.mp hf)
    exact List.mem_map_of_mem he
  have hfold := foldl_assign (p := p) [] (sortFields (fs.map fun f => (f.1, canonical p f.2)))
    (fun f hf => h.ordinary _ (hover _ (hkeys f hf))) (by
      have hperm := ((perm_sortFields (fs.map fun f => (f.1, canonical p f.2))).map fun f => p.nfc f.1).nodup_iff
      rw [Wire.keysOf, List.map_nil, List.nil_append, hperm, List.map_map]
      have hnfc := h.nodup hover hnodup
      rw [Wire.keysOf, List.map_map] at hnfc
      exact hnfc)
  have hmap := map_sortFields (Prod.fst : Json × Bool → Json) (fs.map fun f => (f.1, canonical p f.2))
  rw [List.map_map] at hmap
  have hbuilt : canonicalize p (.obj fs) = .obj (enumerated ((sortFields (canonicalFields p fs)).foldl
      (fun acc f => acc.assign (p.nfc f.1) f.2.1 f.2.2) (Accumulator.mk [] true)).fields) := by
    rw [canonicalize, canonical]
  have hvalues : (sortFields (fs.map fun f => (f.1, canonical p f.2))).map (fun f => (p.nfc f.1, f.2.1)) =
      ((sortFields (fs.map fun f => (f.1, canonical p f.2))).map fun f => (f.1, f.2.1)).map
        fun f => (p.nfc f.1, f.2) := by
    rw [List.map_map]
    rfl
  rw [hbuilt, canonicalFields_eq_map, hfold, List.nil_append, hvalues, hmap]
  rfl

/-! ## Over keys that stay apart -/

section
variable (hnfc : ∀ s, p.nfc (p.nfc s) = p.nfc s)

theorem canon_obj (fs : Fields) : (Json.obj fs).canon = .obj (sortFields (fs.map fun f => (f.1, f.2.canon))) := by
  rw [Json.canon, Json.canonFields_eq_map]

theorem normalized_obj (n : Nfc) (fs : Fields) :
    normalized n (.obj fs) = .obj (fs.map fun f => (n.normal f.1, normalized n f.2)) := by
  rw [normalized, normalizedFields_eq_map]

/-- What is built has the fields of the normalized value, in another order. -/
theorem canon_canonicalize (h : Apart p K) {v : Json} : Over K v → DistinctKeys v →
    (canonicalize p v).canon = (normalized (p.normal hnfc) v).canon := by
  induction v using by_parts with
  | harr xs ih =>
    intro hover hdistinct
    rw [canonicalize_arr, normalized, normalizedList_eq_map, Json.canon, Json.canon, Json.canonList_eq_map,
      Json.canonList_eq_map, List.map_map, List.map_map]
    exact congrArg Json.arr (List.map_congr_left fun x hx =>
      ih x hx (everywhere_arr.mp hover x hx) (everywhere_arr.mp hdistinct x hx))
  | hobj fs ih =>
    intro hover hdistinct
    obtain ⟨hkeys, hover⟩ := everywhere_obj.mp hover
    obtain ⟨hnodup, hdistinct⟩ := everywhere_obj.mp hdistinct
    rw [canonicalize_obj h hkeys hnodup, normalized_obj, canon_obj, canon_obj, List.map_map]
    have hvalues : fs.map ((fun f => (p.nfc f.1, f.2.canon)) ∘ fun f => (f.1, canonicalize p f.2)) =
        fs.map ((fun f => (f.1, f.2.canon)) ∘ fun f => ((p.normal hnfc).normal f.1, normalized (p.normal hnfc) f.2)) :=
      List.map_congr_left fun f hf =>
        Prod.ext rfl (ih f hf (hover f hf) (hdistinct f hf))
    have hperm : ((enumerated ((sortFields (fs.map fun f => (f.1, canonicalize p f.2))).map
        fun f => (p.nfc f.1, f.2))).map fun f => (f.1, f.2.canon)).Perm
          (fs.map ((fun f => (f.1, f.2.canon)) ∘
            fun f => ((p.normal hnfc).normal f.1, normalized (p.normal hnfc) f.2))) := by
      rw [← hvalues]
      refine ((perm_enumerated _).map _).trans ?_
      rw [List.map_map]
      refine ((perm_sortFields _).map _).trans ?_
      rw [List.map_map]
      exact .refl _
    refine congrArg Json.obj (sortFields_perm hperm ((hperm.map Prod.fst).nodup_iff.mpr ?_))
    rw [List.map_map]
    have hnormal := h.nodup hkeys hnodup
    rw [Wire.keysOf, List.map_map] at hnormal
    exact hnormal
  | _ => exact fun _ _ => rfl

theorem finite_canonicalize (h : Apart p K) {v : Json} : Over K v → DistinctKeys v → v.finite = true →
    (canonicalize p v).finite = true := by
  induction v using by_parts with
  | harr xs ih =>
    intro hover hdistinct hfinite
    have hall : ∀ ys : List Json, Json.finiteList ys = ys.all Json.finite := fun ys => by
      induction ys with
      | nil => rfl
      | cons y ys ihy => simp [Json.finiteList, ihy]
    rw [Json.finite, hall, List.all_eq_true] at hfinite
    rw [canonicalize_arr, Json.finite, hall, List.all_map, List.all_eq_true]
    exact fun x hx => ih x hx (everywhere_arr.mp hover x hx) (everywhere_arr.mp hdistinct x hx) (hfinite x hx)
  | hobj fs ih =>
    intro hover hdistinct hfinite
    obtain ⟨hkeys, hover⟩ := everywhere_obj.mp hover
    obtain ⟨hnodup, hdistinct⟩ := everywhere_obj.mp hdistinct
    rw [Json.finite, Json.finiteFields_eq_all, List.all_eq_true] at hfinite
    rw [canonicalize_obj h hkeys hnodup, Json.finite, Json.finiteFields_perm (perm_enumerated _),
      Json.finiteFields_eq_all, List.all_map, (perm_sortFields _).all_eq, List.all_map, List.all_eq_true]
    exact fun f hf => ih f hf (hover f hf) (hdistinct f hf) (hfinite f hf)
  | hnum n => exact fun _ _ hfinite => hfinite
  | _ => exact fun _ _ _ => rfl

/-- Lists with the same `f`-images, in some order, have the same `g`-images where `f` decides `g`. -/
theorem perm_map_of_perm_map {α β γ : Type} {f : α → β} {g : α → γ} {l m : List α} (h : (l.map f).Perm (m.map f))
    (hfg : ∀ a ∈ l, ∀ b ∈ m, f a = f b → g a = g b) : (l.map g).Perm (m.map g) := by
  induction l generalizing m with
  | nil =>
    rw [List.map_nil, List.nil_perm, List.map_eq_nil_iff] at h
    rw [h]
  | cons a l ih =>
    obtain ⟨b, hb, hab⟩ := List.mem_map.mp (h.mem_iff.mp List.mem_cons_self)
    obtain ⟨m₁, m₂, rfl⟩ := List.append_of_mem hb
    have hmid : (m₁ ++ b :: m₂).Perm (b :: (m₁ ++ m₂)) := List.perm_middle
    have hrest : (l.map f).Perm ((m₁ ++ m₂).map f) := by
      have htail := h.trans (hmid.map f)
      rw [List.map_cons, List.map_cons, hab] at htail
      exact htail.cons_inv
    have hg : (l.map g).Perm ((m₁ ++ m₂).map g) := ih hrest fun a' ha' b' hb' =>
      hfg a' (List.mem_cons_of_mem _ ha') b' (hmid.mem_iff.mpr (List.mem_cons_of_mem _ hb'))
    rw [List.map_cons, hfg a List.mem_cons_self b hb hab.symm]
    exact (hg.cons (g b)).trans (hmid.map g).symm

theorem map_eq_of_map_eq {α β γ : Type} {f : α → β} {g : α → γ} {l m : List α} (h : l.map f = m.map f)
    (hfg : ∀ a ∈ l, ∀ b ∈ m, f a = f b → g a = g b) : l.map g = m.map g := by
  induction l generalizing m with
  | nil =>
    rw [List.map_nil, List.nil_eq, List.map_eq_nil_iff] at h
    rw [h]
  | cons a l ih =>
    cases m with
    | nil => cases h
    | cons b m =>
      obtain ⟨hab, hrest⟩ := List.cons.inj h
      rw [List.map_cons, List.map_cons, hfg a List.mem_cons_self b List.mem_cons_self hab,
        ih hrest fun a' ha' b' hb' => hfg a' (List.mem_cons_of_mem _ ha') b' (List.mem_cons_of_mem _ hb')]

/-- Values that are the same after normalization are built alike. -/
theorem canonicalize_eq_of_same (h : Apart p K) {v : Json} : ∀ {w : Json}, Over K v → Over K w → DistinctKeys v →
    DistinctKeys w → (normalized (p.normal hnfc) v).Same (normalized (p.normal hnfc) w) →
    canonicalize p v = canonicalize p w := by
  induction v using by_parts with
  | harr xs ih =>
    intro w hv hw hdv hdw hsame
    cases w with
    | arr ys =>
      unfold Json.Same at hsame
      rw [normalized, normalized, normalizedList_eq_map, normalizedList_eq_map, Json.canon, Json.canon,
        Json.canonList_eq_map, Json.canonList_eq_map, List.map_map, List.map_map] at hsame
      rw [canonicalize_arr, canonicalize_arr]
      refine congrArg Json.arr (map_eq_of_map_eq (Json.arr.inj hsame) fun x hx y hy hxy => ?_)
      exact ih x hx (everywhere_arr.mp hv x hx) (everywhere_arr.mp hw y hy) (everywhere_arr.mp hdv x hx)
        (everywhere_arr.mp hdw y hy) hxy
    | _ => cases hsame
  | hobj fs ih =>
    intro w hv hw hdv hdw hsame
    cases w with
    | obj gs =>
      obtain ⟨hkv, hv⟩ := everywhere_obj.mp hv
      obtain ⟨hkw, hw⟩ := everywhere_obj.mp hw
      obtain ⟨hnv, hdv⟩ := everywhere_obj.mp hdv
      obtain ⟨hnw, hdw⟩ := everywhere_obj.mp hdw
      unfold Json.Same at hsame
      rw [normalized_obj, normalized_obj, canon_obj, canon_obj, List.map_map, List.map_map] at hsame
      have hperm := ((perm_sortFields _).symm.trans (.of_eq (Json.obj.inj hsame))).trans (perm_sortFields _)
      have hbuilt := perm_map_of_perm_map (g := fun f => (f.1, canonicalize p f.2)) hperm fun f hf g hg hfg => by
        obtain ⟨hkey, hvalue⟩ := Prod.mk.inj hfg
        have hkey := h.injOn (hkv _ (List.mem_map_of_mem hf)) (hkw _ (List.mem_map_of_mem hg)) hkey
        exact Prod.ext hkey (ih f hf (hv f hf) (hw g hg) (hdv f hf) (hdw g hg) hvalue)
      rw [canonicalize_obj h hkv hnv, canonicalize_obj h hkw hnw, sortFields_perm hbuilt]
      rw [List.map_map]
      exact hnv
    | _ => cases hsame
  | hstr s =>
    intro w _ _ _ _ hsame
    cases w with
    | str t => exact congrArg Json.str (Json.str.inj hsame)
    | _ => cases hsame
  | _ =>
    intro w _ _ _ _ hsame
    cases w <;> cases hsame
    rfl

/-- The text and the hash tell the values apart up to normal form and key order. -/
def Tells (p : Platform) (n : Nfc) (v w : Json) : Prop :=
  (canonicalJson p v = canonicalJson p w ↔ (normalized n v).Same (normalized n w)) ∧
    (hashObject p v = hashObject p w ↔ (normalized n v).Same (normalized n w))

theorem tells (hcf : p.toHost.CollisionFree) (h : Apart p K) {v w : Json} (hv : Over K v) (hw : Over K w)
    (hvj : Wellformed v) (hwj : Wellformed w) : Tells p (p.normal hnfc) v w := by
  have htext : canonicalJson p v = canonicalJson p w ↔
      (normalized (p.normal hnfc) v).Same (normalized (p.normal hnfc) w) := by
    constructor
    · intro heq
      have hbuilt : canonicalize p v = canonicalize p w :=
        Json.text_injective (finite_canonicalize h hv hvj.distinct hvj.finite)
          (finite_canonicalize h hw hwj.distinct hwj.finite) (String.ofList_injective heq)
      unfold Json.Same
      rw [← canon_canonicalize hnfc h hv hvj.distinct, hbuilt, canon_canonicalize hnfc h hw hwj.distinct]
    · intro hsame
      rw [canonicalJson, canonicalJson, canonicalize_eq_of_same hnfc h hv hw hvj.distinct hwj.distinct hsame]
  exact ⟨htext, hcf.eq_iff.trans htext⟩

/-! ## Over keys that do not -/

/-- An object with one true field for each of the keys. -/
def flagged (keys : List String) : Json := .obj (keys.map fun k => (k, .bool true))

theorem over_flagged {keys : List String} (h : ∀ k ∈ keys, k ∈ K) : Over K (flagged keys) := by
  refine everywhere_obj.mpr ⟨fun k hk => h k ?_, fun f hf => ?_⟩
  · simpa [Wire.keysOf, List.map_map, Function.comp_def] using hk
  · obtain ⟨k, -, rfl⟩ := List.mem_map.mp hf
    trivial

theorem wellformed_flagged {keys : List String} (h : keys.Nodup) : Wellformed (flagged keys) := by
  constructor
  · refine everywhere_obj.mpr ⟨?_, fun f hf => ?_⟩
    · rw [Wire.keysOf, List.map_map]
      exact (List.map_id keys).symm ▸ h
    · obtain ⟨k, -, rfl⟩ := List.mem_map.mp hf
      trivial
  · rw [flagged, Json.finite, Json.finiteFields_eq_all, List.all_map]
    exact List.all_eq_true.mpr fun _ _ => rfl

/-- Objects with different numbers of fields are not the same. -/
theorem not_same_flagged {n : Nfc} {keys keys' : List String} (h : keys.length ≠ keys'.length) :
    ¬ (normalized n (flagged keys)).Same (normalized n (flagged keys')) := by
  intro hsame
  unfold Json.Same flagged at hsame
  rw [normalized_obj, normalized_obj, canon_obj, canon_obj] at hsame
  have hlength := congrArg List.length (Json.obj.inj hsame)
  rw [(perm_sortFields _).length_eq, (perm_sortFields _).length_eq] at hlength
  simp only [List.length_map] at hlength
  exact h hlength

theorem canonicalize_flagged (keys : List String) :
    canonicalize p (flagged keys) = .obj (enumerated ((sortFields (keys.map fun k => (k, Json.bool true, true))).foldl
      (fun acc f => acc.assign (p.nfc f.1) f.2.1 f.2.2) (Accumulator.mk [] true)).fields) := by
  rw [flagged, canonicalize, canonical, canonicalFields_eq_map, List.map_map]
  rfl

/-- A special key is not written. -/
theorem canonicalize_special {k : String} (hk : p.nfc k = "__proto__") :
    canonicalize p (flagged [k]) = canonicalize p (flagged []) := by
  have hassign : (Accumulator.mk [] true).assign (p.nfc k) (.bool true) true = ⟨[], true⟩ := by
    unfold Accumulator.assign
    rw [hk]
    rfl
  rw [canonicalize_flagged, canonicalize_flagged]
  show Json.obj (enumerated ((Accumulator.mk [] true).assign (p.nfc k) (.bool true) true).fields) =
    Json.obj (enumerated [])
  rw [hassign]

/-- Two keys that fall together are written as one. -/
theorem canonicalize_together {k l : String} (hk : p.nfc k ≠ "__proto__") (h : p.nfc k = p.nfc l) :
    canonicalize p (flagged [k, l]) = canonicalize p (flagged [k]) := by
  have hone : (Accumulator.mk [] true).assign (p.nfc k) (.bool true) true = ⟨[(p.nfc k, .bool true)], true⟩ :=
    assign_ordinary hk
  have htwo : (Accumulator.mk [(p.nfc k, .bool true)] true).assign (p.nfc k) (.bool true) true =
      ⟨[(p.nfc k, .bool true)], true⟩ := by
    rw [assign_ordinary hk, Fields.set, if_pos rfl]
  have hsorted : ∃ a b, (p.nfc a = p.nfc k ∧ p.nfc b = p.nfc k) ∧
      sortFields [(k, Json.bool true, true), (l, Json.bool true, true)] =
        [(a, Json.bool true, true), (b, Json.bool true, true)] := by
    unfold sortFields
    simp only [List.insertionSort_cons, List.insertionSort_nil, List.orderedInsert_cons, List.orderedInsert_nil]
    split
    · exact ⟨k, l, ⟨rfl, h.symm⟩, rfl⟩
    · exact ⟨l, k, ⟨h.symm, rfl⟩, rfl⟩
  obtain ⟨a, b, ⟨ha, hb⟩, hsorted⟩ := hsorted
  rw [canonicalize_flagged, canonicalize_flagged, List.map_cons, List.map_cons, List.map_nil, hsorted, List.foldl_cons,
    List.foldl_cons, List.foldl_nil, ha, hb, hone, htwo]
  show _ = Json.obj (enumerated ((Accumulator.mk [] true).assign (p.nfc k) (.bool true) true).fields)
  rw [hone]

theorem not_tells {n : Nfc} {keys keys' : List String} (hlength : keys.length ≠ keys'.length)
    (h : canonicalize p (flagged keys) = canonicalize p (flagged keys')) : ¬ Tells p n (flagged keys) (flagged keys') := by
  rintro ⟨htext, -⟩
  refine not_same_flagged hlength (htext.mp ?_)
  rw [canonicalJson, canonicalJson, h]

/-- The text and the hash tell all values over some keys apart exactly when no two of the keys fall
together in normal form and none of them is `__proto__` there. -/
theorem tells_iff (hcf : p.toHost.CollisionFree) (K : Set String) :
    (∀ v w, Over K v → Over K w → Wellformed v → Wellformed w → Tells p (p.normal hnfc) v w) ↔ Apart p K := by
  constructor
  · intro htells
    have hflagged : ∀ {keys keys' : List String}, (∀ k ∈ keys, k ∈ K) → (∀ k ∈ keys', k ∈ K) → keys.Nodup →
        keys'.Nodup → Tells p (p.normal hnfc) (flagged keys) (flagged keys') := fun hkeys hkeys' hnodup hnodup' =>
      htells _ _ (over_flagged hkeys) (over_flagged hkeys') (wellformed_flagged hnodup) (wellformed_flagged hnodup')
    have hordinary : ∀ k ∈ K, p.nfc k ≠ "__proto__" := by
      intro k hk hspecial
      refine not_tells (by simp) (canonicalize_special hspecial) (hflagged ?_ ?_ ?_ ?_)
      · exact List.forall_mem_singleton.mpr hk
      · exact List.forall_mem_nil _
      · exact List.nodup_singleton k
      · exact List.nodup_nil
    refine ⟨hordinary, fun k hk l hl hkl => ?_⟩
    by_contra hne
    refine not_tells (by simp) (canonicalize_together (hordinary k hk) hkl) (hflagged ?_ ?_ ?_ ?_)
    · exact List.forall_mem_cons.mpr ⟨hk, List.forall_mem_singleton.mpr hl⟩
    · exact List.forall_mem_singleton.mpr hk
    · simpa using hne
    · exact List.nodup_singleton k
  · intro h v w hv hw hvj hwj
    exact tells hnfc hcf h hv hw hvj hwj

end

/-! ## One accented key -/

theorem epochText_ne_empty (_ : Int) : "1970-01-01T00:00:00.000Z" ≠ "" := by decide

/-- A platform whose NFC composes one `é`. -/
def accented : Platform where
  toHost := .ofTable [] [] Realm.Host.no_digests
  lower s := s
  upper s := s
  nfc := composing.normal
  parseDate _ := .nan
  isoDate _ := "1970-01-01T00:00:00.000Z"
  lower_lower := Eq.refl
  isoDate_ne_empty := epochText_ne_empty

theorem accented_collisionFree : accented.toHost.CollisionFree :=
  Realm.Host.ofTable_collisionFree (h := Realm.Host.no_digests) List.nodup_nil fun _ hp => (nomatch hp)

theorem accented_tells_ids :
    accented.toHost.CollisionFree ∧ (∀ s, accented.nfc (accented.nfc s) = accented.nfc s) ∧
      ((∀ v w, Over {"id", "e\u0301"} v → Over {"id", "e\u0301"} w → Wellformed v → Wellformed w →
        Tells accented (accented.normal composing.normal_normal) v w) ↔ Apart accented {"id", "e\u0301"}) :=
  ⟨accented_collisionFree, composing.normal_normal,
    tells_iff composing.normal_normal accented_collisionFree {"id", "e\u0301"}⟩

/-- Two spellings of `é` in one object make one field, and `__proto__` makes none. -/
theorem artifacts_fall_together :
    hashObject accented (flagged ["e\u0301", "\u00e9"]) = hashObject accented (flagged ["e\u0301"]) ∧
      ¬ Tells accented (accented.normal composing.normal_normal) (flagged ["e\u0301", "\u00e9"])
        (flagged ["e\u0301"]) ∧
      hashObject accented (flagged ["__proto__"]) = hashObject accented (flagged []) ∧
        ¬ Tells accented (accented.normal composing.normal_normal) (flagged ["__proto__"]) (flagged []) := by
  have htogether : canonicalize accented (flagged ["e\u0301", "\u00e9"]) = canonicalize accented (flagged ["e\u0301"]) :=
    canonicalize_together (by decide) (by decide)
  have hspecial : canonicalize accented (flagged ["__proto__"]) = canonicalize accented (flagged []) :=
    canonicalize_special (by decide)
  refine ⟨?_, not_tells (by decide) htogether, ?_, not_tells (by decide) hspecial⟩
  · rw [hashObject, hashObject, canonicalJson, canonicalJson, htogether]
  · rw [hashObject, hashObject, canonicalJson, canonicalJson, hspecial]

end SimpleL1.Node
