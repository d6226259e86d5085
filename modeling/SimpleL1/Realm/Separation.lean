import SimpleL1.Realm.Chain
import SimpleL1.Realm.Execution
import SimpleL1.Wire.NormalForm

/-!
# What canonical texts separate

JSON values have one canonical text just when they are equal up to the order of object keys; with a
collision-free digest so do the hashes of events and projections and the fingerprints of commands.
-/

namespace SimpleL1.Realm

open SimpleL1.Js SimpleL1.Wire

/-! ## Equal up to the order of keys -/

mutual

inductive Reordered : Json → Json → Prop where
  | null : Reordered .null .null
  | bool (b : Bool) : Reordered (.bool b) (.bool b)
  | num (n : Number) : Reordered (.num n) (.num n)
  | str (s : String) : Reordered (.str s) (.str s)
  | arr {xs ys : List Json} : ReorderedList xs ys → Reordered (.arr xs) (.arr ys)
  | obj {fs gs : List (String × Json)} : ReorderedFields fs gs → Reordered (.obj fs) (.obj gs)

/-- Element by element. -/
inductive ReorderedList : List Json → List Json → Prop where
  | nil : ReorderedList [] []
  | cons {x y : Json} {xs ys : List Json} : Reordered x y → ReorderedList xs ys → ReorderedList (x :: xs) (y :: ys)

/-- Every field has its own among the others, wherever it stands. -/
inductive ReorderedFields : List (String × Json) → List (String × Json) → Prop where
  | nil : ReorderedFields [] []
  | cons {k : String} {v w : Json} {fs gs hs : List (String × Json)} : Reordered v w → ReorderedFields fs (gs ++ hs) →
      ReorderedFields ((k, v) :: fs) (gs ++ (k, w) :: hs)

end

mutual

theorem reordered_of_same : ∀ {v w : Json}, v.Same w → Reordered v w
  | .null, w, h => by
    cases w <;> cases h
    exact .null
  | .bool b, w, h => by
    cases w <;> cases h
    exact .bool b
  | .num n, w, h => by
    cases w <;> cases h
    exact .num n
  | .str s, w, h => by
    cases w <;> cases h
    exact .str s
  | .arr xs, w, h => by
    cases w with
    | arr ys => exact .arr (reorderedList_of_eq (Json.arr.inj h))
    | _ => cases h
  | .obj fs, w, h => by
    cases w with
    | obj gs =>
      refine .obj (reorderedFields_of_perm ?_)
      exact ((perm_sortFields _).symm.trans (.of_eq (Json.obj.inj h))).trans (perm_sortFields _)
    | _ => cases h

theorem reorderedList_of_eq : ∀ {xs ys : List Json}, Json.canonList xs = Json.canonList ys → ReorderedList xs ys
  | [], [], _ => .nil
  | [], _ :: _, h => nomatch h
  | _ :: _, [], h => nomatch h
  | x :: xs, y :: ys, h => by
    obtain ⟨hx, hxs⟩ := List.cons.inj h
    exact .cons (reordered_of_same hx) (reorderedList_of_eq hxs)

theorem reorderedFields_of_perm : ∀ {fs gs : List (String × Json)},
    (Json.canonFields fs).Perm (Json.canonFields gs) → ReorderedFields fs gs
  | [], gs, h => by
    cases gs with
    | nil => exact .nil
    | cons g gs => exact absurd h.length_eq (by simp [Json.canonFields])
  | (k, v) :: fs, gs, h => by
    rw [Json.canonFields_eq_map gs] at h
    obtain ⟨⟨l, w⟩, hmem, heq⟩ := List.mem_map.mp (h.mem_iff.mp List.mem_cons_self)
    obtain ⟨rfl, hvalue⟩ := Prod.mk.inj heq
    obtain ⟨gs₁, gs₂, rfl⟩ := List.append_of_mem hmem
    have hmid : (gs₁ ++ (l, w) :: gs₂).Perm ((l, w) :: (gs₁ ++ gs₂)) := List.perm_middle
    have hrest : (Json.canonFields fs).Perm (Json.canonFields (gs₁ ++ gs₂)) := by
      have htail := h.trans (hmid.map _)
      rw [List.map_cons, hvalue] at htail
      rw [Json.canonFields_eq_map (gs₁ ++ gs₂)]
      exact htail.cons_inv
    exact .cons (reordered_of_same hvalue.symm) (reorderedFields_of_perm hrest)

end

mutual

theorem same_of_reordered {v w : Json} : Reordered v w → DistinctKeys v → v.Same w
  | .null, _ | .bool _, _ | .num _, _ | .str _, _ => rfl
  | .arr h, hv => congrArg Json.arr (eq_of_reorderedList h (everywhere_arr.mp hv))
  | @Reordered.obj fs _ h, hv => by
    obtain ⟨hnodup, hfields⟩ := everywhere_obj.mp hv
    refine congrArg Json.obj (sortFields_perm (perm_of_reorderedFields h hfields) ?_)
    rw [Json.canonFields_eq_map, List.map_map]
    exact hnodup

theorem eq_of_reorderedList {xs ys : List Json} : ReorderedList xs ys → (∀ x ∈ xs, DistinctKeys x) →
    Json.canonList xs = Json.canonList ys
  | .nil, _ => rfl
  | .cons hx hxs, hv => by
    obtain ⟨hvx, hvxs⟩ := List.forall_mem_cons.mp hv
    have hhead : _ = _ := same_of_reordered hx hvx
    rw [Json.canonList, Json.canonList, hhead, eq_of_reorderedList hxs hvxs]

theorem perm_of_reorderedFields {fs gs : List (String × Json)} : ReorderedFields fs gs →
    (∀ f ∈ fs, DistinctKeys f.2) → (Json.canonFields fs).Perm (Json.canonFields gs)
  | .nil, _ => .refl _
  | @ReorderedFields.cons k _ w _ gs hs hv hfs, hd => by
    obtain ⟨hdv, hdfs⟩ := List.forall_mem_cons.mp hd
    have hhead : _ = w.canon := same_of_reordered hv hdv
    have hmid : (gs ++ (k, w) :: hs).Perm ((k, w) :: (gs ++ hs)) := List.perm_middle
    have hrest := perm_of_reorderedFields hfs hdfs
    rw [Json.canonFields_eq_map (gs ++ (k, w) :: hs)]
    rw [Json.canonFields_eq_map (gs ++ hs)] at hrest
    rw [Json.canonFields, hhead]
    have hmoved := (hmid.map fun f : String × Json => (f.1, f.2.canon)).symm
    exact (hrest.cons (k, w.canon)).trans hmoved

end

theorem same_iff_reordered {v w : Json} (hv : DistinctKeys v) : v.Same w ↔ Reordered v w :=
  ⟨reordered_of_same, fun h => same_of_reordered h hv⟩

/-! ## Texts and hashes -/

theorem canonicalEncode_eq_iff_reordered {v w : Json} (hv : Wellformed v) (hw : Wellformed w) :
    canonicalEncode v = canonicalEncode w ↔ Reordered v w := by
  rw [canonicalEncode_eq_iff, Json.written_of_finite hv.finite, Json.written_of_finite hw.finite,
    same_iff_reordered hv.distinct]

/-- The parts of a command that its fingerprint covers. -/
structure Command.Wellformed (c : Command) : Prop where
  payload : Wire.Wellformed c.payload
  actor : Wire.Wellformed c.actor
  evidence : Wire.Wellformed c.evidence

theorem Command.Wellformed.intent {c : Command} (h : c.Wellformed) : Wire.Wellformed c.intent := by
  have hkeys : (["type", "payload", "actor", "evidence"] : List String).Nodup := by decide
  constructor
  · refine everywhere_obj.mpr ⟨hkeys, ?_⟩
    simp only [List.forall_mem_cons, List.not_mem_nil, false_imp_iff, implies_true, and_true]
    exact ⟨trivial, h.payload.distinct, h.actor.distinct, h.evidence.distinct⟩
  · simp [Command.intent, Json.finite, Json.finiteFields, h.payload.finite, h.actor.finite, h.evidence.finite]

/-- The parts agree up to the order of keys. -/
structure Command.SameIntent (c d : Command) : Prop where
  payload : Reordered c.payload d.payload
  actor : Reordered c.actor d.actor
  evidence : Reordered c.evidence d.evidence

theorem Command.reordered_intent_iff {c d : Command} (h : c.Wellformed) :
    Reordered c.intent d.intent ↔ c.SameIntent d := by
  rw [← same_iff_reordered h.intent.distinct]
  constructor
  · intro hsame
    have hprop : ∀ k, (c.intent.prop k).map Json.canon = (d.intent.prop k).map Json.canon := by
      intro k
      rw [← Json.prop_canon, ← Json.prop_canon, hsame]
    exact ⟨reordered_of_same (Option.some.inj (hprop "payload")), reordered_of_same (Option.some.inj (hprop "actor")),
      reordered_of_same (Option.some.inj (hprop "evidence"))⟩
  · rintro ⟨hpayload, hactor, hevidence⟩
    have hp := same_of_reordered hpayload h.payload.distinct
    have ha := same_of_reordered hactor h.actor.distinct
    have he := same_of_reordered hevidence h.evidence.distinct
    unfold Json.Same at hp ha he
    unfold Json.Same Command.intent
    simp only [Json.canon, Json.canonFields, hp, ha, he]

/-- Texts, hashes and fingerprints separate JSON values up to the order of object keys, and nothing else. -/
theorem encoding_separates (host : Host) (hcf : host.CollisionFree) :
    (∀ v w, Wellformed v → Wellformed w → (canonicalEncode v = canonicalEncode w ↔ Reordered v w)) ∧
      (∀ v w, Wellformed v → Wellformed w →
        (host.sha256 (canonicalEncode v) = host.sha256 (canonicalEncode w) ↔ Reordered v w)) ∧
      ∀ c d : Command, c.Wellformed → d.Wellformed →
        (commandIntentFingerprint host c = commandIntentFingerprint host d ↔ c.SameIntent d) := by
  have htext : ∀ v w, Wellformed v → Wellformed w → (canonicalEncode v = canonicalEncode w ↔ Reordered v w) :=
    fun v w => canonicalEncode_eq_iff_reordered
  refine ⟨htext, fun v w hv hw => hcf.eq_iff.trans (htext v w hv hw), fun c d hc hd => ?_⟩
  exact (hcf.eq_iff.trans (htext _ _ hc.intent hd.intent)).trans (Command.reordered_intent_iff hc)

theorem ofTable_separates :
    (Host.ofTable [] [] Host.no_digests).CollisionFree ∧
      ∀ c d : Command, c.Wellformed → d.Wellformed →
        (commandIntentFingerprint (Host.ofTable [] [] Host.no_digests) c =
          commandIntentFingerprint (Host.ofTable [] [] Host.no_digests) d ↔ c.SameIntent d) := by
  have hcf : (Host.ofTable [] [] Host.no_digests).CollisionFree :=
    Host.ofTable_collisionFree List.nodup_nil fun _ hp => (nomatch hp)
  exact ⟨hcf, (encoding_separates _ hcf).2.2⟩

end SimpleL1.Realm
