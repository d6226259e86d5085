import SimpleL1.Execution.Shadow
import SimpleL1.Js.Array

/-!
# What an accepted comparison says

An accepted observation has the kernel's node results one by one, if the texts that the
comparison uses tell the results apart and the kernel lists no node twice. A kernel
result that lists a node twice is matched by an observation that is not the same.
-/

namespace SimpleL1.Execution

open SimpleL1.Js

/-! ## Node results under their keys -/

/-- The key of a result that has one. -/
def keyText (result : Json) : String := (Except.toOption (nodeKey result)).getD ""

theorem keyText_eq {x : Json} {s : String} (h : nodeKey x = .ok s) : keyText x = s := by
  rw [keyText, h]
  rfl

/-- The result that is found under a key: the last one. -/
def recorded (results : List Json) (key : String) : Option Json :=
  results.reverse.find? fun r => keyText r = key

theorem lookup_keyed (results : List Json) (key : String) :
    (results.map fun r => (keyText r, r)).lookup key = results.find? fun r => keyText r = key := by
  induction results with
  | nil => rfl
  | cons r results ih =>
    rw [List.map_cons, List.lookup_cons, List.find?_cons, ih]
    by_cases h : keyText r = key
    · subst h
      simp
    · have hne : (key == keyText r) = false := beq_false_of_ne (Ne.symm h)
      simp [hne, h]

/-- The result found has the status and the output of the kernel's. -/
structure Matches (result : Json) (runtime : Option Json) : Prop where
  found : truthy runtime = true
  status : strictEq (field runtime "status") (result.prop "status") = true
  output_ref : strictEq (field runtime "output_ref") (result.prop "output_ref") = true

theorem mismatches_eq_nil {result : Json} {runtime : Option Json} :
    mismatches result runtime = [] ↔
      strictEq (field runtime "status") (result.prop "status") = true ∧
        strictEq (field runtime "output_ref") (result.prop "output_ref") = true := by
  unfold mismatches
  rw [List.append_eq_nil_iff]
  refine and_congr ?_ ?_ <;> split <;> simp_all

theorem kernelDiff_eq_nil {runtimeByKey : List (String × Json)} {result : Json} :
    kernelDiff runtimeByKey result = .ok [] ↔
      ∃ key, nodeKey result = .ok key ∧ Matches result (runtimeByKey.reverse.lookup key) := by
  unfold kernelDiff
  rw [Js.bind_eq_ok]
  refine exists_congr fun key => and_congr_right fun _ => ?_
  rw [Except.ok.injEq]
  split
  · next h =>
    rw [mismatches_eq_nil]
    exact ⟨fun hm => ⟨h, hm.1, hm.2⟩, fun hm => ⟨hm.status, hm.output_ref⟩⟩
  · next h => exact ⟨(fun hm => by cases hm), fun hm => absurd hm.found h⟩

theorem runtimeDiff_eq_nil {kernelByKey : List (String × Json)} {result : Json} :
    runtimeDiff kernelByKey result = .ok [] ↔
      ∃ key, nodeKey result = .ok key ∧ key ∈ kernelByKey.map Prod.fst := by
  unfold runtimeDiff
  rw [Js.bind_eq_ok]
  refine exists_congr fun key => and_congr_right fun _ => ?_
  rw [Except.ok.injEq]
  split
  · next h => exact ⟨fun _ => h, fun _ => rfl⟩
  · next h => exact ⟨(fun hm => by cases hm), fun hm => absurd hm h⟩

theorem mapM_keyed {results : List Json} {entries : List (String × Json)} :
    results.mapM keyed = .ok entries ↔
      (∀ x ∈ results, ∃ key, nodeKey x = .ok key) ∧ entries = results.map fun r => (keyText r, r) := by
  have hkeyed : ∀ x y, keyed x = .ok y → y = (keyText x, x) := by
    intro x y h
    obtain ⟨key, hkey, h⟩ := Js.bind_eq_ok.mp h
    cases h
    rw [keyText_eq hkey]
  rw [mapM_eq_ok hkeyed]
  refine and_congr_left fun _ => forall₂_congr fun x _ => ?_
  constructor
  · rintro ⟨y, h⟩
    obtain ⟨key, hkey, -⟩ := Js.bind_eq_ok.mp h
    exact ⟨key, hkey⟩
  · rintro ⟨key, hkey⟩
    exact ⟨_, Js.bind_eq_ok.mpr ⟨key, hkey, rfl⟩⟩

/-- A list of lists of differences that is empty throughout. -/
theorem mapM_flatten_eq_nil {α : Type} {f : α → JsM (List Json)} {xs : List α} :
    (∃ yss, xs.mapM f = .ok yss ∧ yss.flatten = []) ↔ ∀ x ∈ xs, f x = .ok [] := by
  constructor
  · rintro ⟨yss, h, hnil⟩ x hx
    obtain ⟨ys, hys⟩ := exists_mapM.mp ⟨yss, h⟩ x hx
    have hmem := (mem_mapM h).mpr ⟨x, hx, hys⟩
    rw [hys, List.flatten_eq_nil_iff.mp hnil ys hmem]
  · intro h
    obtain ⟨yss, hyss⟩ := exists_mapM.mpr fun x hx => ⟨[], h x hx⟩
    refine ⟨yss, hyss, List.flatten_eq_nil_iff.mpr fun ys hys => ?_⟩
    obtain ⟨x, hx, heq⟩ := (mem_mapM hyss).mp hys
    exact (Except.ok.inj ((h x hx).symm.trans heq)).symm

variable {ks rs : List Json}

/-- No difference is found: every kernel result matches the runtime result under its key,
and every runtime result has the key of a kernel result. -/
structure NoDiffs (ks rs : List Json) : Prop where
  keyed : ∀ x ∈ ks ++ rs, ∃ key, nodeKey x = .ok key
  expected : ∀ a ∈ ks, Matches a (recorded rs (keyText a))
  known : ∀ b ∈ rs, keyText b ∈ ks.map keyText

theorem compareNodeResults_eq_nil : compareNodeResults ks rs = .ok [] ↔ NoDiffs ks rs := by
  have hlookup : ∀ key, (rs.map fun r => (keyText r, r)).reverse.lookup key = recorded rs key := by
    intro key
    rw [← List.map_reverse, lookup_keyed]
    rfl
  have hfst : (ks.map fun r => (keyText r, r)).map Prod.fst = ks.map keyText := by simp
  unfold compareNodeResults
  constructor
  · intro h
    obtain ⟨rbk, hrbk, h⟩ := Js.bind_eq_ok.mp h
    obtain ⟨kbk, hkbk, h⟩ := Js.bind_eq_ok.mp h
    obtain ⟨kd, hkd, h⟩ := Js.bind_eq_ok.mp h
    obtain ⟨rd, hrd, h⟩ := Js.bind_eq_ok.mp h
    obtain ⟨hk0, hr0⟩ := List.append_eq_nil_iff.mp (Except.ok.inj h)
    obtain ⟨hrs, rfl⟩ := mapM_keyed.mp hrbk
    obtain ⟨hks, rfl⟩ := mapM_keyed.mp hkbk
    refine ⟨fun x hx => ?_, fun a ha => ?_, fun b hb => ?_⟩
    · exact (List.mem_append.mp hx).elim (hks x) (hrs x)
    · obtain ⟨key, hkey, hm⟩ := kernelDiff_eq_nil.mp (mapM_flatten_eq_nil.mp ⟨kd, hkd, hk0⟩ a ha)
      rwa [keyText_eq hkey, ← hlookup]
    · obtain ⟨key, hkey, hm⟩ := runtimeDiff_eq_nil.mp (mapM_flatten_eq_nil.mp ⟨rd, hrd, hr0⟩ b hb)
      rwa [keyText_eq hkey, ← hfst]
  · rintro ⟨hkeyed, hexpected, hknown⟩
    have hks : ∀ x ∈ ks, ∃ key, nodeKey x = .ok key := fun x hx =>
      hkeyed x (List.mem_append_left rs hx)
    have hrs : ∀ x ∈ rs, ∃ key, nodeKey x = .ok key := fun x hx =>
      hkeyed x (List.mem_append_right ks hx)
    obtain ⟨kd, hkd, hk0⟩ : ∃ kd, ks.mapM (kernelDiff (rs.map fun r => (keyText r, r))) = .ok kd ∧
        kd.flatten = [] := mapM_flatten_eq_nil.mpr fun a ha => by
      obtain ⟨key, hkey⟩ := hks a ha
      refine kernelDiff_eq_nil.mpr ⟨key, hkey, ?_⟩
      rw [hlookup, ← keyText_eq hkey]
      exact hexpected a ha
    obtain ⟨rd, hrd, hr0⟩ : ∃ rd, rs.mapM (runtimeDiff (ks.map fun r => (keyText r, r))) = .ok rd ∧
        rd.flatten = [] := mapM_flatten_eq_nil.mpr fun b hb => by
      obtain ⟨key, hkey⟩ := hrs b hb
      refine runtimeDiff_eq_nil.mpr ⟨key, hkey, ?_⟩
      rw [hfst, ← keyText_eq hkey]
      exact hknown b hb
    refine Js.bind_eq_ok.mpr ⟨_, mapM_keyed.mpr ⟨hrs, rfl⟩, Js.bind_eq_ok.mpr
      ⟨_, mapM_keyed.mpr ⟨hks, rfl⟩, Js.bind_eq_ok.mpr ⟨kd, hkd, Js.bind_eq_ok.mpr ⟨rd, hrd, ?_⟩⟩⟩⟩
    rw [hk0, hr0]
    rfl

/-! ## What is accepted -/

/-- The lists have one order: their ids make the same text. -/
def SameOrder (ks rs : List Json) : Prop :=
  ∃ texts texts', ks.mapM idText = .ok texts ∧ rs.mapM idText = .ok texts' ∧
    joinLines texts = joinLines texts'

variable {d : Digest} {c : Comparison} {common : Record}

theorem nodeDivergence_eq_nil : nodeDivergence c common = .ok [] ↔
    ∃ ks rs, nodeResults c.kernelResult = .ok ks ∧ nodeResults c.runtimeObservation = .ok rs ∧
      SameOrder ks rs ∧ NoDiffs ks rs := by
  unfold nodeDivergence
  constructor
  · intro h
    obtain ⟨ks, hks, h⟩ := Js.bind_eq_ok.mp h
    obtain ⟨texts, htexts, h⟩ := Js.bind_eq_ok.mp h
    obtain ⟨rs, hrs, h⟩ := Js.bind_eq_ok.mp h
    obtain ⟨texts', htexts', h⟩ := Js.bind_eq_ok.mp h
    obtain ⟨diffs, hdiffs, h⟩ := Js.bind_eq_ok.mp h
    by_cases horder : joinLines texts = joinLines texts'
    · rw [if_neg (not_not.mpr horder)] at h
      cases diffs with
      | nil => exact ⟨ks, rs, hks, hrs, ⟨texts, texts', htexts, htexts', horder⟩,
          compareNodeResults_eq_nil.mp hdiffs⟩
      | cons diff diffs =>
        rw [if_pos (show (diff :: diffs).length > 0 from Nat.succ_pos _)] at h
        cases h
    · rw [if_pos horder] at h
      cases h
  · rintro ⟨ks, rs, hks, hrs, ⟨texts, texts', htexts, htexts', horder⟩, hdiffs⟩
    refine Js.bind_eq_ok.mpr ⟨ks, hks, Js.bind_eq_ok.mpr ⟨texts, htexts, Js.bind_eq_ok.mpr
      ⟨rs, hrs, Js.bind_eq_ok.mpr ⟨texts', htexts', Js.bind_eq_ok.mpr
        ⟨[], compareNodeResults_eq_nil.mpr hdiffs, ?_⟩⟩⟩⟩⟩
    rw [if_neg (not_not.mpr horder)]
    rfl

theorem fieldDivergence_eq_nil {name : String} : fieldDivergence c common name = .ok [] ↔
    c.kernelResult ≠ .null ∧ c.runtimeObservation ≠ .null ∧
      strictEq (c.kernelResult.prop name) (c.runtimeObservation.prop name) = true := by
  unfold fieldDivergence
  constructor
  · intro h
    obtain ⟨a, ha, h⟩ := Js.bind_eq_ok.mp h
    obtain ⟨b, hb, h⟩ := Js.bind_eq_ok.mp h
    obtain ⟨hk, rfl⟩ := Node.member_eq_ok.mp ha
    obtain ⟨hr, rfl⟩ := Node.member_eq_ok.mp hb
    refine ⟨hk, hr, ?_⟩
    by_contra hne
    rw [if_neg hne] at h
    cases h
  · rintro ⟨hk, hr, heq⟩
    refine Js.bind_eq_ok.mpr ⟨_, Node.member_eq_ok.mpr ⟨hk, rfl⟩, Js.bind_eq_ok.mpr
      ⟨_, Node.member_eq_ok.mpr ⟨hr, rfl⟩, ?_⟩⟩
    rw [if_pos heq]

/-- The comparison reports no divergence. -/
def Accepts (d : Digest) (c : Comparison) : Prop :=
  ∃ report, compareShadowExecution d c = .ok report ∧ report.ok = true

theorem accepts_iff : Accepts d c ↔ (∃ common, c.common d = .ok common) ∧
    (∀ name ∈ comparedFields, c.kernelResult ≠ .null ∧ c.runtimeObservation ≠ .null ∧
      strictEq (c.kernelResult.prop name) (c.runtimeObservation.prop name) = true) ∧
    ∃ ks rs, nodeResults c.kernelResult = .ok ks ∧ nodeResults c.runtimeObservation = .ok rs ∧
      SameOrder ks rs ∧ NoDiffs ks rs := by
  constructor
  · rintro ⟨report, h, hok⟩
    obtain ⟨common, hcommon, h⟩ := Js.bind_eq_ok.mp h
    obtain ⟨fd, hfd, h⟩ := Js.bind_eq_ok.mp h
    obtain ⟨nd, hnd, h⟩ := Js.bind_eq_ok.mp h
    cases h
    obtain ⟨hf, hn⟩ := List.append_eq_nil_iff.mp
      (List.eq_nil_of_length_eq_zero (of_decide_eq_true hok))
    rw [hn] at hnd
    exact ⟨⟨common, hcommon⟩,
      fun name hname => fieldDivergence_eq_nil.mp (mapM_flatten_eq_nil.mp ⟨fd, hfd, hf⟩ name hname),
      nodeDivergence_eq_nil.mp hnd⟩
  · rintro ⟨⟨common, hcommon⟩, hfields, hnodes⟩
    obtain ⟨fd, hfd, hf⟩ := mapM_flatten_eq_nil.mpr fun name hname =>
      fieldDivergence_eq_nil.mpr (hfields name hname)
    refine ⟨_, Js.bind_eq_ok.mpr ⟨common, hcommon, Js.bind_eq_ok.mpr ⟨fd, hfd, Js.bind_eq_ok.mpr
      ⟨[], nodeDivergence_eq_nil.mpr hnodes, rfl⟩⟩⟩, ?_⟩
    simp [hf]

/-! ## What is accepted is the same -/

theorem map_of_mapM {α β : Type} {f : α → JsM β} {xs : List α} {ys : List β} (h : xs.mapM f = .ok ys) :
    xs.map f = ys.map .ok := by
  induction xs generalizing ys with
  | nil =>
    cases h
    rfl
  | cons x xs ih =>
    obtain ⟨y, rest, hy, hrest, rfl⟩ := mapM_cons_eq_ok.mp h
    rw [List.map_cons, List.map_cons, hy, ih hrest]

/-- Texts without line breaks can be told from their lines. -/
theorem joinLines_injective {texts texts' : List String} (hne : texts ≠ []) (hne' : texts' ≠ [])
    (hlines : ∀ t ∈ texts, '\n' ∉ t.toList) (hlines' : ∀ t ∈ texts', '\n' ∉ t.toList)
    (h : joinLines texts = joinLines texts') : texts = texts' := by
  have hsplit : ∀ {ts : List String}, ts ≠ [] → (∀ t ∈ ts, '\n' ∉ t.toList) →
      (joinLines ts).toList.splitOn '\n' = ts.map String.toList := by
    intro ts hts hall
    rw [joinLines, String.toList_ofList, List.splitOn_intercalate]
    · intro l hl
      obtain ⟨t, ht, rfl⟩ := List.mem_map.mp hl
      exact hall t ht
    · simpa using hts
  have hmap : texts.map String.toList = texts'.map String.toList := by
    rw [← hsplit hne hlines, ← hsplit hne' hlines', h]
  exact (List.map_injective_iff.mpr fun a b hab => String.toList_inj.mp hab) hmap

/-- The same node, by its id and its operation. -/
def SameNode (a b : Json) : Prop :=
  ∀ name ∈ ["node_id", "operation"], strictEq (a.prop name) (b.prop name) = true

def SameResult (a b : Json) : Prop :=
  ∀ name ∈ ["node_id", "operation", "status", "output_ref"], strictEq (a.prop name) (b.prop name) = true

/-- The four fields agree, and the node results one by one. -/
structure Agree (kernelResult runtimeObservation : Json) : Prop where
  fields : ∀ name ∈ comparedFields,
    strictEq (kernelResult.prop name) (runtimeObservation.prop name) = true
  results : ∃ ks rs, nodeResults kernelResult = .ok ks ∧ nodeResults runtimeObservation = .ok rs ∧
    List.Forall₂ SameResult ks rs

/-- No id breaks a line, and a key that both lists have stands for one node. -/
structure Legible (ks rs : List Json) : Prop where
  lines : ∀ x ∈ ks ++ rs, ∀ text, idText x = .ok text → '\n' ∉ text.toList
  nodes : ∀ a ∈ ks, ∀ b ∈ rs, nodeKey a = nodeKey b → SameNode a b

theorem idText_congr {a b : Json} (ha : a ≠ .null) (hb : b ≠ .null)
    (h : a.prop "node_id" = b.prop "node_id") : idText a = idText b := by
  unfold idText
  rw [Node.member_eq_ok.mpr ⟨ha, rfl⟩, Node.member_eq_ok.mpr ⟨hb, rfl⟩, h]

theorem ne_null_of_nodeKey {x : Json} {key : String} (h : nodeKey x = .ok key) : x ≠ .null := by
  rintro rfl
  cases h

theorem recorded_eq_some {results : List Json} {key : String} {r : Json}
    (h : recorded results key = some r) : r ∈ results ∧ keyText r = key := by
  unfold recorded at h
  exact ⟨List.mem_reverse.mp (List.mem_of_find?_eq_some h), by simpa using List.find?_some h⟩

theorem Matches.exists {result : Json} {runtime : Option Json} (h : Matches result runtime) :
    ∃ r, runtime = some r := by
  cases runtime with
  | none => exact absurd h.found Bool.false_ne_true
  | some r => exact ⟨r, rfl⟩

/-- The ids stand at the same places. -/
theorem map_idText_eq (horder : SameOrder ks rs) (hdiffs : NoDiffs ks rs) (hleg : Legible ks rs) :
    ks.map idText = rs.map idText := by
  obtain ⟨texts, texts', htexts, htexts', hjoin⟩ := horder
  have hks := map_of_mapM htexts
  have hrs := map_of_mapM htexts'
  have hempty : texts = [] ↔ texts' = [] := by
    rw [← List.map_eq_nil_iff (f := Except.ok), ← hks, List.map_eq_nil_iff,
      ← List.map_eq_nil_iff (f := Except.ok) (l := texts'), ← hrs, List.map_eq_nil_iff]
    constructor
    · rintro rfl
      refine List.eq_nil_iff_forall_not_mem.mpr fun b hb => ?_
      simpa using hdiffs.known b hb
    · rintro rfl
      refine List.eq_nil_iff_forall_not_mem.mpr fun a ha => ?_
      obtain ⟨r, hr⟩ := (hdiffs.expected a ha).exists
      exact absurd (recorded_eq_some hr).1 List.not_mem_nil
  have hlines : ∀ t ∈ texts ++ texts', '\n' ∉ t.toList := by
    intro t ht
    have hmem : (Except.ok t : JsM String) ∈ (ks ++ rs).map idText := by
      rw [List.map_append, hks, hrs, ← List.map_append]
      exact List.mem_map_of_mem ht
    obtain ⟨x, hx, heq⟩ := List.mem_map.mp hmem
    exact hleg.lines x hx t heq
  rw [hks, hrs]
  by_cases hnil : texts = []
  · rw [hnil, hempty.mp hnil]
  · rw [joinLines_injective hnil (fun h => hnil (hempty.mpr h))
      (fun t ht => hlines t (List.mem_append_left _ ht))
      (fun t ht => hlines t (List.mem_append_right _ ht)) hjoin]

/-- With no id twice, each result is compared with the one at its own place. -/
theorem same_results (horder : SameOrder ks rs) (hdiffs : NoDiffs ks rs) (hleg : Legible ks rs)
    (hids : (ks.map idText).Nodup) : List.Forall₂ SameResult ks rs := by
  have hmap := map_idText_eq horder hdiffs hleg
  have hall : List.Forall₂ (fun a b => idText a = idText b) ks rs := by
    have heq : List.Forall₂ Eq (ks.map idText) (rs.map idText) := by
      rw [List.forall₂_eq_eq_eq]
      exact hmap
    rwa [List.forall₂_map_left_iff, List.forall₂_map_right_iff] at heq
  refine List.forall₂_iff_zip.mpr ⟨hall.length_eq, fun {a b} hab => ?_⟩
  obtain ⟨ha, hb⟩ := List.of_mem_zip hab
  have htext : idText a = idText b := List.forall₂_zip hall hab
  obtain ⟨r, hr⟩ := (hdiffs.expected a ha).exists
  obtain ⟨hrmem, hrkey⟩ := recorded_eq_some hr
  obtain ⟨key, hkey⟩ := hdiffs.keyed a (List.mem_append_left rs ha)
  obtain ⟨rkey, hrkey'⟩ := hdiffs.keyed r (List.mem_append_right ks hrmem)
  rw [keyText_eq hkey, keyText_eq hrkey'] at hrkey
  have hnode : SameNode a r := hleg.nodes a ha r hrmem (by rw [hkey, hrkey', hrkey])
  have hplace : r = b := by
    rw [hmap] at hids
    refine List.inj_on_of_nodup_map hids hrmem hb ?_
    rw [← htext]
    exact (idText_congr (ne_null_of_nodeKey hkey) (ne_null_of_nodeKey hrkey')
      (eq_of_strictEq (hnode _ (by simp)))).symm
  subst hplace
  have hm := hdiffs.expected a ha
  rw [hr] at hm
  intro name hname
  simp only [List.mem_cons, List.not_mem_nil, or_false] at hname
  rcases hname with rfl | rfl | rfl | rfl
  · exact hnode _ (by simp)
  · exact hnode _ (by simp)
  · rw [strictEq_comm]
    exact hm.status
  · rw [strictEq_comm]
    exact hm.output_ref

/-! ## A kernel result that lists a node twice -/

/-- A runtime result for the same node, with a status of its own. -/
def copyWith (status : Option Json) (x : Json) : Json :=
  .obj (Fields.ofOptions [("node_id", x.prop "node_id"), ("operation", x.prop "operation"),
    ("status", status), ("output_ref", x.prop "output_ref")])

def copyOf (x : Json) : Json := copyWith (x.prop "status") x

/-- An observation with the fields of the kernel result and other node results. -/
def observation (kernelResult : Json) (rs : List Json) : Json :=
  .obj (Fields.ofOptions [("execution_status", kernelResult.prop "execution_status"),
    ("completion_state", kernelResult.prop "completion_state"),
    ("guard_artifact_hash", kernelResult.prop "guard_artifact_hash"),
    ("sdga_hash", kernelResult.prop "sdga_hash"), ("node_results", some (.arr rs))])

@[simp] theorem prop_copyWith_node_id (status : Option Json) (x : Json) :
    (copyWith status x).prop "node_id" = x.prop "node_id" := by simp [copyWith]

@[simp] theorem prop_copyWith_operation (status : Option Json) (x : Json) :
    (copyWith status x).prop "operation" = x.prop "operation" := by simp [copyWith]

@[simp] theorem prop_copyWith_status (status : Option Json) (x : Json) :
    (copyWith status x).prop "status" = status := by simp [copyWith]

@[simp] theorem prop_copyWith_output_ref (status : Option Json) (x : Json) :
    (copyWith status x).prop "output_ref" = x.prop "output_ref" := by simp [copyWith]

theorem nodeKey_congr {a b : Json} (ha : a ≠ .null) (hb : b ≠ .null)
    (hid : a.prop "node_id" = b.prop "node_id") (hop : a.prop "operation" = b.prop "operation") :
    nodeKey a = nodeKey b := by
  unfold nodeKey
  rw [Node.member_eq_ok.mpr ⟨ha, rfl⟩, Node.member_eq_ok.mpr ⟨hb, rfl⟩, hid]
  rw [Node.member_eq_ok.mpr ⟨ha, rfl⟩, Node.member_eq_ok.mpr ⟨hb, rfl⟩, hop]

theorem nodeKey_copyWith (status : Option Json) {x : Json} (hx : x ≠ .null) :
    nodeKey (copyWith status x) = nodeKey x := nodeKey_congr nofun hx (by simp) (by simp)

theorem keyText_copyWith (status : Option Json) {x : Json} (hx : x ≠ .null) :
    keyText (copyWith status x) = keyText x := by rw [keyText, nodeKey_copyWith status hx, keyText]

theorem idText_copyWith (status : Option Json) {x : Json} (hx : x ≠ .null) :
    idText (copyWith status x) = idText x := idText_congr nofun hx (by simp)

theorem recorded_append (xs ys : List Json) (key : String) :
    recorded (xs ++ ys) key = (recorded ys key).or (recorded xs key) := by
  simp [recorded, List.find?_append]

theorem recorded_singleton (x : Json) (key : String) :
    recorded [x] key = if keyText x = key then some x else none := by
  by_cases h : keyText x = key <;> simp [recorded, h]

theorem recorded_copies {xs : List Json} (hxs : ∀ x ∈ xs, x ≠ .null) (key : String) :
    recorded (xs.map copyOf) key = (recorded xs key).map copyOf := by
  induction xs with
  | nil => rfl
  | cons x xs ih =>
    have hx : keyText (copyOf x) = keyText x := keyText_copyWith _ (hxs x List.mem_cons_self)
    rw [List.map_cons, ← List.singleton_append, ← List.singleton_append (l := xs), recorded_append,
      recorded_append, ih fun y hy => hxs y (List.mem_cons_of_mem x hy), recorded_singleton,
      recorded_singleton, hx, Option.map_or]
    split <;> rfl

theorem exists_recorded {xs : List Json} {x : Json} (hx : x ∈ xs) :
    ∃ y ∈ xs, keyText y = keyText x ∧ recorded xs (keyText x) = some y := by
  obtain ⟨y, hy⟩ : ∃ y, recorded xs (keyText x) = some y := by
    unfold recorded
    rw [← Option.isSome_iff_exists, List.find?_isSome]
    exact ⟨x, List.mem_reverse.mpr hx, by simp⟩
  exact ⟨y, (recorded_eq_some hy).1, (recorded_eq_some hy).2, hy⟩

/-- Copies of a kernel result's own node results are not told from them, if under each key
the last one is a copy with its status. -/
theorem noDiffs_copies (hself : NoDiffs ks ks) (hcopies : ∀ r ∈ rs, ∃ y ∈ ks, ∃ status, r = copyWith status y)
    (hlast : ∀ a ∈ ks, ∃ y ∈ ks, keyText y = keyText a ∧ recorded rs (keyText a) = some (copyOf y)) :
    NoDiffs ks rs := by
  have hne : ∀ y ∈ ks, y ≠ .null := fun y hy => by
    obtain ⟨key, hkey⟩ := hself.keyed y (List.mem_append_left ks hy)
    exact ne_null_of_nodeKey hkey
  refine ⟨fun x hx => ?_, fun a ha => ?_, fun b hb => ?_⟩
  · rcases List.mem_append.mp hx with hx | hx
    · exact hself.keyed x (List.mem_append_left ks hx)
    · obtain ⟨y, hy, status, rfl⟩ := hcopies x hx
      rw [nodeKey_copyWith status (hne y hy)]
      exact hself.keyed y (List.mem_append_left ks hy)
  · obtain ⟨y, hy, hkey, hrec⟩ := hlast a ha
    obtain ⟨z, hz⟩ := (hself.expected a ha).exists
    have hma := hself.expected a ha
    have hmy := hself.expected y hy
    rw [hkey] at hmy
    rw [hz] at hma hmy
    have hstatus := eq_of_strictEq hmy.status
    have houtput := eq_of_strictEq hmy.output_ref
    rw [hrec]
    refine ⟨rfl, ?_, ?_⟩
    · show strictEq ((copyOf y).prop "status") _ = true
      rw [copyOf, prop_copyWith_status, ← hstatus]
      exact hma.status
    · show strictEq ((copyOf y).prop "output_ref") _ = true
      rw [copyOf, prop_copyWith_output_ref, ← houtput]
      exact hma.output_ref
  · obtain ⟨y, hy, status, rfl⟩ := hcopies b hb
    rw [keyText_copyWith status (hne y hy)]
    exact List.mem_map_of_mem hy

theorem legible_copies (hself : NoDiffs ks ks) (hleg : Legible ks ks)
    (hcopies : ∀ r ∈ rs, ∃ y ∈ ks, ∃ status, r = copyWith status y) : Legible ks rs := by
  have hne : ∀ y ∈ ks, y ≠ .null := fun y hy => by
    obtain ⟨key, hkey⟩ := hself.keyed y (List.mem_append_left ks hy)
    exact ne_null_of_nodeKey hkey
  refine ⟨fun x hx text htext => ?_, fun a ha b hb hkey => ?_⟩
  · rcases List.mem_append.mp hx with hx | hx
    · exact hleg.lines x (List.mem_append_left ks hx) text htext
    · obtain ⟨y, hy, status, rfl⟩ := hcopies x hx
      rw [idText_copyWith status (hne y hy)] at htext
      exact hleg.lines y (List.mem_append_left ks hy) text htext
  · obtain ⟨y, hy, status, rfl⟩ := hcopies b hb
    rw [nodeKey_copyWith status (hne y hy)] at hkey
    have hnode := hleg.nodes a ha y hy hkey
    intro name hname
    simp only [List.mem_cons, List.not_mem_nil, or_false] at hname
    rcases hname with rfl | rfl
    · rw [prop_copyWith_node_id]
      exact hnode _ (by simp)
    · rw [prop_copyWith_operation]
      exact hnode _ (by simp)

/-- Two results that stand at different places and are not told apart by their ids. -/
theorem exists_twice {α β : Type} {f : α → β} {xs : List α} (h : ¬ (xs.map f).Nodup) :
    ∃ p a q b t, xs = p ++ a :: (q ++ b :: t) ∧ f a = f b := by
  induction xs with
  | nil => exact absurd List.nodup_nil h
  | cons x xs ih =>
    by_cases hx : f x ∈ xs.map f
    · obtain ⟨b, hb, heq⟩ := List.mem_map.mp hx
      obtain ⟨q, t, rfl⟩ := List.append_of_mem hb
      exact ⟨[], x, q, b, t, rfl, heq.symm⟩
    · obtain ⟨p, a, q, b, t, rfl, heq⟩ := ih fun hnodup => h (List.nodup_cons.mpr ⟨hx, hnodup⟩)
      exact ⟨x :: p, a, q, b, t, rfl, heq⟩

theorem of_forall₂_middle {α β : Type} {R : α → β → Prop} : ∀ {p : List α} {p' : List β}
    {a : α} {b : β} {s : List α} {s' : List β}, p.length = p'.length →
      List.Forall₂ R (p ++ a :: s) (p' ++ b :: s') → R a b
  | [], [], _, _, _, _, _, .cons hab _ => hab
  | _ :: _, _ :: _, _, _, _, _, hlen, .cons _ h => of_forall₂_middle (Nat.succ.inj hlen) h

/-- Another status than the given one. -/
def otherStatus (status : Option Json) : Option Json :=
  if strictEq status (some .null) then some (.str "") else some .null

theorem strictEq_otherStatus (status : Option Json) : strictEq status (otherStatus status) = false := by
  unfold otherStatus
  by_cases h : strictEq status (some .null) = true
  · rw [if_pos h, strictEq_null_iff.mp h]
    rfl
  · rw [if_neg h]
    exact Bool.eq_false_iff.mpr h

/-- Node results that a comparison does not tell from the kernel's, although they differ. -/
structure Mistaken (ks rs : List Json) : Prop where
  ids : rs.map idText = ks.map idText
  noDiffs : NoDiffs ks rs
  copies : ∀ r ∈ rs, ∃ y ∈ ks, ∃ status, r = copyWith status y
  differs : ¬ List.Forall₂ SameResult ks rs

theorem ne_null_of_noDiffs (hself : NoDiffs ks ks) : ∀ y ∈ ks, y ≠ .null := fun y hy => by
  obtain ⟨key, hkey⟩ := hself.keyed y (List.mem_append_left ks hy)
  exact ne_null_of_nodeKey hkey

theorem map_idText_copies {l : List Json} (hl : ∀ y ∈ l, y ≠ .null) :
    (l.map copyOf).map idText = l.map idText := by
  rw [List.map_map]
  exact List.map_congr_left fun y hy => idText_copyWith _ (hl y hy)

/-- One node twice: the first of its results gets another status. -/
theorem mistaken_status {p s : List Json} {a b : Json} (hself : NoDiffs (p ++ a :: s) (p ++ a :: s))
    (hb : b ∈ s) (hnode : SameNode a b) :
    Mistaken (p ++ a :: s) (p.map copyOf ++ copyWith (otherStatus (a.prop "status")) a :: s.map copyOf) := by
  have hne := ne_null_of_noDiffs hself
  have hp : ∀ y ∈ p, y ≠ .null := fun y hy => hne y (by simp [hy])
  have hs : ∀ y ∈ s, y ≠ .null := fun y hy => hne y (by simp [hy])
  have ha : a ≠ .null := hne a (by simp)
  have hkey : keyText a = keyText b := by
    rw [keyText, keyText, nodeKey_congr ha (hs b hb) (eq_of_strictEq (hnode _ (by simp)))
      (eq_of_strictEq (hnode _ (by simp)))]
  -- the changed result is not the last one under its key
  have hskip : ∀ key, recorded (p.map copyOf ++ copyWith (otherStatus (a.prop "status")) a ::
      s.map copyOf) key = (recorded (p ++ s) key).map copyOf := by
    intro key
    rw [← List.singleton_append (l := s.map copyOf), ← List.append_assoc, recorded_append,
      recorded_append, recorded_append, recorded_copies hs, recorded_copies hp, recorded_singleton,
      keyText_copyWith _ ha, Option.map_or]
    by_cases h : keyText a = key
    · obtain ⟨y, -, -, hrec⟩ := exists_recorded hb
      rw [← h, hkey, hrec]
      rfl
    · rw [if_neg h, Option.none_or]
  have hcopies : ∀ r ∈ p.map copyOf ++ copyWith (otherStatus (a.prop "status")) a :: s.map copyOf,
      ∃ y ∈ p ++ a :: s, ∃ status, r = copyWith status y := by
    intro r hr
    simp only [List.mem_append, List.mem_cons, List.mem_map] at hr
    rcases hr with ⟨y, hy, rfl⟩ | rfl | ⟨y, hy, rfl⟩
    · exact ⟨y, by simp [hy], _, rfl⟩
    · exact ⟨a, by simp, _, rfl⟩
    · exact ⟨y, by simp [hy], _, rfl⟩
  refine ⟨?_, noDiffs_copies hself hcopies fun x hx => ?_, hcopies, fun hsame => ?_⟩
  · rw [List.map_append, List.map_cons, idText_copyWith _ ha, map_idText_copies hp,
      map_idText_copies hs, List.map_append, List.map_cons]
  · obtain ⟨y, hy, hyx, hrec⟩ : ∃ y ∈ p ++ s, keyText y = keyText x ∧
        recorded (p ++ s) (keyText x) = some y := by
      rcases List.mem_append.mp hx with hx | hx
      · exact exists_recorded (List.mem_append_left s hx)
      · rcases List.mem_cons.mp hx with rfl | hx
        · rw [hkey]
          exact exists_recorded (List.mem_append_right p hb)
        · exact exists_recorded (List.mem_append_right p hx)
    refine ⟨y, ?_, hyx, by rw [hskip, hrec]; rfl⟩
    rcases List.mem_append.mp hy with hy | hy <;> simp [hy]
  · have hstatus := of_forall₂_middle (by simp) hsame "status" (by simp)
    rw [prop_copyWith_status, strictEq_otherStatus] at hstatus
    cases hstatus

/-- Two nodes whose ids have one text: their results change places. -/
theorem mistaken_order {p q t : List Json} {a b : Json}
    (hself : NoDiffs (p ++ a :: (q ++ b :: t)) (p ++ a :: (q ++ b :: t))) (htext : idText a = idText b)
    (hnode : ¬ SameNode a b) :
    Mistaken (p ++ a :: (q ++ b :: t)) ((p ++ b :: (q ++ a :: t)).map copyOf) := by
  have hperm : (p ++ b :: (q ++ a :: t)).Perm (p ++ a :: (q ++ b :: t)) := by
    refine List.Perm.append_left p ?_
    calc (b :: (q ++ a :: t)).Perm (b :: a :: (q ++ t)) := List.perm_middle.cons b
      List.Perm _ (a :: b :: (q ++ t)) := .swap a b _
      List.Perm _ (a :: (q ++ b :: t)) := List.perm_middle.symm.cons a
  have hne : ∀ y ∈ p ++ b :: (q ++ a :: t), y ≠ .null := fun y hy =>
    ne_null_of_noDiffs hself y (hperm.mem_iff.mp hy)
  have hcopies : ∀ r ∈ (p ++ b :: (q ++ a :: t)).map copyOf,
      ∃ y ∈ p ++ a :: (q ++ b :: t), ∃ status, r = copyWith status y := by
    intro r hr
    obtain ⟨y, hy, rfl⟩ := List.mem_map.mp hr
    exact ⟨y, hperm.mem_iff.mp hy, _, rfl⟩
  refine ⟨?_, noDiffs_copies hself hcopies fun x hx => ?_, hcopies, fun hsame => ?_⟩
  · rw [map_idText_copies hne]
    simp [htext]
  · obtain ⟨y, hy, hyx, hrec⟩ := exists_recorded (hperm.mem_iff.mpr hx)
    refine ⟨y, hperm.mem_iff.mp hy, hyx, ?_⟩
    rw [recorded_copies hne, hrec]
    rfl
  · rw [List.map_append, List.map_cons] at hsame
    have hab := of_forall₂_middle (by simp) hsame
    refine hnode fun name hname => ?_
    have h := hab name (by simp at hname ⊢; tauto)
    simp only [List.mem_cons, List.not_mem_nil, or_false] at hname
    rcases hname with rfl | rfl <;> simpa [copyOf] using h

theorem exists_mistaken (hself : NoDiffs ks ks) (hids : ¬ (ks.map idText).Nodup) :
    ∃ rs, Mistaken ks rs := by
  obtain ⟨p, a, q, b, t, rfl, htext⟩ := exists_twice hids
  by_cases hnode : SameNode a b
  · exact ⟨_, mistaken_status hself (by simp) hnode⟩
  · exact ⟨_, mistaken_order hself htext hnode⟩

/-! ## When acceptance means agreement -/

def Comparison.against (c : Comparison) (runtimeObservation : Json) : Comparison :=
  { c with runtimeObservation }

/-- Every legible observation that is accepted agrees with the kernel result. -/
def Sound (d : Digest) (c : Comparison) (ks : List Json) : Prop :=
  ∀ r rs, nodeResults r = .ok rs → Legible ks rs → Accepts d (c.against r) → Agree c.kernelResult r

theorem agree_of_accepts {r : Json} (hks : nodeResults c.kernelResult = .ok ks) (hrs : nodeResults r = .ok rs)
    (hleg : Legible ks rs) (hids : (ks.map idText).Nodup) (h : Accepts d (c.against r)) :
    Agree c.kernelResult r := by
  obtain ⟨-, hfields, ks', rs', hks', hrs', horder, hdiffs⟩ := accepts_iff.mp h
  cases hks.symm.trans hks'
  cases hrs.symm.trans hrs'
  exact ⟨fun name hname => (hfields name hname).2.2, ks, rs, hks, hrs,
    same_results horder hdiffs hleg hids⟩

/-- Whether the common part of the records can be read does not depend on the observation. -/
theorem common_against {r : Json} (r' : Json) (h : ∃ common, (c.against r).common d = .ok common) :
    ∃ common, (c.against r').common d = .ok common := by
  obtain ⟨common, h⟩ := h
  obtain ⟨sdga_hash, hs, h⟩ := Js.bind_eq_ok.mp h
  obtain ⟨own, ho, h⟩ := Js.bind_eq_ok.mp h
  obtain ⟨g, hg, -⟩ := Js.bind_eq_ok.mp h
  exact ⟨_, Js.bind_eq_ok.mpr ⟨sdga_hash, hs, Js.bind_eq_ok.mpr ⟨own, ho, Js.bind_eq_ok.mpr ⟨g, hg, rfl⟩⟩⟩⟩

theorem nodeResults_observation (kernelResult : Json) (rs : List Json) :
    nodeResults (observation kernelResult rs) = .ok rs := by
  have hprop : some (.arr rs) = (observation kernelResult rs).prop "node_results" := by
    simp [observation]
  have hne : observation kernelResult rs ≠ .null := nofun
  exact Js.bind_eq_ok.mpr ⟨_, Node.member_eq_ok.mpr ⟨hne, hprop⟩, rfl⟩

theorem mapM_congr_of_map {α β : Type} {f : α → JsM β} {xs xs' : List α} {ys : List β}
    (h : xs.mapM f = .ok ys) (hmap : xs'.map f = xs.map f) : xs'.mapM f = .ok ys := by
  have hys := map_of_mapM h
  rw [hys] at hmap
  clear h hys
  induction ys generalizing xs' with
  | nil =>
    cases List.map_eq_nil_iff.mp hmap
    rfl
  | cons y ys ih =>
    obtain ⟨x, rest, rfl, hx, hrest⟩ := List.map_eq_cons_iff.mp hmap
    exact mapM_cons_eq_ok.mpr ⟨y, ys, hx, ih hrest, rfl⟩

theorem accepts_mistaken (hks : nodeResults c.kernelResult = .ok ks)
    (hself : Accepts d (c.against c.kernelResult)) (h : Mistaken ks rs) :
    Accepts d (c.against (observation c.kernelResult rs)) := by
  obtain ⟨hcommon, hfields, ks1, ks2, hks1, hks2, ⟨texts, -, htexts, -, -⟩, -⟩ := accepts_iff.mp hself
  cases hks.symm.trans hks1
  refine accepts_iff.mpr ⟨common_against _ hcommon, fun name hname => ?_, ks, rs, hks,
    nodeResults_observation _ rs,
    ⟨texts, texts, htexts, mapM_congr_of_map htexts h.ids, rfl⟩, h.noDiffs⟩
  obtain ⟨hk, -, heq⟩ := hfields name hname
  refine ⟨hk, nofun, ?_⟩
  have hprop : (observation c.kernelResult rs).prop name = c.kernelResult.prop name := by
    simp only [comparedFields, List.mem_cons, List.not_mem_nil, or_false] at hname
    rcases hname with rfl | rfl | rfl | rfl <;> simp [observation]
  show strictEq _ ((observation c.kernelResult rs).prop name) = true
  rw [hprop]
  exact heq

/-- Acceptance means agreement when the kernel result lists no node twice. If it does, and an
observation like itself is accepted, so is one that is not. -/
theorem sound_iff (hks : nodeResults c.kernelResult = .ok ks) :
    ((ks.map idText).Nodup → Sound d c ks) ∧
      (Legible ks ks → Accepts d (c.against c.kernelResult) → Sound d c ks → (ks.map idText).Nodup) := by
  refine ⟨fun hids r rs hrs hleg h => agree_of_accepts hks hrs hleg hids h, fun hleg hself hsound => ?_⟩
  by_contra hids
  obtain ⟨-, -, ks1, ks2, hks1, hks2, -, hdiffs⟩ := accepts_iff.mp hself
  cases hks.symm.trans hks1
  cases hks1.symm.trans hks2
  obtain ⟨rs, hmistaken⟩ := exists_mistaken hdiffs hids
  obtain ⟨-, ks', rs', hks', hrs', hsame⟩ := hsound _ rs (nodeResults_observation _ rs)
    (legible_copies hdiffs hleg hmistaken.copies) (accepts_mistaken hks hself hmistaken)
  cases hks.symm.trans hks'
  cases (nodeResults_observation c.kernelResult rs).symm.trans hrs'
  exact hmistaken.differs hsame

/-! ## Two comparisons -/

def nodeResult (node_id operation status : String) : Json :=
  NodeResult.value { node_id := some (.str node_id), operation := some (.str operation), status,
                     output_ref := none }

def resultWith (node_results : List Json) : Json :=
  .obj [("execution_status", .str "completed"), ("completion_state", .str "deterministic_complete"),
    ("guard_artifact_hash", .str "sha256:guard"), ("sdga_hash", .str "sha256:sdga"),
    ("node_results", .arr node_results)]

def comparing (kernelResults runtimeResults : List Json) : Comparison where
  correlationId := none
  sdga := none
  kernelResult := resultWith kernelResults
  runtimeObservation := resultWith runtimeResults

/-- Two nodes, and an observation of the same. -/
theorem guard_then_report_agrees :
    Agree (resultWith [nodeResult "guard" "noop" "completed", nodeResult "report" "noop" "failed"])
      (resultWith [nodeResult "guard" "noop" "completed", nodeResult "report" "noop" "failed"]) := by
  refine (sound_iff (d := ⟨id⟩) (c := comparing _ []) rfl).1 (by decide) _ _ rfl ?_ ⟨_, rfl, rfl⟩
  refine ⟨fun x hx text htext => ?_, fun a ha b hb hkey => ?_⟩
  · simp only [List.mem_append, List.mem_cons, List.not_mem_nil, or_false] at hx
    rcases hx with (rfl | rfl) | (rfl | rfl) <;> cases htext <;> decide
  · simp only [List.mem_cons, List.not_mem_nil, or_false] at ha hb
    rcases ha with rfl | rfl <;> rcases hb with rfl | rfl
    · exact fun name hname => by revert name; decide
    · exact absurd hkey (by decide)
    · exact absurd hkey (by decide)
    · exact fun name hname => by revert name; decide

/-- One node id with two operations: the observation has them the other way round. -/
theorem changed_places_accepted :
    Accepts ⟨id⟩ (comparing [nodeResult "guard" "check" "completed", nodeResult "guard" "emit" "failed"]
      [nodeResult "guard" "emit" "failed", nodeResult "guard" "check" "completed"]) ∧
    ¬ Agree (resultWith [nodeResult "guard" "check" "completed", nodeResult "guard" "emit" "failed"])
      (resultWith [nodeResult "guard" "emit" "failed", nodeResult "guard" "check" "completed"]) := by
  refine ⟨⟨_, rfl, rfl⟩, ?_⟩
  rintro ⟨-, ks, rs, hks, hrs, hsame⟩
  cases hks
  cases hrs
  cases hsame with
  | cons h _ =>
    have hop := h "operation" (by simp)
    cases hop

end SimpleL1.Execution
