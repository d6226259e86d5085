import SimpleL1.Execution.Scheduler

/-!
# Drift reports

The classifier of runtime events and the observer that compares a runtime projection with
the classes of an event log and with a canonical state. Classes are looked up in a map under
the events' ids, which keeps the last event of an id; ids that are objects are told apart by
the event they belong to.
-/

namespace SimpleL1.Subject.Drift

open SimpleL1.Js SimpleL1.Execution

/-! ## The classifier -/

inductive Classification where
  | authority_event_candidate
  | system_event
  | projection_update
  | legacy_unknown
  | reject
  /-- What an object inherits under the name, which is no class. -/
  | inherited (eventType : String)
  deriving DecidableEq, Repr

def Classification.name : Classification → Option String
  | authority_event_candidate => some "authority_event_candidate"
  | system_event => some "system_event"
  | projection_update => some "projection_update"
  | legacy_unknown => some "legacy_unknown"
  | reject => some "reject"
  | inherited _ => none

def AUTHORITY_ELIGIBLE_CLASS : Classification := .authority_event_candidate

def EVENT_TYPE_CLASSIFICATION : List (String × Classification) :=
  [("GENESIS", .authority_event_candidate),
    ("PASSKEY_ADDED", .authority_event_candidate),
    ("PASSKEY_REVOKED", .authority_event_candidate),
    ("NATIVE_CONTROLLER_BOOTSTRAPPED", .authority_event_candidate),
    ("CONTROLLER_BINDING_PROPOSED", .authority_event_candidate),
    ("CONTROLLER_BINDING_APPROVED", .authority_event_candidate),
    ("CAPABILITY_GRANT_CREATED", .authority_event_candidate),
    ("CONTROL_GRANT_CREATED", .authority_event_candidate),
    ("CONTROL_GRANT_REVOKED", .authority_event_candidate),
    ("POLICY_ARTIFACT_RECORDED", .system_event),
    ("EXTERNAL_PROOF_RECORDED", .system_event),
    ("MARKETPLACE_SETTLEMENT_RECORDED", .projection_update),
    ("MARKETPLACE_SELLER_UPSERTED", .projection_update),
    ("MARKETPLACE_LISTING_UPSERTED", .projection_update),
    ("MARKETPLACE_SELLER_ACTIVATED", .projection_update),
    ("AUTHORIZATION_CREATED", .legacy_unknown),
    ("TRANSFER", .reject)]

/-- A classified event; its id is a key of the reconciler's map. -/
structure Classified where
  event_id : MapKey
  event_type : Option String
  classification : Classification
  eligible_for_authority_history : Bool
  deriving DecidableEq

def normalizeEventType (event : Json) : Option String :=
  match event.prop "type" with
  | some (.str type) => if trim type = "" then none else some (trim type)
  | _ => none

/-- `EVENT_TYPE_CLASSIFICATION[eventType] || 'legacy_unknown'` -/
def classificationOf (eventType : String) : Classification :=
  match EVENT_TYPE_CLASSIFICATION.lookup eventType with
  | some classification => classification
  | none => if eventType ∈ Realm.objectPrototypeKeys then .inherited eventType else .legacy_unknown

/-- An event without an id has the id `null`. -/
def eventId (place : Nat) (event : Json) : MapKey := MapKey.ofId place (some ((event.prop "id").getD .null))

def classifyRuntimeEvent (place : Nat) (event : Json) : Classified :=
  let eventType := normalizeEventType event
  let classification := (eventType.map classificationOf).getD .legacy_unknown
  { event_id := eventId place event
    event_type := eventType
    classification
    eligible_for_authority_history := classification = AUTHORITY_ELIGIBLE_CLASS }

def classifyEventLog : Option Json → List Classified
  | some (.arr events) => events.zipIdx.map fun e => classifyRuntimeEvent e.2 e.1
  | _ => []

structure Candidate where
  source_index : Nat
  event_id : MapKey
  event_type : Option String

def authorityHistoryCandidatesFromClassifiedEvents (classifiedEvents : List Classified) : List Candidate :=
  (classifiedEvents.zipIdx.filter fun e => e.1.eligible_for_authority_history).map fun e =>
    ⟨e.2, e.1.event_id, e.1.event_type⟩

/-! ## The reconciler -/

inductive DriftRecord where
  | execution_drift (event_id : Json)
  | semantic_drift (event_id : String) (runtime_believed_classification : Json)
      (classifier_classification : Classification)
  | authority_drift (admissible_authority_candidates canonical_applied_events : Nat)
  | projection_drift (field : String) (only_in_runtime only_in_canonical : List String)
  | unknown_drift (count : Nat) (event_ids : List MapKey)

def DRIFT_TYPES : List String :=
  ["execution_drift", "semantic_drift", "authority_drift", "projection_drift", "unknown_drift"]

def DriftRecord.drift_type : DriftRecord → String
  | execution_drift .. => "execution_drift"
  | semantic_drift .. => "semantic_drift"
  | authority_drift .. => "authority_drift"
  | projection_drift .. => "projection_drift"
  | unknown_drift .. => "unknown_drift"

/-- `v && typeof v === 'object' ? v : {}` -/
def objectOrEmpty : Option Json → Json
  | some v => if v.isObject then v else .obj []
  | none => .obj []

/-- The elements of an array; nothing else has any. -/
def elements : Option Json → List Json
  | some (.arr xs) => xs
  | _ => []

def stringOf? : Json → Option String
  | .str s => some s
  | _ => none

def strings (values : Option Json) : List String := (elements values).filterMap stringOf?

def sortedStrings (values : Option Json) : List String :=
  (strings values).insertionSort fun a b => keyLe a b = true

def setDifference (a b : List String) : List String := a.filter (· ∉ b)

/-- `JSON.stringify` of an array of strings. -/
def stringify (ss : List String) : List Char := (Json.arr (ss.map .str)).text

/-- One comparison of a field of the projection with one of the canonical state. -/
def compareField (field : String) (runtime canonical : Option Json) : List DriftRecord :=
  let inRuntime := sortedStrings runtime
  let inCanonical := sortedStrings canonical
  if stringify inRuntime ≠ stringify inCanonical then
    [.projection_drift field (setDifference inRuntime inCanonical) (setDifference inCanonical inRuntime)]
  else []

def canonicalControllers (canonicalState : Option Json) : Option Json :=
  ((objectOrEmpty canonicalState).prop "identity_continuity").bind (·.prop "controllers")

def canonicalDevice (canonicalState : Option Json) : Option Json :=
  ((objectOrEmpty canonicalState).prop "effective_authority").bind (·.prop "device")

def compareWithCanonicalSubjectState (runtimeProjection canonicalState : Option Json) : List DriftRecord :=
  let runtime := objectOrEmpty runtimeProjection
  compareField "controllers" (runtime.prop "controllers") (canonicalControllers canonicalState) ++
    compareField "device_authority" (runtime.prop "device_authority") (canonicalDevice canonicalState)

/-- `classByEventId.get(key)`: `null` is no key of the map. -/
def classByEventId (classified : List Classified) (key : MapKey) : Option Classification :=
  (classified.reverse.find? fun item => item.event_id ≠ .null ∧ item.event_id = key).map
    Classified.classification

/-- The class under an id of the projection; no event has an object of the projection as its id. -/
def classOfRepresented (classified : List Classified) (eventId : Json) : Option Classification :=
  (MapKey.ofEndpoint (some eventId)).bind (classByEventId classified)

/-- `believed[eventId] === computed` -/
def believes (believed : Json) (computed : Classification) : Bool :=
  match computed.name with
  | some name => strictEq (some believed) (some (.str name))
  | none => false

def representedIds (runtimeProjection : Option Json) : List Json :=
  elements ((objectOrEmpty runtimeProjection).prop "represented_event_ids")

/-- The own fields of `believed_classifications`. -/
def believed (runtimeProjection : Option Json) : Fields :=
  (objectOrEmpty ((objectOrEmpty runtimeProjection).prop "believed_classifications")).spread

def appliedCount (canonicalState : Option Json) : Nat :=
  (elements ((objectOrEmpty canonicalState).prop "applied_events")).length

def compareWithClassifiedAuthoritySubset (runtimeProjection : Option Json) (classified : List Classified)
    (canonicalState : Option Json) : List DriftRecord :=
  let execution := (representedIds runtimeProjection).filterMap fun eventId =>
    if classOfRepresented classified eventId = some .reject then some (.execution_drift eventId) else none
  let semantic := (sortFields (believed runtimeProjection)).filterMap fun e =>
    match classByEventId classified (.str e.1) with
    | some computed => if believes e.2 computed then none else some (.semantic_drift e.1 e.2 computed)
    | none => none
  let candidates := authorityHistoryCandidatesFromClassifiedEvents classified
  execution ++ semantic ++
    if candidates.length ≠ appliedCount canonicalState then
      [.authority_drift candidates.length (appliedCount canonicalState)]
    else []

def computeUnknownDrift (classified : List Classified) : JsM (List DriftRecord) := do
  let unknownIds := (classified.filter fun item => item.classification = .legacy_unknown).map
    Classified.event_id
  if unknownIds.length = 0 then return []
  return [.unknown_drift unknownIds.length (← MapKey.sort unknownIds)]

structure DriftReport where
  subject : Json
  has_drift : Bool
  drift_types_present : List String
  summary : List (String × Nat)
  drifts : List DriftRecord

def emptySummary : List (String × Nat) := DRIFT_TYPES.map fun type => (type, 0)

/-- `summary[drift.drift_type] += 1` for every drift. -/
def summarize (drifts : List DriftRecord) : List (String × Nat) :=
  drifts.foldl (fun summary drift =>
    summary.map fun e => if e.1 = drift.drift_type then (e.1, e.2 + 1) else e) emptySummary

/-- The report on a raw event log. -/
def computeDriftReport (runtime_projection canonical_state event_log : Option Json) : JsM DriftReport := do
  let classifiedEvents := classifyEventLog event_log
  let unknown ← computeUnknownDrift classifiedEvents
  let drifts := compareWithCanonicalSubjectState runtime_projection canonical_state ++
    compareWithClassifiedAuthoritySubset runtime_projection classifiedEvents canonical_state ++ unknown
  let summary := summarize drifts
  return {
    subject := Node.orElse (or (runtime_projection.bind (·.prop "subject"))
      (canonical_state.bind (·.prop "subject"))) .null
    has_drift := drifts.length > 0
    drift_types_present := DRIFT_TYPES.filter fun type => (summary.lookup type).getD 0 > 0
    summary
    drifts }

/-! ## What no drift means -/

/-- The last event with its id, where it has one. -/
structure LastOf (items : List Classified) (item : Classified) : Prop where
  identified : item.event_id ≠ .null
  last : ∃ before after, items = before ++ item :: after ∧ ∀ later ∈ after, later.event_id ≠ item.event_id

/-- The three realities agree as far as the reconciler looks. -/
structure Agree (runtimeProjection canonicalState : Option Json) (items : List Classified) : Prop where
  represented : ∀ item, LastOf items item → item.classification = .reject →
    ∀ id ∈ representedIds runtimeProjection, MapKey.ofEndpoint (some id) ≠ some item.event_id
  believed : ∀ item, LastOf items item → ∀ e ∈ believed runtimeProjection, item.event_id = .str e.1 →
    believes e.2 item.classification = true
  known : ∀ item ∈ items, item.classification ≠ .legacy_unknown
  controllers : (strings ((objectOrEmpty runtimeProjection).prop "controllers")).Perm
    (strings (canonicalControllers canonicalState))
  device : (strings ((objectOrEmpty runtimeProjection).prop "device_authority")).Perm
    (strings (canonicalDevice canonicalState))
  applied : items.countP (fun item => item.classification = .authority_event_candidate) =
    appliedCount canonicalState

variable {items : List Classified} {key : MapKey} {c : Classification}

theorem classByEventId_eq_some : classByEventId items key = some c ↔
    ∃ item, LastOf items item ∧ item.event_id = key ∧ item.classification = c := by
  unfold classByEventId
  rw [Option.map_eq_some_iff]
  constructor
  · rintro ⟨item, hfind, rfl⟩
    obtain ⟨hitem, after, before, hsplit, hafter⟩ := List.find?_eq_some_iff_append.mp hfind
    obtain ⟨hnull, rfl⟩ := of_decide_eq_true hitem
    refine ⟨item, ⟨hnull, before.reverse, after.reverse, ?_, fun later hlater => ?_⟩, rfl, rfl⟩
    · rw [← List.reverse_reverse items, hsplit]
      simp
    · have hno := hafter later (List.mem_reverse.mp hlater)
      intro hsame
      rw [hsame] at hno
      simp [hnull] at hno
  · rintro ⟨item, ⟨hnull, before, after, rfl, hafter⟩, rfl, rfl⟩
    refine ⟨item, List.find?_eq_some_iff_append.mpr ⟨by simp [hnull], after.reverse, before.reverse, by simp,
      fun later hlater => ?_⟩, rfl⟩
    simp [hafter later (List.mem_reverse.mp hlater)]

theorem stringify_injective {ss ts : List String} : stringify ss = stringify ts ↔ ss = ts := by
  refine ⟨fun h => ?_, fun h => by rw [h]⟩
  have hfinite : ∀ us : List String, (Json.arr (us.map .str)).finite = true := by
    intro us
    induction us with
    | nil => rfl
    | cons u us ih => exact ih
  have harr := Json.text_injective (hfinite ss) (hfinite ts) h
  refine List.map_injective_iff.mpr (fun a b hab => ?_) (Json.arr.inj harr)
  exact Json.str.inj hab

theorem sortedStrings_eq_iff {a b : Option Json} :
    sortedStrings a = sortedStrings b ↔ (strings a).Perm (strings b) := by
  let le (s t : String) : Prop := keyLe s t = true
  have htotal : Std.Total le := ⟨fun s t => lexLe_total _ _⟩
  have htrans : IsTrans String le := ⟨fun s t u => lexLe_trans⟩
  have hperm (ss : List String) : (ss.insertionSort le).Perm ss := List.perm_insertionSort le ss
  constructor
  · intro h
    exact (hperm _).symm.trans ((List.Perm.of_eq h).trans (hperm _))
  · intro h
    refine List.Perm.eq_of_pairwise (fun s t _ _ => keyLe_antisymm)
      (List.pairwise_insertionSort le _) (List.pairwise_insertionSort le _) ?_
    exact (hperm _).trans (h.trans (hperm _).symm)

theorem compareField_eq_nil {field : String} {a b : Option Json} :
    compareField field a b = [] ↔ (strings a).Perm (strings b) := by
  rw [← sortedStrings_eq_iff, ← stringify_injective]
  unfold compareField
  dsimp only
  split
  · rename_i hne
    simp [hne]
  · rename_i heq
    simp [not_not.mp heq]

theorem execution_eq_nil {ids : List Json} :
    (ids.filterMap fun id =>
      if classOfRepresented items id = some .reject then some (DriftRecord.execution_drift id) else none) = [] ↔
      ∀ item, LastOf items item → item.classification = .reject →
        ∀ id ∈ ids, MapKey.ofEndpoint (some id) ≠ some item.event_id := by
  rw [List.filterMap_eq_nil_iff]
  constructor
  · intro h item hlast hreject id hid hkey
    have hnone := h id hid
    rw [if_pos] at hnone
    · cases hnone
    · unfold classOfRepresented
      rw [hkey]
      exact classByEventId_eq_some.mpr ⟨item, hlast, rfl, hreject⟩
  · intro h id hid
    rw [if_neg]
    intro hclass
    obtain ⟨key, hkey, hclass⟩ := Option.bind_eq_some_iff.mp hclass
    obtain ⟨item, hlast, rfl, hreject⟩ := classByEventId_eq_some.mp hclass
    exact h item hlast hreject id hid hkey

theorem semantic_eq_nil {fs : Fields} :
    ((sortFields fs).filterMap fun e =>
      match classByEventId items (.str e.1) with
      | some computed =>
        if believes e.2 computed then none else some (DriftRecord.semantic_drift e.1 e.2 computed)
      | none => none) = [] ↔
      ∀ item, LastOf items item → ∀ e ∈ fs, item.event_id = .str e.1 →
        believes e.2 item.classification = true := by
  rw [List.filterMap_eq_nil_iff]
  constructor
  · intro h item hlast e he hid
    have hnone := h e ((perm_sortFields fs).mem_iff.mpr he)
    rw [classByEventId_eq_some.mpr ⟨item, hlast, hid, rfl⟩] at hnone
    dsimp only at hnone
    by_contra hdiffers
    rw [if_neg hdiffers] at hnone
    cases hnone
  · intro h e he
    cases hclass : classByEventId items (.str e.1) with
    | none => rfl
    | some computed =>
      obtain ⟨item, hlast, hid, rfl⟩ := classByEventId_eq_some.mp hclass
      exact if_pos (h item hlast e ((perm_sortFields fs).mem_iff.mp he) hid)

theorem length_candidates (h : ∀ item ∈ items, item.eligible_for_authority_history =
    decide (item.classification = .authority_event_candidate)) :
    (authorityHistoryCandidatesFromClassifiedEvents items).length =
      items.countP fun item => item.classification = .authority_event_candidate := by
  unfold authorityHistoryCandidatesFromClassifiedEvents
  rw [List.length_map, ← List.countP_eq_length_filter]
  have hmap := List.countP_map (p := Classified.eligible_for_authority_history) (f := Prod.fst)
    (l := items.zipIdx)
  rw [List.zipIdx_map_fst] at hmap
  rw [show (fun e : Classified × Nat => e.1.eligible_for_authority_history) =
    Classified.eligible_for_authority_history ∘ Prod.fst from rfl, ← hmap]
  exact List.countP_congr fun item hitem => by rw [h item hitem]

theorem eligible_classify {event_log : Option Json} : ∀ item ∈ classifyEventLog event_log,
    item.eligible_for_authority_history = decide (item.classification = .authority_event_candidate) := by
  unfold classifyEventLog
  split
  · intro item hitem
    obtain ⟨e, -, rfl⟩ := List.mem_map.mp hitem
    rfl
  · exact fun _ h => nomatch h

theorem unknown_eq_nil : computeUnknownDrift items = .ok [] ↔
    ∀ item ∈ items, item.classification ≠ .legacy_unknown := by
  unfold computeUnknownDrift
  dsimp only
  split
  · rename_i hzero
    rw [List.length_map, List.length_eq_zero_iff, List.filter_eq_nil_iff] at hzero
    refine ⟨fun _ item hitem => ?_, fun _ => rfl⟩
    simpa using hzero item hitem
  · rename_i hsome
    constructor
    · intro h
      obtain ⟨ids, -, h⟩ := bind_eq_ok.mp h
      cases h
    · intro h
      refine absurd ?_ hsome
      rw [List.length_map, List.length_eq_zero_iff, List.filter_eq_nil_iff]
      intro item hitem
      simpa using h item hitem

section Example

/-- A refused transfer and a genesis under one id. -/
def repeatedIds : Json :=
  .arr [.obj [("id", .str "evt-1"), ("type", .str "TRANSFER")],
    .obj [("id", .str "evt-1"), ("type", .str "GENESIS")]]

/-- The projection represents both, and the state has applied one event. -/
def representsBoth : Json := .obj [("represented_event_ids", .arr [.str "evt-1"])]

def appliedOne : Json := .obj [("applied_events", .arr [.str "evt-1"])]

/-- A state with a controller that is no string. -/
def numberedController : Json :=
  .obj [("identity_continuity", .obj [("controllers", .arr [.num (.int 1)])])]

end Example

end SimpleL1.Subject.Drift
