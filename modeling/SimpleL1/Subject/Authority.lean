import SimpleL1.Node.Routes

/-!
# Authority events and subject states

An authority event is normalised, validated against what was accepted before it,
and applied to the state of a subject. The evaluator goes through a history in
order and leaves out the events that are not valid. The ids of events are any
truthy values; all else that the state holds is text.
-/

namespace SimpleL1.Subject

open SimpleL1.Js

/-- The platform, with its collation. -/
structure Platform extends Node.Platform where
  localeCompare : String → String → Int
  localeCompare_total : ∀ a b, localeCompare a b ≤ 0 ∨ localeCompare b a ≤ 0
  localeCompare_trans : ∀ a b c, localeCompare a b ≤ 0 → localeCompare b c ≤ 0 → localeCompare a c ≤ 0

def AUTHORITY_EVENT_SCHEMA_VERSION : String := "simple-l1.subject_authority.authority_event.v1"

def AUTHORITY_EVENT_TYPE : String := "authority_event"

/-! ## Domains and actions -/

inductive AuthorityDomain where
  | identity | device | finance | organization | application
  deriving DecidableEq

inductive Action where
  | genesis | bind_controller | revoke_controller | rotate_key | accept_claim | bind_relationship
  | bind_device | transfer_device | grant_capability | revoke_capability
  deriving DecidableEq

namespace AuthorityDomain

def name : AuthorityDomain → String
  | identity => "identity"
  | device => "device"
  | finance => "finance"
  | organization => "organization"
  | application => "application"

def all : List AuthorityDomain := [identity, device, finance, organization, application]

def ofName (s : String) : Option AuthorityDomain := all.find? (·.name = s)

theorem ofName_eq_some {s : String} {d : AuthorityDomain} : ofName s = some d ↔ s = d.name := by
  constructor
  · intro h
    simpa [eq_comm] using List.find?_some (p := fun d : AuthorityDomain => decide (d.name = s)) h
  · rintro rfl
    cases d <;> rfl

theorem name_inj {d d' : AuthorityDomain} : d.name = d'.name ↔ d = d' := by
  cases d <;> cases d' <;> decide

end AuthorityDomain

namespace Action

def name : Action → String
  | genesis => "genesis"
  | bind_controller => "bind_controller"
  | revoke_controller => "revoke_controller"
  | rotate_key => "rotate_key"
  | accept_claim => "accept_claim"
  | bind_relationship => "bind_relationship"
  | bind_device => "bind_device"
  | transfer_device => "transfer_device"
  | grant_capability => "grant_capability"
  | revoke_capability => "revoke_capability"

def all : List Action := [genesis, bind_controller, revoke_controller, rotate_key, accept_claim,
  bind_relationship, bind_device, transfer_device, grant_capability, revoke_capability]

def ofName (s : String) : Option Action := all.find? (·.name = s)

theorem ofName_eq_some {s : String} {a : Action} : ofName s = some a ↔ s = a.name := by
  constructor
  · intro h
    simpa [eq_comm] using List.find?_some (p := fun a : Action => decide (a.name = s)) h
  · rintro rfl
    cases a <;> rfl

theorem name_inj {a a' : Action} : a.name = a'.name ↔ a = a' := by
  cases a <;> cases a' <;> decide

end Action

def DOMAIN_ACTIONS : AuthorityDomain → List Action
  | .identity => [.genesis, .bind_controller, .revoke_controller, .rotate_key, .accept_claim,
      .bind_relationship]
  | .device => [.bind_device, .transfer_device, .bind_relationship]
  | .finance | .organization | .application => [.grant_capability, .revoke_capability]

/-! ## Normalising -/

def isAddressChar (c : Char) : Bool :=
  c.isDigit || ('a' ≤ c && c ≤ 'z') || c == '.' || c == '_' || c == ':' || c == '-'

/-- `/^sl1:(id|device|agent|org):[a-z0-9][a-z0-9._:-]{1,127}$/`. -/
def SUBJECT_ADDRESS_PATTERN (s : String) : Bool :=
  ["id", "device", "agent", "org"].any fun kind =>
    let tag := ("sl1:" ++ kind ++ ":").toList
    let rest := s.toList.drop tag.length
    s.toList.take tag.length == tag && decide (2 ≤ rest.length ∧ rest.length ≤ 128)
      && rest.head?.any (fun c => c.isDigit || ('a' ≤ c && c ≤ 'z')) && rest.all isAddressChar

/-- `s.trim().toLowerCase()`. -/
def lowerTrim (p : Platform) (s : String) : String := p.lower (trim s)

def normalizeSubjectAddress (p : Platform) : Option Json → Option String
  | some (.str s) => if SUBJECT_ADDRESS_PATTERN (lowerTrim p s) then some (lowerTrim p s) else none
  | _ => none

def normalizeNullableString : Option Json → JsM (Option String)
  | none | some .null | some (.str "") => return none
  | some v => some <$> v.toStr

/-- `String(v || '').trim().toLowerCase()`. -/
def loweredText (p : Platform) (v : Option Json) : JsM String := lowerTrim p <$> strOrEmpty v

/-- `normalizeSubjectAddress(v) || String(v || '').trim().toLowerCase()`. -/
def addressOrText (p : Platform) (v : Option Json) : JsM String :=
  match normalizeSubjectAddress p v with
  | some s => return s
  | none => loweredText p v

/-- `Array.isArray(v) ? v.map(String).sort() : []`. -/
def textsOrEmpty : Option Json → JsM (List String)
  | some (.arr xs) => (·.insertionSort (keyLe · · = true)) <$> xs.mapM Json.toStr
  | _ => return []

/-- `v && typeof v === 'object' && !Array.isArray(v) ? { ...v } : {}`. -/
def fieldsOrEmpty : Option Json → Fields
  | some (.obj fs) => fs
  | _ => []

def nullableText (s : Option String) : Json := (s.map Json.str).getD .null

structure AuthorityProof where
  type : String
  controller : String
  signature : Option String
  legacy_event_id : Option String
  evidence_hash : Option String

def AuthorityProof.toJson (proof : AuthorityProof) : Json :=
  .obj [("type", .str proof.type), ("controller", .str proof.controller),
    ("signature", nullableText proof.signature),
    ("legacy_event_id", nullableText proof.legacy_event_id),
    ("evidence_hash", nullableText proof.evidence_hash)]

/-- What an event says, its id apart. -/
structure AuthorityBasis where
  schema_version : Json
  type : Json
  subject : String
  authority_domain : String
  action : String
  target : String
  recipient : Option String
  capability : Option String
  scope : Option String
  expires_at : Option String
  proof : AuthorityProof
  timestamp : Option String
  previous_state_reference : Option String
  causal_parents : List String
  metadata : Fields

def AuthorityBasis.fields (e : AuthorityBasis) : Fields :=
  [("schema_version", e.schema_version), ("type", e.type), ("subject", .str e.subject),
    ("authority_domain", .str e.authority_domain), ("action", .str e.action),
    ("target", .str e.target), ("recipient", nullableText e.recipient),
    ("capability", nullableText e.capability), ("scope", nullableText e.scope),
    ("expires_at", nullableText e.expires_at), ("proof", e.proof.toJson),
    ("timestamp", nullableText e.timestamp),
    ("previous_state_reference", nullableText e.previous_state_reference),
    ("causal_parents", .arr (e.causal_parents.map .str)), ("metadata", .obj e.metadata)]

structure AuthorityEvent extends AuthorityBasis where
  event_id : Json

def AuthorityEvent.toJson (e : AuthorityEvent) : Json :=
  .obj (("event_id", e.event_id) :: e.toAuthorityBasis.fields)

def authorityEventId (p : Platform) (value : Json) : String :=
  "ae_" ++ Node.sliceTo 32 (p.sha256 (Node.stableStringify value))

def normalizeProof (p : Platform) (proof : Json) : JsM AuthorityProof :=
  return {
    type := ← loweredText p (proof.prop "type")
    controller := ← addressOrText p (proof.prop "controller")
    signature := ← normalizeNullableString (proof.prop "signature")
    legacy_event_id := ← normalizeNullableString (proof.prop "legacy_event_id")
    evidence_hash := ← normalizeNullableString (proof.prop "evidence_hash") }

/-- `v && typeof v === 'object' ? v : {}`. -/
def objectOrEmpty : Option Json → Json
  | some v => if v.isObject then v else .obj []
  | none => .obj []

def normalizeBasis (p : Platform) (input : Json) : JsM AuthorityBasis := do
  let proof := objectOrEmpty (← Node.member (some input) "proof")
  return {
    schema_version := Node.orElse (input.prop "schema_version") (.str AUTHORITY_EVENT_SCHEMA_VERSION)
    type := Node.orElse (input.prop "type") (.str AUTHORITY_EVENT_TYPE)
    subject := ← addressOrText p (input.prop "subject")
    authority_domain := ← loweredText p (input.prop "authority_domain")
    action := ← loweredText p (input.prop "action")
    target := ← loweredText p (input.prop "target")
    recipient := normalizeSubjectAddress p (input.prop "recipient")
    capability := ← normalizeNullableString (input.prop "capability")
    scope := ← normalizeNullableString (input.prop "scope")
    expires_at := ← normalizeNullableString (input.prop "expires_at")
    proof := ← normalizeProof p proof
    timestamp := ← normalizeNullableString (input.prop "timestamp")
    previous_state_reference := ← normalizeNullableString (input.prop "previous_state_reference")
    causal_parents := ← textsOrEmpty (input.prop "causal_parents")
    metadata := fieldsOrEmpty (input.prop "metadata") }

def normalizeAuthorityEvent (p : Platform) (input : Json) : JsM AuthorityEvent := do
  let basis ← normalizeBasis p input
  let derived := Json.str (authorityEventId p (.obj basis.fields))
  return { basis with event_id := Node.orElse (input.prop "event_id") derived }

/-! ## Validating -/

structure Validation where
  ok : Bool
  event : AuthorityEvent
  reason_codes : List String

/-- `normalizeSubjectAddress` of a text that is there finds an address. -/
def isAddress (p : Platform) (s : Option String) : Bool :=
  (normalizeSubjectAddress p (s.map .str)).isSome

/-- `codes.push(code)` when the check fails. -/
def failing (holds : Bool) (code : String) : List String := if holds then [] else [code]

/-- What is wrong with a normalised event by itself. -/
def shapeCodes (p : Platform) (e : AuthorityBasis) : List String :=
  failing (strictEq (some e.schema_version) (some (.str AUTHORITY_EVENT_SCHEMA_VERSION))
      && strictEq (some e.type) (some (.str AUTHORITY_EVENT_TYPE))) "SEMANTIC_CLASS_INVALID"
    ++ failing (isAddress p (some e.subject)) "SUBJECT_INVALID"
    ++ (match AuthorityDomain.ofName e.authority_domain with
      | none => ["UNKNOWN_AUTHORITY_DOMAIN"]
      | some d => failing ((DOMAIN_ACTIONS d).any (·.name = e.action)) "ACTION_DOMAIN_MISMATCH")
    ++ failing (e.target ≠ "") "TARGET_REQUIRED"
    ++ failing (match e.timestamp with
      | none => false
      | some t => t ≠ "" && p.parseDate t ≠ .nan) "TIMESTAMP_INVALID"
    ++ failing (["signed_intent", "legacy_event_bridge", "genesis_authority"].contains e.proof.type)
      "PROOF_INVALID"
    ++ failing (isAddress p (some e.proof.controller)) "PROOF_CONTROLLER_INVALID"
    ++ failing (e.action ≠ Action.transfer_device.name || isAddress p e.recipient) "RECIPIENT_REQUIRED"
    ++ failing (e.action ≠ Action.grant_capability.name
      || (e.capability.any (· ≠ "") && e.scope.any (· ≠ ""))) "CAPABILITY_SCOPE_REQUIRED"

/-- The event is one of those accepted before. -/
def isKnown (knownEventIds : List Json) (parentId : String) : Bool :=
  knownEventIds.any fun id => strictEq (some id) (some (.str parentId))

/-- What is wrong with its place in the history. -/
def orderCodes (knownEventIds : Option (List Json)) (expectedPreviousStateReference : Option String)
    (e : AuthorityBasis) : List String :=
  failing (match knownEventIds with
      | none => true
      | some known => e.causal_parents.all (isKnown known)) "AUTHORITY_HISTORY_NOT_ORDERED"
    ++ failing (expectedPreviousStateReference.isNone || e.previous_state_reference.isNone
      || e.previous_state_reference == expectedPreviousStateReference) "CAUSAL_REFERENCE_MISMATCH"

def validateAuthorityEvent (p : Platform) (event : Json) (knownEventIds : Option (List Json))
    (expectedPreviousStateReference : Option String) : JsM Validation := do
  let normalized ← normalizeAuthorityEvent p event
  let codes := shapeCodes p normalized.toAuthorityBasis
    ++ orderCodes knownEventIds expectedPreviousStateReference normalized.toAuthorityBasis
  return ⟨codes.isEmpty, normalized, codes.eraseDups⟩

/-! ## Subject states -/

structure IdentityContinuity where
  subject : Option String
  status : String
  controllers : List String

structure Relationship where
  domain : String
  subject : String
  counterparty : String
  relation : Json
  derived_from : Json

structure Delegation where
  domain : String
  target : String
  capability : Option String
  scope : Option String

structure Transfer where
  domain : String
  target : String
  from_subject : String
  to_subject : Option String

structure SubjectState where
  subject : Option String
  identity_continuity : IdentityContinuity
  effective_authority : AuthorityDomain → List String
  relationships : List Relationship
  delegations : List Delegation
  transfers : List Transfer
  applied_events : List Json

def Relationship.toJson (r : Relationship) : Json :=
  .obj [("domain", .str r.domain), ("subject", .str r.subject), ("counterparty", .str r.counterparty),
    ("relation", r.relation), ("derived_from", r.derived_from)]

def Delegation.toJson (g : Delegation) : Json :=
  .obj [("domain", .str g.domain), ("target", .str g.target), ("capability", nullableText g.capability),
    ("scope", nullableText g.scope)]

def Transfer.toJson (t : Transfer) : Json :=
  .obj [("domain", .str t.domain), ("target", .str t.target), ("from", .str t.from_subject),
    ("to", nullableText t.to_subject)]

def texts (xs : List String) : Json := .arr (xs.map .str)

def SubjectState.toJson (s : SubjectState) : Json :=
  .obj [("subject", nullableText s.subject),
    ("identity_continuity", .obj [("subject", nullableText s.identity_continuity.subject),
      ("status", .str s.identity_continuity.status),
      ("controllers", texts s.identity_continuity.controllers)]),
    ("effective_authority", .obj (AuthorityDomain.all.map fun d => (d.name, texts (s.effective_authority d)))),
    ("relationships", .arr (s.relationships.map Relationship.toJson)),
    ("delegations", .arr (s.delegations.map Delegation.toJson)),
    ("transfers", .arr (s.transfers.map Transfer.toJson)),
    ("applied_events", .arr s.applied_events)]

def emptySubjectState (subject : Option String) : SubjectState where
  subject := subject
  identity_continuity := ⟨subject, "unknown", []⟩
  effective_authority _ := []
  relationships := []
  delegations := []
  transfers := []
  applied_events := []

/-- `sortedUnique` of texts. -/
def sortedUnique (values : List String) : List String :=
  (values.filter (· ≠ "")).dedup.insertionSort (keyLe · · = true)

/-- `new Set(values)`, where two objects are never the same. -/
def firstOfEach (values : List Json) : List Json :=
  values.foldl (fun kept v => if kept.any (fun k => strictEq (some k) (some v)) then kept else kept ++ [v]) []

/-- `values.sort()`: the texts of the values are made only when there are two to compare. -/
def sortByString (values : List Json) : JsM (List Json) :=
  if values.length ≤ 1 then return values
  else do
    let keyed ← values.mapM fun v => (·, v) <$> v.toStr
    return (keyed.insertionSort fun a b => keyLe a.1 b.1 = true).map Prod.snd

/-- `sortedUnique` of event ids. -/
def sortedUniqueIds (values : List Json) : JsM (List Json) :=
  sortByString (firstOfEach (values.filter Json.truthy))

/-- The key of what a capability is granted on; a missing part is spelt `null`. -/
def delegationKey (target : String) (capability scope : Option String) : String :=
  target ++ ":" ++ capability.getD "null" ++ ":" ++ scope.getD "null"

def Delegation.key (g : Delegation) : String := delegationKey g.target g.capability g.scope

def AuthorityBasis.delegationKey (e : AuthorityBasis) : String :=
  Subject.delegationKey e.target e.capability e.scope

/-- `xs.sort((left, right) => stableStringify(left).localeCompare(stableStringify(right)))`. -/
def sortByText {α : Type} (p : Platform) (toJson : α → Json) (xs : List α) : List α :=
  xs.insertionSort fun a b =>
    p.localeCompare (Node.stableStringify (toJson a)) (Node.stableStringify (toJson b)) ≤ 0

/-- The state with everything but the ids in order. -/
def SubjectState.ordered (p : Platform) (s : SubjectState) : SubjectState :=
  { s with
    identity_continuity := ⟨s.subject, s.identity_continuity.status,
      sortedUnique s.identity_continuity.controllers⟩
    effective_authority := fun d => sortedUnique (s.effective_authority d)
    relationships := sortByText p Relationship.toJson s.relationships
    delegations := sortByText p Delegation.toJson s.delegations
    transfers := sortByText p Transfer.toJson s.transfers }

def canonicalSubjectState (p : Platform) (s : SubjectState) : JsM SubjectState :=
  ({ s.ordered p with applied_events := · }) <$> sortedUniqueIds s.applied_events

def hashCanonicalSubjectState (p : Platform) (s : SubjectState) : JsM String :=
  (fun c => "sha256:" ++ p.sha256 (Node.stableStringify c.toJson)) <$> canonicalSubjectState p s

/-! ## Applying -/

namespace SubjectState

def setControllers (s : SubjectState) (controllers : List String) : SubjectState :=
  { s with identity_continuity := { s.identity_continuity with controllers } }

def setContinuous (s : SubjectState) : SubjectState :=
  { s with identity_continuity := { s.identity_continuity with status := "continuous" } }

def setAuthority (s : SubjectState) (d : AuthorityDomain) (values : List String) : SubjectState :=
  { s with effective_authority := Function.update s.effective_authority d values }

def addRelationship (s : SubjectState) (r : Relationship) : SubjectState :=
  { s with relationships := s.relationships ++ [r] }

end SubjectState

/-- A device relationship by which the target is owned. -/
def Relationship.owns (target : String) (r : Relationship) : Bool :=
  decide (r.domain = "device") && decide (r.counterparty = target)
    && strictEq (some r.relation) (some (.str "owner"))

def Delegation.granted (e : AuthorityBasis) (g : Delegation) : Bool :=
  decide (g.domain = e.authority_domain ∧ g.target = e.target ∧ g.capability = e.capability
    ∧ g.scope = e.scope)

/-- The list of authorities under the domain of the event. -/
def authorityDomain (e : AuthorityBasis) (method : String) : JsM AuthorityDomain :=
  match AuthorityDomain.ofName e.authority_domain with
  | some d => return d
  | none => throw (.typeError ("Cannot read properties of undefined (reading '" ++ method ++ "')"))

def applyAction (s : SubjectState) (e : AuthorityEvent) : Action → JsM SubjectState
  | .genesis => return s.setContinuous
  | .bind_controller =>
    return (s.setContinuous.setControllers (s.identity_continuity.controllers ++ [e.target])).setAuthority
      .identity (s.effective_authority .identity ++ [e.target])
  | .rotate_key => return (s.setContinuous.setControllers [e.target]).setAuthority .identity [e.target]
  | .revoke_controller =>
    return (s.setControllers (s.identity_continuity.controllers.filter (· ≠ e.target))).setAuthority
      .identity ((s.effective_authority .identity).filter (· ≠ e.target))
  | .bind_device =>
    return (s.setAuthority .device (s.effective_authority .device ++ [e.target])).addRelationship
      ⟨"device", e.subject, e.target, .str "owner", e.event_id⟩
  | .transfer_device =>
    return { s.setAuthority .device ((s.effective_authority .device).filter (· ≠ e.target)) with
      relationships := s.relationships.filter fun r => !r.owns e.target
      transfers := s.transfers ++ [⟨"device", e.target, e.subject, e.recipient⟩] }
  | .grant_capability => do
    let d ← authorityDomain e.toAuthorityBasis "push"
    return { s.setAuthority d (s.effective_authority d ++ [e.toAuthorityBasis.delegationKey]) with
      delegations := s.delegations ++ [⟨e.authority_domain, e.target, e.capability, e.scope⟩] }
  | .revoke_capability => do
    let d ← authorityDomain e.toAuthorityBasis "filter"
    return { s.setAuthority d ((s.effective_authority d).filter (· ≠ e.toAuthorityBasis.delegationKey)) with
      delegations := s.delegations.filter fun g => !g.granted e.toAuthorityBasis }
  | .bind_relationship =>
    return s.addRelationship ⟨e.authority_domain, e.subject, e.target,
      Node.orElse (e.metadata.get "relation") (.str "related"), e.event_id⟩
  | .accept_claim =>
    return s.addRelationship ⟨e.authority_domain, e.subject, e.target, .str "accepted_claim", e.event_id⟩

/-- The copy of the state that the event is applied to. -/
def SubjectState.applied (s : SubjectState) (e : AuthorityEvent) : SubjectState :=
  { s with applied_events := s.applied_events ++ [e.event_id] }

def nextState (s : SubjectState) (e : AuthorityEvent) : JsM SubjectState :=
  match Action.ofName e.action with
  | some action => applyAction (s.applied e) e action
  | none => return s.applied e

def applyAuthorityEvent (p : Platform) (s : SubjectState) (e : AuthorityEvent) : JsM SubjectState := do
  canonicalSubjectState p (← nextState s e)

/-! ## Evaluating a history -/

/-- Where the evaluator stands. -/
structure Evaluation where
  currentState : SubjectState
  currentStateHash : String
  knownEventIds : List Json
  reasonCodes : List String

def acceptEvent (p : Platform) (r : Evaluation) (event : AuthorityEvent) : JsM Evaluation := do
  let currentState ← applyAuthorityEvent p r.currentState event
  let currentStateHash ← hashCanonicalSubjectState p currentState
  return ⟨currentState, currentStateHash, r.knownEventIds ++ [event.event_id], r.reasonCodes⟩

def evaluateStep (p : Platform) (r : Evaluation) (event : AuthorityEvent) : JsM Evaluation := do
  let validation ← validateAuthorityEvent p event.toJson (some r.knownEventIds) (some r.currentStateHash)
  if !validation.ok then
    return { r with reasonCodes := r.reasonCodes ++ validation.reason_codes }
  else
    acceptEvent p r validation.event

/-- `subject || normalizedEvents[0]?.subject || null`. -/
def selectSubject (subject : Option String) (events : List AuthorityEvent) : Option String :=
  (subject.filter (· ≠ "")).or ((events.head?.map (·.subject)).filter (· ≠ ""))

def startEvaluation (p : Platform) (subject : Option String) : JsM Evaluation := do
  let currentState ← canonicalSubjectState p (emptySubjectState subject)
  let currentStateHash ← hashCanonicalSubjectState p currentState
  return ⟨currentState, currentStateHash, [], []⟩

structure HistoryOutcome where
  ok : Bool
  reason_codes : List String
  canonical_subject_state : Option SubjectState
  state_hash : Option String

/-- `evaluateAuthorityHistory` of an array. -/
def evaluateEvents (p : Platform) (events : List Json) (subject : Option String) : JsM Evaluation := do
  let normalizedEvents ← events.mapM (normalizeAuthorityEvent p)
  let start ← startEvaluation p (selectSubject subject normalizedEvents)
  normalizedEvents.foldlM (evaluateStep p) start

def evaluateAuthorityHistory (p : Platform) (events : Json) (subject : Option String) :
    JsM HistoryOutcome :=
  match events with
  | .arr xs => do
    let r ← evaluateEvents p xs subject
    return ⟨r.reasonCodes.isEmpty, r.reasonCodes.eraseDups, some r.currentState, some r.currentStateHash⟩
  | _ => return ⟨false, ["PROJECTION_INPUT_REJECTED"], none, none⟩

def deriveCanonicalSubjectState (p : Platform) (events : Json) (subject : Option String) :
    JsM (Option SubjectState) :=
  (·.canonical_subject_state) <$> evaluateAuthorityHistory p events subject

end SimpleL1.Subject
