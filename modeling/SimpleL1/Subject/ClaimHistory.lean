import SimpleL1.Js.Codec
import SimpleL1.Lib.Assoc
import SimpleL1.Node.Platform

/-!
# Claim histories

A history of claim events is read into claims with a status, and the projection lists the
active and the inactive ones. An event that is not valid is rejected with its reasons.
-/

namespace SimpleL1.Subject.ClaimHistory

open SimpleL1.Js SimpleL1.Lib

def CLAIM_HISTORY_RULESET_VERSION : String := "subject-claim-history-v1"

def CLAIM_HISTORY_RULESET_STATUS : String := "frozen"

inductive ClaimEventType where
  | issued | superseded | revoked
  deriving DecidableEq, Repr

def ClaimEventType.name : ClaimEventType → String
  | issued => "CLAIM_ISSUED"
  | superseded => "CLAIM_SUPERSEDED"
  | revoked => "CLAIM_REVOKED"

inductive ClaimStatus where
  | active | superseded | revoked
  deriving DecidableEq, Repr

/-- A claim; what is `null` until an event sets it is `none`. -/
structure Claim where
  claim_id : String
  subject : String
  claim_type : String
  status : ClaimStatus
  value_hash : String
  disclosure_value : Json
  evidence_ref : Json
  issued_at : Option String
  supersedes : Option String
  superseded_by : Option String
  revoked_by : Option String

/-- A claim as it is reported; a property that is not set is `none`. -/
structure PublicClaim where
  claim_id : String
  subject : String
  claim_type : String
  status : ClaimStatus
  value_hash : String
  evidence_ref : Option Json
  issued_at : Option String
  supersedes : Option String
  superseded_by : Option String
  revoked_by : Option String
  disclosure_value : Option Json

structure RejectedEvent where
  event_id : Option String
  reason_codes : List String
  deriving DecidableEq, Repr

/-! ## Events -/

def normalizeString : Option Json → JsM String
  | none | some .null => .ok ""
  | some v => trim <$> v.toStr

/-- `normalizeString(v) || null`. -/
def nonEmpty (s : String) : Option String := if s = "" then none else some s

/-- `/^sha256:[a-f0-9]{64}$/`. -/
def isClaimValueHash (s : String) : Bool :=
  s.toList.take 7 == "sha256:".toList && (s.toList.drop 7).length == 64 &&
    (s.toList.drop 7).all Node.isHexDigit

def isLower (c : Char) : Bool := 'a' ≤ c && c ≤ 'z'

/-- `/^[a-z][a-z0-9_]{2,63}$/`. -/
def isClaimType (s : String) : Bool :=
  match s.toList with
  | [] => false
  | c :: cs => isLower c && 2 ≤ cs.length && cs.length ≤ 63 &&
    cs.all fun c => isLower c || c.isDigit || c == '_'

/-- The event is of the type, and the field that it needs is empty. -/
def missing (eventType : String) (type : ClaimEventType) (v : Option Json) : JsM Bool :=
  if eventType = type.name then (· = "") <$> normalizeString v else .ok false

/-- The reason codes; the event is valid if there are none. -/
def validateClaimEvent (event : Json) : JsM (List String) := do
  let eventType ← normalizeString (← Node.member (some event) "event_type")
  let eventId ← normalizeString (event.prop "event_id")
  let subject ← normalizeString (event.prop "subject")
  let claimType ← normalizeString (event.prop "claim_type")
  let valueHash ← normalizeString (event.prop "value_hash")
  let supersedes ← missing eventType .superseded (event.prop "supersedes")
  let revokes ← missing eventType .revoked (event.prop "revokes")
  let known := [ClaimEventType.issued.name, ClaimEventType.superseded.name, ClaimEventType.revoked.name]
  let reason (c : Bool) (code : String) : List String := if c then [code] else []
  .ok (reason (!known.contains eventType) "CLAIM_EVENT_TYPE_INVALID" ++
    reason (eventId = "") "CLAIM_EVENT_ID_REQUIRED" ++
    reason (subject = "") "CLAIM_SUBJECT_REQUIRED" ++
    reason (!isClaimType claimType) "CLAIM_TYPE_INVALID" ++
    reason ((eventType = ClaimEventType.issued.name || eventType = ClaimEventType.superseded.name) &&
      !isClaimValueHash valueHash) "CLAIM_VALUE_HASH_INVALID" ++
    reason supersedes "CLAIM_SUPERSEDES_REQUIRED" ++
    reason revokes "CLAIM_REVOKES_REQUIRED")

def createActiveClaimFromEvent (event : Json) : JsM Claim := do
  .ok {
    claim_id := ← normalizeString (event.prop "event_id")
    subject := ← normalizeString (event.prop "subject")
    claim_type := ← normalizeString (event.prop "claim_type")
    status := .active
    value_hash := ← normalizeString (event.prop "value_hash")
    disclosure_value := (event.prop "disclosure_value").getD .null
    evidence_ref := (event.prop "evidence_ref").getD .null
    issued_at := nonEmpty (← normalizeString (event.prop "occurred_at"))
    supersedes := nonEmpty (← normalizeString (event.prop "supersedes"))
    superseded_by := none
    revoked_by := none }

def publicClaim (claim : Claim) : PublicClaim where
  claim_id := claim.claim_id
  subject := claim.subject
  claim_type := claim.claim_type
  status := claim.status
  value_hash := claim.value_hash
  evidence_ref := if claim.evidence_ref.truthy then some claim.evidence_ref else none
  issued_at := claim.issued_at.filter (· ≠ "")
  supersedes := claim.supersedes.filter (· ≠ "")
  superseded_by := claim.superseded_by.filter (· ≠ "")
  revoked_by := claim.revoked_by.filter (· ≠ "")
  disclosure_value := nullish (some claim.disclosure_value) none

/-! ## The loop over the history -/

structure State where
  claims : OrderedMap String Claim
  rejectedEvents : List RejectedEvent
  seenEventIds : List String

def State.empty : State := ⟨.empty, [], []⟩

def State.reject (s : State) (event_id : Option String) (reason_codes : List String) : State :=
  { s with rejectedEvents := s.rejectedEvents ++ [⟨event_id, reason_codes⟩] }

def State.setClaim (s : State) (id : String) (claim : Claim) : State :=
  { s with claims := s.claims.insert id claim }

/-- `event.event_type === type`. -/
def isOfType (event : Json) (type : ClaimEventType) : Bool :=
  strictEq (event.prop "event_type") (some (.str type.name))

/-- The claim that the field names, with its id, if the event is about its subject and type. -/
def findTarget (claims : OrderedMap String Claim) (event : Json) (k : String) :
    JsM (Option (String × Claim)) := do
  let targetId ← normalizeString (event.prop k)
  match claims.find targetId with
  | none => .ok none
  | some target =>
    let subject ← normalizeString (event.prop "subject")
    let claimType ← normalizeString (event.prop "claim_type")
    .ok (if target.subject = subject ∧ target.claim_type = claimType then some (targetId, target) else none)

def Claim.markSuperseded (target : Claim) (eventId : String) : Claim :=
  { target with status := .superseded, superseded_by := some eventId }

def Claim.markRevoked (target : Claim) (eventId : String) : Claim :=
  { target with status := .revoked, revoked_by := some eventId }

/-- What an accepted event does. -/
def applyAccepted (s : State) (event : Json) (eventId : String) : JsM State :=
  if isOfType event .issued then do
    let claim ← createActiveClaimFromEvent event
    .ok (s.setClaim eventId claim)
  else if isOfType event .superseded then do
    match ← findTarget s.claims event "supersedes" with
    | none => .ok (s.reject (some eventId) ["CLAIM_SUPERSESSION_TARGET_INVALID"])
    | some (targetId, target) =>
      let claim ← createActiveClaimFromEvent event
      .ok ((s.setClaim targetId (target.markSuperseded eventId)).setClaim eventId claim)
  else if isOfType event .revoked then do
    match ← findTarget s.claims event "revokes" with
    | none => .ok (s.reject (some eventId) ["CLAIM_REVOCATION_TARGET_INVALID"])
    | some (targetId, target) =>
      .ok (s.setClaim targetId (target.markRevoked eventId))
  else .ok s

def applyEvent (s : State) (event : Json) : JsM State := do
  let codes ← validateClaimEvent event
  let eventId ← normalizeString (event.prop "event_id")
  let codes := if eventId ≠ "" ∧ eventId ∈ s.seenEventIds then
    (codes ++ ["CLAIM_EVENT_ID_DUPLICATE"]).eraseDups else codes
  let s := if eventId = "" then s else { s with seenEventIds := s.seenEventIds ++ [eventId] }
  if codes = [] then applyAccepted s event eventId
  else .ok (s.reject (nonEmpty eventId) codes)

/-! ## The projection -/

structure Projection where
  schema_version : String
  ruleset_version : String
  ruleset_status : String
  projection_type : String
  authoritative_for_subject : Bool
  subject : Option String
  active_claims : List PublicClaim
  inactive_claims : List PublicClaim
  rejected_events : List RejectedEvent

/-- `Array.isArray(claimHistory) ? clone(claimHistory) : []`. -/
def historyOf (claimHistory : Option Json) : List Json :=
  match claimHistory with
  | some (.arr events) => events.map clone
  | _ => []

/-- A filter that is empty lets every claim through. -/
def matchesFilters (subjectFilter claimTypeFilter : String) (claim : Claim) : Bool :=
  (subjectFilter = "" || claim.subject = subjectFilter) &&
    (claimTypeFilter = "" || claim.claim_type = claimTypeFilter)

def deriveActiveClaimProjection (claimHistory : Option Json) (filters : Json) : JsM Projection := do
  let s ← (historyOf claimHistory).foldlM applyEvent .empty
  let subjectFilter ← normalizeString (← Node.member (some filters) "subject")
  let claimTypeFilter ← normalizeString (Js.or (filters.prop "claim_type") (filters.prop "claimType"))
  let claimList := (s.claims.entries.map Prod.snd).filter (matchesFilters subjectFilter claimTypeFilter)
  .ok {
    schema_version := "simple-l1.active_claim_projection.v1"
    ruleset_version := CLAIM_HISTORY_RULESET_VERSION
    ruleset_status := CLAIM_HISTORY_RULESET_STATUS
    projection_type := "active_claim_projection"
    authoritative_for_subject := false
    subject := nonEmpty subjectFilter
    active_claims := (claimList.filter (·.status = .active)).map publicClaim
    inactive_claims := (claimList.filter (·.status ≠ .active)).map publicClaim
    rejected_events := s.rejectedEvents }

end SimpleL1.Subject.ClaimHistory
