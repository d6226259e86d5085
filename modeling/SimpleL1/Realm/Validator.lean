import SimpleL1.Realm.Projection

/-!
# Accepting a proposal

A proposal is normalised (envelope fields first, strings trimmed), checked
against the envelope and payload contracts, the sequence counter, the previous
hash, the authority policy and the transition rule, and stored as an accepted
event chained to the log. `Clock` holds the two readings of `new Date()`.
-/

namespace SimpleL1.Realm

open SimpleL1.Js

structure Clock where
  /-- The reading that replaces a missing timestamp. -/
  now : String
  acceptedAt : String

structure NormalizedProposal where
  envelope : Envelope
  payload : Fields

def nullProposalError : Error :=
  .typeError "Cannot read properties of null (reading 'envelope')"

/-- `proposal.envelope` when it is an object, else the proposal itself. -/
def proposalEnvelope (proposal : Json) : Json :=
  match proposal.prop "envelope" with
  | some v => if v.isObject then v else proposal
  | none => proposal

def normalizeRealmEventProposal (now : String) (proposal : Json) : JsM NormalizedProposal := do
  if let .null := proposal then throw nullProposalError
  let envelope := proposalEnvelope proposal
  let type ← strOrEmpty (envelope.prop "type")
  let signer ← strOrEmpty (envelope.prop "signer")
  let authority_reference ← strOrEmpty (envelope.prop "authority_reference")
  let sequence ← toNumber (envelope.prop "sequence")
  return {
    envelope := {
      type := trim type
      signer := trim signer
      authority_reference := trim authority_reference
      sequence := sequence
      timestamp := (or (envelope.prop "timestamp") (some (.str now))).getD .null
      previous_event_hash := (nullish (envelope.prop "previous_event_hash")
        (nullish (proposal.prop "previous_event_hash") (some .null))).getD .null }
    payload := (eventPayload proposal).spread }

/-! ## Contract checks -/

def toUpperCase (s : String) : String := String.ofList (s.toList.map Char.toUpper)

/-- The `required` list of an entry's envelope contract; an inherited property has none and gets
the default list, which drops only `type`. -/
def envelopeRequired : Option RegistryEntry → List String
  | some (.contract _) => sharedEnvelopeRequired
  | _ => ["signer", "authority_reference", "sequence", "timestamp"]

def validateEnvelope (envelope : Envelope) : List String :=
  let contract := registryLookup envelope.type
  let required := envelopeRequired contract
  (if isNonEmptyString (some (.str envelope.type)) then [] else ["ENVELOPE_TYPE_REQUIRED"])
    ++ (if contract.isSome then [] else ["UNKNOWN_REALM_EVENT_TYPE"])
    ++ (if required.contains "signer" && !isNonEmptyString (some (.str envelope.signer)) then
        ["ENVELOPE_SIGNER_REQUIRED"] else [])
    ++ (if required.contains "authority_reference"
          && !isNonEmptyString (some (.str envelope.authority_reference)) then
        ["ENVELOPE_AUTHORITY_REFERENCE_REQUIRED"] else [])
    ++ (if required.contains "sequence"
          && (!envelope.sequence.isInteger || envelope.sequence.ltOne) then
        ["ENVELOPE_SEQUENCE_INVALID"] else [])
    ++ (if required.contains "timestamp" && !isNonEmptyString (some envelope.timestamp) then
        ["ENVELOPE_TIMESTAMP_REQUIRED"] else [])

/-- A required field: a non-empty string, the number 0 or an array. -/
def requiredFieldOk (value : Option Json) : Bool :=
  isNonEmptyString value || strictEq value (some (.num (.int 0))) || value.any Json.isArray

/-- A field of the contract that is present has the contract's type. -/
def fieldTypeOk (value : Option Json) (expected : FieldType) : Bool :=
  match value with
  | none | some .null => true
  | some (.str _) => expected = .string
  | some (.arr _) => expected = .array
  | some _ => false

def validatePayload (type : String) (payload : Fields) : List String :=
  match registryLookup type with
  | some (.contract t) =>
    let schema := (realmEventRegistry t).payloadContract
    ((schema.required.filter fun field => !requiredFieldOk (payload.get field)).map fun field =>
        "PAYLOAD_" ++ toUpperCase field ++ "_REQUIRED")
      ++ (match schema.requireOneOf with
        | none => []
        | some fields =>
          if fields.any fun field => isNonEmptyString (payload.get field) then []
          else ["PAYLOAD_TARGET_REQUIRED"])
      ++ ((schema.fields.filter fun p => !fieldTypeOk (payload.get p.1) p.2).map fun p =>
        "PAYLOAD_" ++ toUpperCase p.1 ++ "_TYPE_INVALID")
  | _ => ["UNKNOWN_PAYLOAD_SCHEMA"]

/-! ## Ledger checks -/

def currentAuthorityStateForLedger (host : Host) (ledger : Ledger) : JsM AuthorityState :=
  match ledger.current_authority_state with
  | some state => return state
  | none => buildCurrentAuthorityState host ledger.event_log

def validateSequence (ledger : Ledger) (sequence : Number) : List String :=
  let expected := nextExpectedSequence ledger
  if strictEq (some (.num sequence)) (some (.num expected)) then []
  else ["SEQUENCE_MISMATCH:expected_" ++ expected.toString ++ "_got_" ++ sequence.toString]

def validatePreviousEventHash (ledger : Ledger) (previousEventHash : Json) : JsM (List String) := do
  match previousEventHash with
  | .null => return []
  | _ =>
    let expected ← latestRealmEventHash ledger.event_log
    if strictEq (some previousEventHash) (some expected) then return []
    else
      let e ← toStr (some expected)
      let got ← toStr (some previousEventHash)
      return ["PREVIOUS_EVENT_HASH_MISMATCH:expected_" ++ e ++ "_got_" ++ got]

def validateAuthorityTransition (state : AuthorityState) (envelope : Envelope) (payload : Fields) :
    JsM (List String) := do
  match registryLookup envelope.type with
  | none => return ["UNKNOWN_REALM_EVENT_TYPE"]
  | some entry =>
    let denied := if canAuthorityIssueEvent state envelope.signer envelope.type then []
      else ["AUTHORITY_TRANSITION_DENIED"]
    match entry with
    | .contract t =>
      let codes ← (realmEventRegistry t).validateTransition state envelope payload
      return denied ++ codes
    | .inherited => return denied

/-! ## Acceptance -/

/-- `contract?.version || 1`. -/
def contractVersion (type : String) : Number :=
  match registryLookup type with
  | some (.contract t) => (realmEventRegistry t).version
  | _ => .int 1

/-- `contract?.projectionVersion || 1`. -/
def contractProjectionVersion (type : String) : Number :=
  match registryLookup type with
  | some (.contract t) => (realmEventRegistry t).projectionVersion
  | _ => .int 1

/-- The fields of an accepted event before it is chained. -/
def acceptedFields (clock : Clock) (normalized : NormalizedProposal) : Fields :=
  let envelope := normalized.envelope
  [("type", .str envelope.type), ("realm_event", .bool true),
    ("version", .num (contractVersion envelope.type)),
    ("projection_version", .num (contractProjectionVersion envelope.type)),
    ("envelope", envelope.toJson),
    ("payload", .obj normalized.payload), ("signer", .str envelope.signer),
    ("authority_reference", .str envelope.authority_reference),
    ("sequence", .num envelope.sequence), ("timestamp", envelope.timestamp),
    ("accepted_at", .str clock.acceptedAt)]

def buildAcceptedRealmEvent (host : Host) (clock : Clock) (normalized : NormalizedProposal)
    (ledger : Ledger) : JsM Json := do
  let previousEventHash ← latestRealmEventHash ledger.event_log
  let event ← attachRealmEventHashChain host (acceptedFields clock normalized) previousEventHash
  return .obj event

inductive Validation where
  | rejected (reason_codes : List String) (proposal : NormalizedProposal)
  | accepted (event : Json) (proposal : NormalizedProposal)

def Validation.ok : Validation → Bool
  | rejected .. => false
  | accepted .. => true

/-- The reason codes of a normalised proposal; each check runs only when the ones before passed. -/
def proposalReasonCodes (host : Host) (ledger : Ledger) (normalized : NormalizedProposal)
    (skipSequenceCheck : Bool) : JsM (List String) := do
  let envelope := normalized.envelope
  let contract := validateEnvelope envelope ++ validatePayload envelope.type normalized.payload
  if contract ≠ [] then return contract
  let sequence := if skipSequenceCheck then [] else validateSequence ledger envelope.sequence
  if sequence ≠ [] then return sequence
  let previous ← validatePreviousEventHash ledger envelope.previous_event_hash
  if previous ≠ [] then return previous
  let state ← currentAuthorityStateForLedger host ledger
  validateAuthorityTransition state envelope normalized.payload

def validateRealmEventProposal (host : Host) (clock : Clock) (ledger : Ledger) (proposal : Json)
    (skipSequenceCheck : Bool := false) : JsM Validation := do
  let normalized ← normalizeRealmEventProposal clock.now proposal
  let reasonCodes ← proposalReasonCodes host ledger normalized skipSequenceCheck
  if reasonCodes ≠ [] then return .rejected reasonCodes normalized
  else
    let event ← buildAcceptedRealmEvent host clock normalized ledger
    return .accepted event normalized

end SimpleL1.Realm
