import SimpleL1.Lib.Assoc
import SimpleL1.Realm.Ceremony
import SimpleL1.Realm.Encoding
import SimpleL1.Realm.RemoteHistory

/-!
# Realm commands

`executeRealmCommand` normalises a command and hands it to one of four runtimes, which reach
the ledger through the callback `acceptRealmEvent` only: a recovery ceremony up to three
times, the others at most once. `executeCommand` keeps a record of each command id with a
fingerprint of the command's intent and answers a known id from its record.
-/

namespace SimpleL1.Realm.Commands

open SimpleL1.Js SimpleL1.Node SimpleL1.Lib SimpleL1.Lib.Effect
open SimpleL1.Realm.Recovery (read validationJson executeRecoveryCeremony CeremonyResult)

/-! ## Commands -/

structure NormalizedCommand where
  type : String
  payload : Json
  actor : Json
  evidence : Json

/-- `v && typeof v === 'object' ? v : {}`. -/
def objectOrEmpty (v : Option Json) : Json :=
  match v with
  | some v => if v.isObject then v else .obj []
  | none => .obj []

def normalizeRealmCommand (command : Option Json) : JsM NormalizedCommand := do
  let command := command.getD (.obj [])
  if !command.isObject then throw (.error "REALM_COMMAND_INVALID")
  let type ← trim <$> strOrEmpty (command.prop "type")
  if type = "" then throw (.error "REALM_COMMAND_TYPE_REQUIRED")
  return {
    type := type
    payload := objectOrEmpty (command.prop "payload")
    actor := orNull (command.prop "actor")
    evidence := objectOrEmpty (command.prop "evidence") }

/-- What the fingerprint covers. -/
def NormalizedCommand.intent (command : NormalizedCommand) : Json :=
  .obj [("type", .str command.type), ("payload", command.payload), ("actor", command.actor),
    ("evidence", command.evidence)]

def commandIntentFingerprint (host : Host) (command : Option Json) : JsM String := do
  let normalized ← normalizeRealmCommand command
  return host.sha256 (canonicalEncode normalized.intent)

def signedDeviceSubmission (command : NormalizedCommand) : Json :=
  let signed := or (command.payload.prop "signedProposal") (command.evidence.prop "signedProposal")
  if truthy signed then signed.getD .null
  else .obj (Fields.ofOptions [
    ("proposal", or (command.payload.prop "proposal") (some command.payload)),
    ("signature", or (command.evidence.prop "signature") (command.payload.prop "signature"))])

def submittedRealmProposal (command : NormalizedCommand) : Json :=
  orElse (command.payload.prop "proposal") command.payload

/-! ## Recognising a remote realm -/

/-- `rootAuthority.authorityRef || rootAuthority.id || null` of a root that is there. -/
def rootAuthorityRef (rootAuthority : Option Json) : Json :=
  if truthy rootAuthority then
    orNull (or (read rootAuthority "authorityRef") (read rootAuthority "id"))
  else .null

def rootMatches (rootAuthority expectedRoot : Option Json) : Bool :=
  truthy expectedRoot && truthy rootAuthority
    && (strictEq (read rootAuthority "id") expectedRoot
      || strictEq (read rootAuthority "authorityRef") expectedRoot)

def refusal (reason_codes : List String) : Fields :=
  [("ok", .bool false), ("reason_codes", .arr (reason_codes.map .str))]

def statusJson : Status → Json
  | .active => .str "active"
  | .revoked => .str "revoked"
  | .expired => .str "expired"
  | .executed => .str "executed"

def evidenceJson (evidence : RemoteEvidence) : Json :=
  .obj [("realmId", .str evidence.realmId), ("eventLog", .arr evidence.eventLog),
    ("currentAuthorityState", AuthorityState.codec.encode evidence.currentAuthorityState),
    ("rootAuthority", .obj [("id", .str evidence.rootAuthority.id),
      ("authorityRef", .str evidence.rootAuthority.authorityRef),
      ("status", statusJson evidence.rootAuthority.status),
      ("issuedEvent", evidence.rootAuthority.issuedEvent)]),
    ("eventHead", evidence.eventHead)]

def verificationJson : RemoteVerification → Json
  | .refused codes => .obj (refusal codes)
  | .mismatch claimed derived => .obj (refusal ["REMOTE_ROOT_AUTHORITY_MISMATCH"]
      ++ [("evidence", .obj [("claimedRootAuthority", claimed), ("derivedRootAuthority", derived)])])
  | .verified evidence => .obj [("ok", .bool true), ("evidence", evidenceJson evidence)]

/-- The events `for (const event of eventLog)` visits. -/
def eventsOf : Json → JsM (List Json)
  | .arr xs => return xs
  | .str s => return s.toList.map fun c => .str (String.ofList [c])
  | _ => throw (.typeError "eventLog is not iterable")

/-- `verifyRemoteRealmHistory` of the argument as it comes in; what cannot be iterated throws in
the `try`, what cannot be destructured throws before it. -/
def verifyRemoteRealm (host : Host) (remoteRealm : Option Json) : JsM RemoteVerification := do
  let input := remoteRealm.getD (.obj [])
  if let .null := input then
    throw (.typeError "Cannot destructure property 'realmId' of 'object null' as it is null.")
  match eventsOf ((input.prop "eventLog").getD (.arr [])) with
  | .ok events =>
    let claimed := (input.prop "claimedRootAuthority").getD .null
    return verifyRemoteRealmHistory host ⟨input.prop "realmId", events, some claimed⟩
  | .error e => return .refused [e.message]

def evaluateFederationPolicy (localPolicy : Option Json) (evidence : Option Json) : JsM Json := do
  let policy := some (localPolicy.getD (.obj []))
  let trusted ← member policy "trustedRealmId"
  let trustedRealmId ← strOrEmpty (or trusted (read policy "remote_realm_id"))
  let remoteRealmId ← strOrEmpty (read evidence "realmId")
  let acceptedAuthorityRoot :=
    or (read policy "acceptedAuthorityRoot") (read policy "trusted_root_authority")
  let allowedClaimScopes := or (read policy "allowedClaimScopes") (or (read policy "allowedClaims")
    (or (read policy "allowed_claim_scopes") (some (.arr []))))
  let hasScopes := match allowedClaimScopes with
    | some (.arr xs) => !xs.isEmpty
    | _ => false
  let codes :=
    (if trustedRealmId = "" ∨ trustedRealmId ≠ remoteRealmId then
        ["FEDERATION_POLICY_REALM_DENIED"] else [])
      ++ (if truthy acceptedAuthorityRoot
          && !rootMatches (read evidence "rootAuthority") acceptedAuthorityRoot then
        ["FEDERATION_POLICY_ROOT_MISMATCH"] else [])
      ++ (if hasScopes then [] else ["FEDERATION_POLICY_SCOPE_REQUIRED"])
  if codes ≠ [] then return .obj (refusal codes)
  else return .obj [("ok", .bool true), ("decision", .obj [
    ("remoteRealmId", .str remoteRealmId),
    ("trustedRootAuthority", rootAuthorityRef (read evidence "rootAuthority")),
    ("allowedClaimScopes", allowedClaimScopes.getD (.arr [])),
    ("trustScope", orElse (read policy "trustScope") (orElse (read policy "trust_scope") (.str "claims"))),
    ("policyId", orNull (or (read policy "policyId") (read policy "policy_id"))),
    ("remoteEventHead", orNull (read evidence "eventHead"))])]

/-- `evidence` and `decision` are the ones the two results before carry. -/
def createFederationTrustProposal (now : String) (localRootAuthority evidence decision : Option Json)
    (sequence timestamp : Option Json) : JsM Json := do
  let root := rootAuthorityRef localRootAuthority
  let signer ← if root.truthy then pure root else .str <$> strOrEmpty localRootAuthority
  let nextSequence ← toNumber sequence
  if !nextSequence.isInteger || nextSequence.ltOne then throw (.error "FEDERATION_SEQUENCE_INVALID")
  return .obj [("envelope", .obj [("type", .str "FEDERATION_TRUST_ESTABLISHED"), ("signer", signer),
      ("authority_reference", signer), ("sequence", .num nextSequence),
      ("timestamp", timestamp.getD (.str now))]),
    ("payload", .obj (Fields.ofOptions [
      ("remote_realm_id", or (read decision "remoteRealmId") (read evidence "realmId")),
      ("trusted_root_authority", or (read decision "trustedRootAuthority")
        (some (rootAuthorityRef (read evidence "rootAuthority")))),
      ("allowed_claim_scopes", or (read decision "allowedClaimScopes") (some (.arr []))),
      ("trust_scope", or (read decision "trustScope") (some (.str "claims"))),
      ("policy_id", or (read decision "policyId") (some .null)),
      ("remote_event_head",
        or (read decision "remoteEventHead") (or (read evidence "eventHead") (some .null)))]))]

/-! ## The four runtimes -/

/-- What a command runs in: the callback, and the ledger as the runtime can see it. -/
structure Context (σ : Type) where
  host : Host
  acceptRealmEvent : Json → EStateM Error σ (Option Json)
  /-- `none` where the context has no ledger. -/
  ledger : σ → Option Ledger

section
variable {σ : Type} (context : Context σ) (now : String)

/-- What `recognizeRemoteRealm` does before it reaches the callback. -/
inductive Recognition where
  | refused (result : Json)
  | proposed (proposal remoteVerification policyEvaluation : Json)

def prepareRecognition (host : Host) (input : Json) : JsM Recognition := do
  let verification ← verifyRemoteRealm host (input.prop "remoteRealm")
  let remoteVerification := verificationJson verification
  if !truthy (remoteVerification.prop "ok") then return .refused remoteVerification
  let evidence := or (remoteVerification.prop "evidence") (some remoteVerification)
  let policyEvaluation ← evaluateFederationPolicy (input.prop "localPolicy") evidence
  if !truthy (policyEvaluation.prop "ok") then return .refused policyEvaluation
  let decision := or (policyEvaluation.prop "decision") (some policyEvaluation)
  let proposal ← createFederationTrustProposal now (input.prop "localRootAuthority") evidence decision
    (input.prop "sequence") (input.prop "timestamp")
  return .proposed proposal remoteVerification policyEvaluation

def recognizeRemoteRealm (input : Json) : EStateM Error σ Json := do
  match ← liftM (prepareRecognition now context.host input) with
  | .refused result => return result
  | .proposed proposal remoteVerification policyEvaluation =>
    let accepted ← context.acceptRealmEvent proposal
    let ok ← member accepted "ok"
    let outcome : List (String × Option Json) :=
      if truthy ok then [("ok", some (.bool true)), ("event", read accepted "event")]
      else [("ok", some (.bool false)),
        ("reason_codes", or (read accepted "reason_codes") (some (.arr [])))]
    return .obj (Fields.ofOptions (outcome ++ [("proposal", some proposal),
      ("remoteVerification", some remoteVerification), ("policyEvaluation", some policyEvaluation)]))

/-- `submitDeviceEvent`; a context without a ledger is refused by `requireLedger`. -/
def submitDeviceEvent (signedProposal : Json) : EStateM Error σ (Option Json) := do
  match context.ledger (← get) with
  | none => throw (.error "ledger context is required")
  | some ledger =>
    match ← liftM (verifyDeviceSignature context.host now ledger signedProposal) with
    | .refused codes n => return some (validationJson (.rejected codes n))
    | .verified n _ => context.acceptRealmEvent n.toJson

def ceremonyJson : CeremonyResult → Json
  | .stopped failedProposal reason_codes acceptedEvents proposals =>
    .obj [("ok", .bool false), ("failedProposal", failedProposal), ("reason_codes", reason_codes),
      ("acceptedEvents", .arr (acceptedEvents.map (·.getD .null))), ("proposals", .arr proposals)]
  | .executed acceptedEvents proposals =>
    .obj [("ok", .bool true), ("acceptedEvents", .arr (acceptedEvents.map (·.getD .null))),
      ("proposals", .arr proposals)]

/-- The normalised command, as an object, has the fields its intent has. -/
def unsupported (command : NormalizedCommand) : Json :=
  .obj (refusal ["REALM_COMMAND_TYPE_UNSUPPORTED"] ++ [("command", command.intent)])

def executeRealmCommand (command : Option Json) : EStateM Error σ (Option Json) := do
  let normalized ← normalizeRealmCommand command
  if normalized.type = "EXECUTE_RECOVERY_CEREMONY" then
    (fun result => some (ceremonyJson result)) <$>
      executeRecoveryCeremony context.acceptRealmEvent now (some normalized.payload)
  else if normalized.type = "SUBMIT_DEVICE_EVENT" then
    submitDeviceEvent context now (signedDeviceSubmission normalized)
  else if normalized.type = "RECOGNIZE_REMOTE_REALM" then
    some <$> recognizeRemoteRealm context now normalized.payload
  else if normalized.type = "SUBMIT_REALM_EVENT" then
    context.acceptRealmEvent (submittedRealmProposal normalized)
  else return some (unsupported normalized)

end

/-! ## The execution store -/

structure CommandRecord where
  command_id : String
  intent_fingerprint : String
  execution_result : Option Json
  accepted_event_ids : List Json

/-- The records by command id. -/
abbrev ExecutionStore := List (String × CommandRecord)

/-- `event?.id || event?.event_id || null`. -/
def eventId (event : Option Json) : Json := orNull (or (read event "id") (read event "event_id"))

/-- `result.acceptedEvents` and `result.event`, in this order and without repeating an id. -/
def eventIdsOf (result : Json) : List Json :=
  let ids := match result.prop "acceptedEvents" with
    | some (.arr events) => (events.map fun event => eventId (some event)).filter Json.truthy
    | _ => []
  let id := eventId (result.prop "event")
  if id.truthy && !ids.any (fun known => strictEq (some known) (some id)) then ids ++ [id] else ids

def collectAcceptedEventIds (result : Option Json) : JsM (List Json) :=
  match result with
  | none => return []
  | some .null => throw (.typeError "Cannot read properties of null (reading 'acceptedEvents')")
  | some result => return eventIdsOf result

/-- The result of `executeCommand`: another result with the metadata attached, or the refusal
`COMMAND_ID_INTENT_MISMATCH`. -/
inductive CommandResult where
  | attached (result : Option Json) (command_id : Option String) (accepted_event_ids : List Json)
      (idempotent_replay : Bool)
  | mismatch (command_id : String)

namespace CommandResult

def accepted_event_ids : CommandResult → List Json
  | attached _ _ ids _ => ids
  | mismatch _ => []

def idempotent_replay : CommandResult → Bool
  | attached _ _ _ replay => replay
  | mismatch _ => false

/-- The object that is returned. -/
def toJson : CommandResult → Json
  | attached result command_id ids replay =>
    .obj ((((spread result).set "command_id" ((command_id.map Json.str).getD .null)).set
      "accepted_event_ids" (.arr ids)).set "idempotent_replay" (.bool replay))
  | mismatch command_id =>
    .obj (refusal ["COMMAND_ID_INTENT_MISMATCH"] ++ [("command_id", .str command_id),
      ("accepted_event_ids", .arr []), ("idempotent_replay", .bool false)])

/-- The object shows the ids and the flag. -/
theorem prop_toJson (result : CommandResult) :
    result.toJson.prop "accepted_event_ids" = some (.arr result.accepted_event_ids)
      ∧ result.toJson.prop "idempotent_replay" = some (.bool result.idempotent_replay) := by
  cases result with
  | attached result id ids replay =>
    simp [toJson, accepted_event_ids, idempotent_replay, Fields.get_set]
  | mismatch id => exact ⟨rfl, rfl⟩

end CommandResult

/-- `String(command?.command_id || '').trim()`. -/
def commandId (command : Option Json) : JsM String := trim <$> strOrEmpty (read command "command_id")

section
variable {σ : Type}

/-- A computation beside the store, which it does not touch. -/
def besideStore {α : Type} (m : EStateM Error σ α) : EStateM Error (σ × ExecutionStore) α :=
  fun (world, store) =>
    match m world with
    | .ok a world => .ok a (world, store)
    | .error e world => .error e (world, store)

variable (context : Context σ) (now : String)

def executeCommand (command : Option Json) : EStateM Error (σ × ExecutionStore) CommandResult := do
  let commandId ← commandId command
  if commandId = "" then
    let result ← besideStore (executeRealmCommand context now command)
    let acceptedEventIds ← collectAcceptedEventIds result
    return .attached result none acceptedEventIds false
  else
    let intentFingerprint ← commandIntentFingerprint context.host command
    match Assoc.find commandId (← get).2 with
    | some existing =>
      if existing.intent_fingerprint ≠ intentFingerprint then return .mismatch commandId
      else return .attached existing.execution_result (some commandId) existing.accepted_event_ids true
    | none =>
      let executionResult ← besideStore (executeRealmCommand context now command)
      let acceptedEventIds ← collectAcceptedEventIds executionResult
      modify fun (world, store) => (world, Assoc.insert commandId
        ⟨commandId, intentFingerprint, executionResult, acceptedEventIds⟩ store)
      return .attached executionResult (some commandId) acceptedEventIds false

end

end SimpleL1.Realm.Commands
