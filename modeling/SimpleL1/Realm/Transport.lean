import SimpleL1.Realm.Execution

/-!
# The replication transport

A batch is arbitrary JSON. `receiveEventBatch` checks that its events chain up
from the local head to the head it names, by the hashes of the events as sent,
and submits them one by one; a batch that does not fit is answered from the
execution store when all of its commands are there. The callback that accepts an
event is `acceptAndApplyRealmEvent` on the local ledger.
-/

namespace SimpleL1.Realm

open SimpleL1.Js

/-! ## Reading a batch -/

def forbiddenStateImport (batch : Json) : Bool :=
  truthy (batch.prop "current_authority_state") || truthy (batch.prop "currentAuthorityState")
    || truthy (batch.prop "CurrentAuthorityState")

structure TransportBatchError where
  code : String
  details : Fields := []

/-- `batch.previous_event_hash ?? batch.previous_hash ?? null`. -/
def batchPreviousHash (batch : Json) : Json :=
  (nullish (batch.prop "previous_event_hash") (nullish (batch.prop "previous_hash")
    (some .null))).getD .null

/-- `batch.head_hash ?? batch.current_event_hash ?? null`. -/
def batchHeadHash (batch : Json) : Json :=
  (nullish (batch.prop "head_hash") (nullish (batch.prop "current_event_hash")
    (some .null))).getD .null

/-- `event.sequence ?? event.envelope?.sequence`. -/
def transportSequence (event : Json) : Option Json :=
  nullish (event.prop "sequence") ((event.prop "envelope").bind (·.prop "sequence"))

def nullPropertyError (property : String) : Error :=
  .typeError ("Cannot read properties of null (reading '" ++ property ++ "')")

/-! ## Verification -/

/-- The loop, from a given expected hash; it ends with the head hash. -/
def verifyTransportEventSegment (host : Host) :
    Json → List Json → JsM (Except TransportBatchError Json)
  | expectedPreviousHash, [] => return .ok expectedPreviousHash
  | _, .null :: _ => throw (nullPropertyError "previous_event_hash")
  | expectedPreviousHash, event :: events => do
    if !strictEq (event.prop "previous_event_hash") (some expectedPreviousHash) then
      return .error ⟨"TRANSPORT_HISTORY_GAP",
        Fields.ofOptions [("expected_previous_event_hash", some expectedPreviousHash),
          ("received_previous_event_hash", event.prop "previous_event_hash")]⟩
    else
      let recalculatedHash ← calculateRealmEventHash host event expectedPreviousHash
      if !strictEq (event.prop "current_event_hash") (some (.str recalculatedHash)) then
        return .error ⟨"TRANSPORT_EVENT_HASH_MISMATCH",
          Fields.ofOptions [("sequence", transportSequence event)]⟩
      else
        let expectedEventId ← buildRealmEventId event recalculatedHash
        if !strictEq (event.prop "event_id") (some (.str expectedEventId))
            || !strictEq (event.prop "id") (some (.str expectedEventId)) then
          return .error ⟨"TRANSPORT_EVENT_ID_MISMATCH",
            Fields.ofOptions [("sequence", transportSequence event)]⟩
        else verifyTransportEventSegment host (.str recalculatedHash) events

structure TransportVerification where
  event_count : Nat
  head_hash : Json
  previous_event_hash : Json

def verifyTransportEnvelope (host : Host) (batch : Json) (eventLog : List Json) :
    JsM (Except TransportBatchError TransportVerification) := do
  if !batch.isObject then return .error ⟨"TRANSPORT_ENVELOPE_INVALID", []⟩
  else if forbiddenStateImport batch then return .error ⟨"TRANSPORT_STATE_IMPORT_FORBIDDEN", []⟩
  else
    match batch.prop "events" with
    | some (.arr events) =>
      let localHead ← latestRealmEventHash eventLog
      let previousEventHash := batchPreviousHash batch
      if !strictEq (some previousEventHash) (some localHead) then
        return .error ⟨"TRANSPORT_HISTORY_GAP",
          [("local_head", localHead), ("batch_previous_event_hash", previousEventHash)]⟩
      else
        match ← verifyTransportEventSegment host previousEventHash events with
        | .error segment => return .error segment
        | .ok headHash =>
          if !strictEq (some (batchHeadHash batch)) (some headHash) then
            return .error ⟨"TRANSPORT_HEAD_HASH_MISMATCH",
              [("expected_head_hash", headHash), ("batch_head_hash", batchHeadHash batch)]⟩
          else return .ok ⟨events.length, headHash, previousEventHash⟩
    | _ => return .error ⟨"TRANSPORT_EVENTS_REQUIRED", []⟩

/-! ## Commands -/

def transportCommandId (batch event : Json) (index : Nat) : JsM String := do
  if let .null := event then throw (nullPropertyError "event_id")
  let pre ← toStr (or (batch.prop "command_id") (or (batch.prop "command_id_prefix")
    (or (batch.prop "delivery_id") (or (batch.prop "transport_id") (or (batch.prop "batch_id")
      (or (some (batchHeadHash batch)) (some (.str "transport_batch"))))))))
  let eventRef ← toStr (or (event.prop "event_id") (or (event.prop "id")
    (or (event.prop "current_event_hash") (some (.str ("event_" ++ Nat.repr index))))))
  return "transport:" ++ pre ++ ":" ++ eventRef

def eventCommand (batch event : Json) (index : Nat) : JsM Command := do
  let commandId ← transportCommandId batch event index
  return {
    command_id := commandId
    payload := .obj [("proposal", event)]
    actor := .obj (Fields.ofOptions [("transport", or (batch.prop "transport")
      (or (batch.prop "remote_realm_id") (or (batch.prop "source")
        (some (.str "realm_replication_transport")))))])
    evidence := .obj [("batch_head_hash", batchHeadHash batch),
      ("batch_previous_event_hash", batchPreviousHash batch),
      ("delivery_id", orNull (batch.prop "delivery_id")),
      ("remote_realm_id", orNull (batch.prop "remote_realm_id"))] }

/-- `(batch.events || [])`, which must be an array to be mapped over. -/
def batchEvents (batch : Json) : JsM (List Json) :=
  match batch.prop "events" with
  | some (.arr events) => .ok events
  | events =>
    if truthy events then throw (.typeError "(batch.events || []).map is not a function") else .ok []

/-- The commands of the events, the first of them at position `index`. -/
def eventCommands (batch : Json) : Nat → List Json → JsM (List Command)
  | _, [] => return []
  | index, event :: events => do
    let command ← eventCommand batch event index
    let commands ← eventCommands batch (index + 1) events
    return command :: commands

def batchCommands (batch : Json) : JsM (List Command) := do
  let events ← batchEvents batch
  eventCommands batch 0 events

/-! ## Receiving -/

/-- The local ledger and the execution store of the options, if one is given. -/
structure Receiver where
  ledger : Ledger
  executionStore : Option CommandExecutionStore

/-- `executeCommand` in the receiver's context; without a store each command gets one of its own. -/
def executeIn (host : Host) (clock : Clock) (r : Receiver) (command : Command) :
    JsM CommandResult × Receiver :=
  let (result, ledger, store) :=
    executeCommand host clock r.ledger (r.executionStore.getD []) command
  (result, ⟨ledger, r.executionStore.map fun _ => store⟩)

/-- `commands.map(executeCommand)`; `clocks i` is the clock at the `i`-th event. -/
def executeEach (host : Host) (clocks : Nat → Clock) : Nat → Receiver → List Command →
    JsM (List CommandResult) × Receiver
  | _, r, [] => (.ok [], r)
  | i, r, command :: commands =>
    match executeIn host (clocks i) r command with
    | (.error e, r) => (.error e, r)
    | (.ok result, r) =>
      match executeEach host clocks (i + 1) r commands with
      | (.error e, r) => (.error e, r)
      | (.ok results, r) => (.ok (result :: results), r)

/-- The loop that stops at the first result that is not ok: the results, and whether it got through. -/
def executeUntilFailure (host : Host) (clocks : Nat → Clock) : Nat → Receiver → List Command →
    JsM (List CommandResult × Bool) × Receiver
  | _, r, [] => (.ok ([], true), r)
  | i, r, command :: commands =>
    match executeIn host (clocks i) r command with
    | (.error e, r) => (.error e, r)
    | (.ok result, r) =>
      if !result.ok then (.ok ([result], false), r)
      else
        match executeUntilFailure host clocks (i + 1) r commands with
        | (.error e, r) => (.error e, r)
        | (.ok (results, through), r) => (.ok (result :: results, through), r)

inductive BatchResult where
  /-- The batch is not taken. -/
  | refused (error : TransportBatchError)
  /-- A command id was used before for something else. -/
  | mismatch (result : CommandResult)
  /-- Every command was answered from the store (`idempotent_replay: true`). -/
  | replayed (command_results : List CommandResult)
  /-- The last of the results is not ok. -/
  | failed (command_results : List CommandResult)
  /-- Every command ran and is ok (`idempotent_replay: false`). -/
  | received (verification : TransportVerification) (command_results : List CommandResult)

namespace BatchResult

def ok : BatchResult → Bool
  | refused _ | mismatch _ | failed _ => false
  | replayed results => results.all CommandResult.ok
  | received .. => true

def accepted_event_ids : BatchResult → List Json
  | refused _ => []
  | mismatch result => result.accepted_event_ids
  | replayed results | failed results | received _ results =>
    results.flatMap CommandResult.accepted_event_ids

def reason_codes : BatchResult → List String
  | refused error => [error.code]
  | mismatch result => result.reason_codes
  | failed results => (results.getLast?.map CommandResult.reason_codes).getD []
  | replayed _ | received .. => []

end BatchResult

/-- The answer from the execution store, if it has all the commands of the batch. -/
def cachedBatchReplay (host : Host) (clocks : Nat → Clock) (r : Receiver) (batch : Json) :
    JsM (Option BatchResult) × Receiver :=
  match r.executionStore with
  | none => (.ok none, r)
  | some store =>
    match batchCommands batch with
    | .error e => (.error e, r)
    | .ok commands =>
      if commands.isEmpty || !commands.all fun command => store.has command.command_id then
        (.ok none, r)
      else
        match executeEach host clocks 0 r commands with
        | (.error e, r) => (.error e, r)
        | (.ok results, r) =>
          match results.find? fun result =>
              result.reason_codes.contains "COMMAND_ID_INTENT_MISMATCH" with
          | some mismatch => (.ok (some (.mismatch mismatch)), r)
          | none =>
            if results.all CommandResult.idempotent_replay then (.ok (some (.replayed results)), r)
            else (.ok none, r)

def receiveEventBatch (host : Host) (clocks : Nat → Clock) (r : Receiver) (batch : Json) :
    JsM BatchResult × Receiver :=
  if let .null := batch then (.error (nullPropertyError "current_authority_state"), r)
  else if forbiddenStateImport batch then
    (.ok (.refused ⟨"TRANSPORT_STATE_IMPORT_FORBIDDEN", []⟩), r)
  else
    match verifyTransportEnvelope host batch r.ledger.event_log with
    | .error e => (.error e, r)
    | .ok (.error error) =>
      match cachedBatchReplay host clocks r batch with
      | (.error e, r) => (.error e, r)
      | (.ok (some replay), r) => (.ok replay, r)
      | (.ok none, r) => (.ok (.refused error), r)
    | .ok (.ok verification) =>
      match batchCommands batch with
      | .error e => (.error e, r)
      | .ok commands =>
        match executeUntilFailure host clocks 0 r commands with
        | (.error e, r) => (.error e, r)
        | (.ok (results, true), r) => (.ok (.received verification results), r)
        | (.ok (results, false), r) => (.ok (.failed results), r)

end SimpleL1.Realm
