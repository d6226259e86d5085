import SimpleL1.Realm.Pipeline

/-!
# Command execution

`executeCommand` runs a command once for its id: the result goes into the
execution store with a fingerprint of what the command intends, and a command
with the same id gets the stored result back, or a mismatch when it intends
something else. The commands here are the ones the replication transport builds,
all of type `SUBMIT_REALM_EVENT`: they hand their proposal to
`acceptAndApplyRealmEvent`.
-/

namespace SimpleL1.Realm

open SimpleL1.Js

/-- A command in the form `normalizeRealmCommand` gives it. -/
structure Command where
  command_id : String
  payload : Json
  actor : Json
  evidence : Json

/-- What the fingerprint covers. -/
def Command.intent (command : Command) : Json :=
  .obj [("type", .str "SUBMIT_REALM_EVENT"), ("payload", command.payload),
    ("actor", command.actor), ("evidence", command.evidence)]

def commandIntentFingerprint (host : Host) (command : Command) : String :=
  host.sha256 (canonicalEncode command.intent)

/-- `payload.proposal || payload`. -/
def submittedRealmProposal (command : Command) : Json :=
  (or (command.payload.prop "proposal") (some command.payload)).getD .null

def executeRealmCommand (host : Host) (clock : Clock) (ledger : Ledger) (command : Command) :
    JsM Validation × Ledger :=
  acceptAndApplyRealmEvent host clock ledger (submittedRealmProposal command)

/-! ## The execution store -/

structure CommandRecord where
  command_id : String
  intent_fingerprint : String
  execution_result : Validation
  accepted_event_ids : List Json

/-- The records by command id, the latest first. -/
abbrev CommandExecutionStore := List (String × CommandRecord)

namespace CommandExecutionStore

def get (store : CommandExecutionStore) (commandId : String) : Option CommandRecord :=
  store.lookup commandId

def set (store : CommandExecutionStore) (commandId : String) (record : CommandRecord) :
    CommandExecutionStore := (commandId, record) :: store

def has (store : CommandExecutionStore) (commandId : String) : Bool := (get store commandId).isSome

theorem get_set (store : CommandExecutionStore) (id id' : String) (record : CommandRecord) :
    get (set store id record) id' = if id' = id then some record else get store id' := by
  unfold get set
  rw [List.lookup_cons]
  by_cases h : id' = id
  · simp [h]
  · have hne : (id' == id) = false := beq_false_of_ne h
    simp [hne, h]

end CommandExecutionStore

/-! ## Results -/

inductive CommandOutcome where
  | validated (result : Validation)
  | intentMismatch

structure CommandResult where
  outcome : CommandOutcome
  command_id : Option String
  accepted_event_ids : List Json
  idempotent_replay : Bool

namespace CommandResult

def ok (result : CommandResult) : Bool :=
  match result.outcome with
  | .validated v => v.ok
  | .intentMismatch => false

/-- `result.reason_codes || []`. -/
def reason_codes (result : CommandResult) : List String :=
  match result.outcome with
  | .validated (.rejected codes _) => codes
  | .validated (.accepted ..) => []
  | .intentMismatch => ["COMMAND_ID_INTENT_MISMATCH"]

end CommandResult

/-- The id of an accepted event: `event.id || event.event_id`, when truthy. -/
def collectAcceptedEventIds : Validation → List Json
  | .rejected .. => []
  | .accepted event _ =>
    match or (event.prop "id") (event.prop "event_id") with
    | some id => if id.truthy then [id] else []
    | none => []

def executeCommand (host : Host) (clock : Clock) (ledger : Ledger) (store : CommandExecutionStore)
    (command : Command) : JsM CommandResult × Ledger × CommandExecutionStore :=
  let commandId := trim command.command_id
  if commandId = "" then
    match executeRealmCommand host clock ledger command with
    | (.error e, ledger) => (.error e, ledger, store)
    | (.ok result, ledger) =>
      (.ok ⟨.validated result, none, collectAcceptedEventIds result, false⟩, ledger, store)
  else
    match store.get commandId with
    | some existing =>
      if existing.intent_fingerprint ≠ commandIntentFingerprint host command then
        (.ok ⟨.intentMismatch, some commandId, [], false⟩, ledger, store)
      else
        (.ok ⟨.validated existing.execution_result, some commandId, existing.accepted_event_ids, true⟩,
          ledger, store)
    | none =>
      match executeRealmCommand host clock ledger command with
      | (.error e, ledger) => (.error e, ledger, store)
      | (.ok result, ledger) =>
        let ids := collectAcceptedEventIds result
        (.ok ⟨.validated result, some commandId, ids, false⟩, ledger,
          store.set commandId ⟨commandId, commandIntentFingerprint host command, result, ids⟩)

/-- What one execution can do: run the command, and record it under a trimmed id if it has one; or
answer from a record and change nothing. -/
inductive Executes (host : Host) (clock : Clock) (ledger : Ledger) (store : CommandExecutionStore)
    (command : Command) : JsM CommandResult → Ledger → CommandExecutionStore → Prop where
  | threw {e : Error} {ledger' : Ledger} :
      executeRealmCommand host clock ledger command = (.error e, ledger') →
      Executes host clock ledger store command (.error e) ledger' store
  | unnamed {v : Validation} {ledger' : Ledger} {ids : List Json} :
      executeRealmCommand host clock ledger command = (.ok v, ledger') →
      Executes host clock ledger store command (.ok ⟨.validated v, none, ids, false⟩) ledger' store
  | ran {v : Validation} {ledger' : Ledger} {ids : List Json} {id : String} :
      trim id = id → id ≠ "" →
      executeRealmCommand host clock ledger command = (.ok v, ledger') →
      Executes host clock ledger store command (.ok ⟨.validated v, some id, ids, false⟩) ledger'
        (store.set id ⟨id, commandIntentFingerprint host command, v, ids⟩)
  | mismatch {id : String} :
      Executes host clock ledger store command (.ok ⟨.intentMismatch, some id, [], false⟩) ledger store
  | cached {id : String} {record : CommandRecord} : store.get id = some record →
      record.intent_fingerprint = commandIntentFingerprint host command →
      Executes host clock ledger store command
        (.ok ⟨.validated record.execution_result, some id, record.accepted_event_ids, true⟩) ledger store

theorem executeCommand_executes (host : Host) (clock : Clock) (ledger : Ledger)
    (store : CommandExecutionStore) (command : Command) :
    ∃ result ledger' store', executeCommand host clock ledger store command = (result, ledger', store')
      ∧ Executes host clock ledger store command result ledger' store' := by
  unfold executeCommand
  cases hrun : executeRealmCommand host clock ledger command with
  | mk result ledger' =>
  by_cases hid : trim command.command_id = ""
  · simp only [hid, if_true]
    cases result with
    | error e => exact ⟨_, _, _, rfl, .threw hrun⟩
    | ok v => exact ⟨_, _, _, rfl, .unnamed hrun⟩
  · simp only [hid, if_false]
    cases hget : store.get (trim command.command_id) with
    | some existing =>
      by_cases hfp : existing.intent_fingerprint = commandIntentFingerprint host command
      · simp only [hfp, ne_eq, not_true, if_false]
        exact ⟨_, _, _, rfl, .cached hget hfp⟩
      · simp only [hfp, ne_eq, not_false_iff, if_true]
        exact ⟨_, _, _, rfl, .mismatch⟩
    | none =>
      cases result with
      | error e => exact ⟨_, _, _, rfl, .threw hrun⟩
      | ok v => exact ⟨_, _, _, rfl, .ran (trim_trim _) hid hrun⟩

/-- A command with a record under its own id changes nothing. -/
theorem executeCommand_of_has (host : Host) (clock : Clock) (ledger : Ledger)
    {store : CommandExecutionStore} {command : Command} {record : CommandRecord}
    (hget : store.get command.command_id = some record)
    (htrim : trim command.command_id = command.command_id) (hne : command.command_id ≠ "") :
    ∃ result, executeCommand host clock ledger store command = (.ok result, ledger, store) := by
  unfold executeCommand
  simp only [htrim, hne, if_false, hget]
  split
  · exact ⟨_, rfl⟩
  · exact ⟨_, rfl⟩

end SimpleL1.Realm
