import SimpleL1.Realm.Activation
import SimpleL1.Realm.Backup
import SimpleL1.Realm.Idempotence

/-!
# The surfaces of a realm

Commands come in through the API and through the admin surface. A request is refused, reads the
ledger, or is built into one command, which is executed on the store both surfaces share. So
whatever comes in through either of them, what was executed under an id is not executed again.
-/

namespace SimpleL1.Realm.Commands.Surfaces

open SimpleL1.Js SimpleL1.Node SimpleL1.Lib SimpleL1.Lib.Effect

/-! ## Responses -/

/-- What both surfaces tell of an execution. -/
structure Execution where
  ok : Bool
  status : String
  accepted_event_ids : Json
  reason_codes : Json
  idempotent_replay : Bool

def executionStatus (executionResult : Json) : String :=
  if strictEq (executionResult.prop "ok") (some (.bool true)) then
    if truthy (executionResult.prop "idempotent_replay") then "already_executed" else "accepted"
  else "rejected"

def Execution.of (executionResult : Json) : Execution where
  ok := strictEq (executionResult.prop "ok") (some (.bool true))
  status := executionStatus executionResult
  accepted_event_ids := orElse (executionResult.prop "accepted_event_ids") (.arr [])
  reason_codes := orElse (executionResult.prop "reason_codes") (.arr [])
  idempotent_replay := strictEq (executionResult.prop "idempotent_replay") (some (.bool true))

/-! ## The API -/

def ROUTE_COMMAND_TYPES : List (String × String) :=
  [("POST /realm/events/submit", "SUBMIT_REALM_EVENT"),
    ("POST /realm/device-events/submit", "SUBMIT_DEVICE_EVENT"),
    ("POST /realm/recovery/execute", "EXECUTE_RECOVERY_CEREMONY"),
    ("POST /realm/federation/recognize", "RECOGNIZE_REMOTE_REALM")]

/-- The text of what every object inherits under this name. -/
def inheritedText (name : String) : String :=
  if name = "__proto__" then "[object Object]"
  else "function " ++ (if name = "constructor" then "Object" else name) ++ "() \x7b [native code] \x7d"

/-- `ROUTE_COMMAND_TYPES[route]` as the text that becomes of it. -/
def routeCommandType (route : String) : Option String :=
  (ROUTE_COMMAND_TYPES.lookup route).or
    (if route ∈ objectPrototypeKeys then some (inheritedText route) else none)

inductive ApiRefusal where
  | routeRequired
  | routeUnsupported (route : String)
  | requestInvalid
  | commandIdRequired

def ApiRefusal.code : ApiRefusal → String
  | routeRequired => "API_ROUTE_REQUIRED"
  | routeUnsupported _ => "API_ROUTE_UNSUPPORTED"
  | requestInvalid => "API_REQUEST_INVALID"
  | commandIdRequired => "API_COMMAND_ID_REQUIRED"

def ApiRefusal.toJson (r : ApiRefusal) : Json :=
  .obj (refusal [r.code] ++ match r with
    | routeUnsupported route => [("route", .str route)]
    | _ => [])

def normalizeApiBody (body : Option Json) : Option Json :=
  match body with
  | none | some .null => some (.obj [])
  | some (.obj fs) => some (.obj fs)
  | some _ => none

/-- A request that passed, with the type its route stands for and its trimmed id. -/
structure ValidApiRequest where
  route : String
  commandType : String
  commandId : String
  body : Json

def validateApiRequest (route body : Option Json) : JsM (Except ApiRefusal ValidApiRequest) :=
  match route with
  | some (.str route) =>
    if route = "" then return .error .routeRequired
    else match routeCommandType route with
      | none => return .error (.routeUnsupported route)
      | some commandType =>
        match normalizeApiBody body with
        | none => return .error .requestInvalid
        | some body => do
          let commandId := trim (← strOrEmpty (body.prop "command_id"))
          if commandId = "" then return .error .commandIdRequired
          else return .ok ⟨route, commandType, commandId, body⟩
  | _ => return .error .routeRequired

/-- What the surroundings of a request add to it. -/
structure RequestContext where
  actor : Option Json := none
  evidence : Option Json := none
  session : Option Json := none
  request_id : Option Json := none

/-- `{ ...(v && typeof v === 'object' ? v : {}) }`. -/
def objectFields (v : Option Json) : Fields := (objectOrEmpty v).spread

def buildCommand (request : ValidApiRequest) (context : RequestContext) : Json :=
  let session := orNull (or (request.body.prop "session") context.session)
  let request_id := orNull (or (request.body.prop "request_id") context.request_id)
  let actor := merge (objectFields context.actor) (objectFields (request.body.prop "actor"))
  let evidence := merge (objectFields context.evidence) (objectFields (request.body.prop "evidence"))
  .obj [("command_id", .str request.commandId), ("type", .str request.commandType),
    ("payload", objectOrEmpty (request.body.prop "payload")),
    ("actor", .obj (actor.set "session" session)),
    ("evidence", .obj
      (((evidence.set "request_id" request_id).set "route" (.str request.route)).set "session" session))]

structure ApiResponse extends Execution where
  command_id : Json
  representation : Option Json

def serializeExecutionResponse (executionResult : Json) (representation : Option Json) : ApiResponse where
  toExecution := .of executionResult
  command_id := orNull (executionResult.prop "command_id")
  representation := representation.map Json.written

/-- Where commands are executed, and how what the ledger shows is read. -/
structure Surface (σ : Type) extends Context σ where
  readRepresentation : Option (σ → JsM (Option Json)) := none
  integrityOptions : IntegrityOptions := {}
  backupOptions : Json := .obj []
  realm_id : Option Json := none

section
variable {σ : Type} (surface : Surface σ) (now : String)

def readRepresentation : EStateM Error (σ × ExecutionStore) (Option Json) :=
  match surface.readRepresentation with
  | none => return none
  | some read => reading fun (world, _) => read world

def handleApiRequest (route body : Option Json) (context : RequestContext) :
    EStateM Error (σ × ExecutionStore) ApiResponse := do
  match ← liftM (validateApiRequest route body) with
  | .error refusal => return serializeExecutionResponse refusal.toJson none
  | .ok request =>
    let executionResult ← executeCommand surface.toContext now (some (buildCommand request context))
    let representation ← readRepresentation surface
    return serializeExecutionResponse executionResult.toJson representation

end

/-! ## The admin surface -/

inductive ReadAdminAction where
  | CREATE_BACKUP
  | EXPLAIN_REALM_STATE
  | INSPECT_EVENT_HISTORY
  | RUN_INTEGRITY_CHECK

inductive MutatingAdminAction where
  | EXECUTE_RECOVERY
  | RECOGNIZE_REALM
  | ROTATE_AUTHORITY
  | SUBMIT_DEVICE_EVENT

def READ_ADMIN_ACTIONS : List (String × ReadAdminAction) :=
  [("CREATE_BACKUP", .CREATE_BACKUP), ("EXPLAIN_REALM_STATE", .EXPLAIN_REALM_STATE),
    ("INSPECT_EVENT_HISTORY", .INSPECT_EVENT_HISTORY), ("RUN_INTEGRITY_CHECK", .RUN_INTEGRITY_CHECK)]

def MUTATING_ADMIN_ACTIONS : List (String × MutatingAdminAction) :=
  [("EXECUTE_RECOVERY", .EXECUTE_RECOVERY), ("RECOGNIZE_REALM", .RECOGNIZE_REALM),
    ("ROTATE_AUTHORITY", .ROTATE_AUTHORITY), ("SUBMIT_DEVICE_EVENT", .SUBMIT_DEVICE_EVENT)]

def ADMIN_ACTION_COMMAND_TYPES : MutatingAdminAction → String
  | .EXECUTE_RECOVERY => "EXECUTE_RECOVERY_CEREMONY"
  | .RECOGNIZE_REALM => "RECOGNIZE_REMOTE_REALM"
  | .ROTATE_AUTHORITY => "SUBMIT_REALM_EVENT"
  | .SUBMIT_DEVICE_EVENT => "SUBMIT_DEVICE_EVENT"

inductive AdminAction where
  | read (action : ReadAdminAction)
  | mutate (action : MutatingAdminAction)

def adminAction (requestedAction : String) : Option AdminAction :=
  ((READ_ADMIN_ACTIONS.lookup requestedAction).map .read).or
    ((MUTATING_ADMIN_ACTIONS.lookup requestedAction).map .mutate)

inductive AdminRefusal where
  | requestInvalid
  | commandIdRequired
  | requestedActionRequired
  | actionUnsupported (requested_action : String)
  | ledgerRequired

def AdminRefusal.code : AdminRefusal → String
  | requestInvalid => "ADMIN_REQUEST_INVALID"
  | commandIdRequired => "ADMIN_COMMAND_ID_REQUIRED"
  | requestedActionRequired => "ADMIN_REQUESTED_ACTION_REQUIRED"
  | actionUnsupported _ => "ADMIN_ACTION_UNSUPPORTED"
  | ledgerRequired => "ADMIN_LEDGER_REQUIRED"

def AdminRefusal.toJson (r : AdminRefusal) : Json :=
  .obj (refusal [r.code] ++ match r with
    | actionUnsupported requested_action => [("requested_action", .str requested_action)]
    | _ => [])

structure AdminRequest where
  command_id : String
  requested_action : String
  action : AdminAction
  actor : Json
  payload : Json
  evidence : Json

def adminRole : Json := .obj [("role", .str "admin")]

def normalizeAdminRequest (request : Option Json) : JsM (Except AdminRefusal AdminRequest) := do
  let request := request.getD (.obj [])
  if !request.isObject then return .error .requestInvalid
  else
    let commandId := trim (← strOrEmpty (request.prop "command_id"))
    let requestedAction := trim (← strOrEmpty (request.prop "requested_action"))
    if commandId = "" then return .error .commandIdRequired
    else if requestedAction = "" then return .error .requestedActionRequired
    else
      match adminAction requestedAction with
      | none => return .error (.actionUnsupported requestedAction)
      | some action => return .ok {
          command_id := commandId
          requested_action := requestedAction
          action
          actor := if (request.prop "actor").any Json.isObject then (request.prop "actor").getD .null
            else adminRole
          payload := objectOrEmpty (request.prop "payload")
          evidence := objectOrEmpty (request.prop "evidence") }

structure AuditRecord where
  command_id : Json
  actor : Json
  requested_action : Json
  result : String
  accepted_event_ids : Json
  reason_codes : Json

/-- What an action shows of the ledger. -/
inductive Representation where
  | explanation (explanation : Deployment.Explanation)
  | integrity (report : Deployment.IntegrityReport)
  | trace (trace : List Json)
  | backup (backup : Json)
  | read (representation : Option Json)

structure AdminResponse extends Execution where
  command_id : Json
  requested_action : Json
  representation : Option Representation
  audit : AuditRecord

def serializeAdminResponse (command_id requested_action actor executionResult : Json)
    (representation : Option Representation) : AdminResponse where
  toExecution := .of executionResult
  command_id := orElse (executionResult.prop "command_id") command_id
  requested_action := requested_action
  representation := representation
  audit := {
    command_id
    actor
    requested_action
    result := executionStatus executionResult
    accepted_event_ids := orElse (executionResult.prop "accepted_event_ids") (.arr [])
    reason_codes := orElse (executionResult.prop "reason_codes") (.arr []) }

def buildAdminCommand (request : AdminRequest) (action : MutatingAdminAction) : Json :=
  .obj [("command_id", .str request.command_id), ("type", .str (ADMIN_ACTION_COMMAND_TYPES action)),
    ("payload", request.payload), ("actor", request.actor), ("evidence", request.evidence)]

section
variable {σ : Type} (surface : Surface σ) (now : String)

def executeReadAdminAction (action : ReadAdminAction) (ledger : Option Ledger) :
    JsM (Except AdminRefusal Representation) :=
  match ledger with
  | none => return .error .ledgerRequired
  | some ledger =>
    match action with
    | .EXPLAIN_REALM_STATE =>
      (fun e => .ok (.explanation e)) <$>
        Deployment.explainCurrentAuthorityState surface.host (Deployment.ofLedger ledger)
    | .RUN_INTEGRITY_CHECK =>
      (fun r => .ok (.integrity r)) <$>
        Deployment.verifyRealmIntegrity surface.host (Deployment.ofLedger ledger) surface.integrityOptions
    | .INSPECT_EVENT_HISTORY =>
      (fun t => .ok (.trace t)) <$> Deployment.buildEventTrace surface.host ledger.event_log
    | .CREATE_BACKUP =>
      (fun b => .ok (.backup b)) <$>
        createBackupArtifact surface.host now ledger.event_log surface.realm_id surface.backupOptions

/-- `{ ...readResult, command_id, accepted_event_ids: [], idempotent_replay: false }`. -/
def readResultJson (command_id : String) : Except AdminRefusal Representation → Json
  | .ok _ => .obj [("ok", .bool true), ("command_id", .str command_id), ("accepted_event_ids", .arr []),
      ("idempotent_replay", .bool false)]
  | .error r => .obj (refusal [r.code] ++ [("command_id", .str command_id), ("accepted_event_ids", .arr []),
      ("idempotent_replay", .bool false)])

def executeAdminRequest (request : Option Json) : EStateM Error (σ × ExecutionStore) AdminResponse := do
  match ← liftM (normalizeAdminRequest request) with
  | .error refusal =>
    return serializeAdminResponse (orNull (Recovery.read request "command_id"))
      (orNull (Recovery.read request "requested_action")) (orElse (Recovery.read request "actor") adminRole)
      refusal.toJson none
  | .ok normalized =>
    let serialize := serializeAdminResponse (.str normalized.command_id) (.str normalized.requested_action)
      normalized.actor
    match normalized.action with
    | .read action =>
      let readResult ← reading fun (world, _) =>
        executeReadAdminAction surface now action (surface.ledger world)
      return serialize (readResultJson normalized.command_id readResult) readResult.toOption
    | .mutate action =>
      let executionResult ← executeCommand surface.toContext now (some (buildAdminCommand normalized action))
      let representation ← readRepresentation surface
      return serialize executionResult.toJson (some (.read representation))

end

/-! ## Requests -/

/-- A request through one of the surfaces. -/
inductive Request where
  | api (route body : Option Json) (context : RequestContext)
  | admin (request : Option Json)

inductive Response where
  | api (response : ApiResponse)
  | admin (response : AdminResponse)

def Response.execution : Response → Execution
  | api response => response.toExecution
  | admin response => response.toExecution

def serve {σ : Type} (surface : Surface σ) (now : String) :
    Request → EStateM Error (σ × ExecutionStore) Response
  | .api route body context => .api <$> handleApiRequest surface now route body context
  | .admin request => .admin <$> executeAdminRequest surface now request

/-- The command a request is built into, if it is. -/
def Request.command : Request → Option Json
  | api route body context =>
    match validateApiRequest route body with
    | .ok (.ok request) => some (buildCommand request context)
    | _ => none
  | admin request =>
    match normalizeAdminRequest request with
    | .ok (.ok normalized) =>
      match normalized.action with
      | .read _ => none
      | .mutate action => some (buildAdminCommand normalized action)
    | _ => none

section
variable {σ : Type} {surface : Surface σ} {now : String} {st : σ × ExecutionStore}

/-- Without a command there is nothing to execute. -/
theorem after_executeCommand_none (context : Context σ) (now : String) (st : σ × ExecutionStore) :
    after (executeCommand context now none) st = st := rfl

theorem after_readRepresentation (st : σ × ExecutionStore) : after (readRepresentation surface) st = st := by
  unfold readRepresentation
  cases surface.readRepresentation with
  | none => rfl
  | some read => exact after_reading _ st

/-- What is read after an execution changes nothing. -/
theorem after_shown {α : Type} (m : EStateM Error (σ × ExecutionStore) CommandResult)
    (serialize : CommandResult → Option Json → α) (st : σ × ExecutionStore) :
    after (do
      let result ← m
      let representation ← readRepresentation surface
      return serialize result representation) st = after m st := by
  rw [after_bind]
  cases outcome m st with
  | error e => rfl
  | ok result =>
    dsimp only
    rw [after_bind, after_readRepresentation]
    cases outcome (readRepresentation surface) (after m st) <;> rfl

/-- A request changes what the execution of its command changes. -/
theorem after_serve (request : Request) (st : σ × ExecutionStore) :
    after (serve surface now request) st =
      after (executeCommand surface.toContext now request.command) st := by
  cases request with
  | api route body context =>
    unfold serve Request.command handleApiRequest
    dsimp only
    rw [after_map, after_bind, outcome_lift, after_lift]
    rcases validateApiRequest route body with e | refusal | valid
    · rfl
    · rfl
    · exact after_shown _ (fun result => serializeExecutionResponse result.toJson) st
  | admin request =>
    unfold serve Request.command executeAdminRequest
    dsimp only
    rw [after_map, after_bind, outcome_lift, after_lift]
    rcases normalizeAdminRequest request with e | refusal | normalized
    · rfl
    · rfl
    · dsimp only
      cases normalized.action with
      | read action =>
        dsimp only
        rw [after_bind, after_reading]
        cases outcome (reading _) st <;> rfl
      | mutate action =>
        exact after_shown _ (fun result representation => serializeAdminResponse (.str normalized.command_id)
          (.str normalized.requested_action) normalized.actor result.toJson (some (.read representation))) st

/-- What is returned shows the result of the execution. -/
theorem outcome_shown {α : Type} {m : EStateM Error (σ × ExecutionStore) CommandResult}
    (serialize : CommandResult → Option Json → α) {st : σ × ExecutionStore} {a : α}
    (h : outcome (do
      let result ← m
      let representation ← readRepresentation surface
      return serialize result representation) st = .ok a) :
    ∃ result representation, outcome m st = .ok result ∧ a = serialize result representation := by
  rw [outcome_bind] at h
  obtain ⟨result, hresult, h⟩ := bind_eq_ok.mp h
  rw [outcome_bind] at h
  obtain ⟨representation, -, h⟩ := bind_eq_ok.mp h
  exact ⟨result, representation, hresult, (Except.ok.inj h).symm⟩

theorem api_command {route body : Option Json} {context : RequestContext} {command : Json}
    (h : (Request.api route body context).command = some command) :
    ∃ request, validateApiRequest route body = .ok (.ok request)
      ∧ command = buildCommand request context := by
  unfold Request.command at h
  dsimp only at h
  split at h
  · next request hvalid => exact ⟨request, hvalid, (Option.some.inj h).symm⟩
  · cases h

theorem admin_command {request : Option Json} {command : Json}
    (h : (Request.admin request).command = some command) :
    ∃ normalized action, normalizeAdminRequest request = .ok (.ok normalized)
      ∧ normalized.action = .mutate action ∧ command = buildAdminCommand normalized action := by
  unfold Request.command at h
  dsimp only at h
  split at h
  · next normalized hnormal =>
    split at h
    · cases h
    · next action haction => exact ⟨normalized, action, hnormal, haction, (Option.some.inj h).symm⟩
  · cases h

/-- A response to a request with a command tells of the command's execution. -/
theorem execution_of_served {request : Request} {command : Json} {response : Response}
    (hcommand : request.command = some command)
    (hserved : outcome (serve surface now request) st = .ok response) :
    ∃ result, outcome (executeCommand surface.toContext now (some command)) st = .ok result
      ∧ response.execution = .of result.toJson := by
  cases request with
  | api route body context =>
    obtain ⟨valid, hvalid, rfl⟩ := api_command hcommand
    unfold serve handleApiRequest at hserved
    dsimp only at hserved
    rw [outcome_map, outcome_bind, outcome_lift, after_lift, hvalid] at hserved
    obtain ⟨a, ha, rfl⟩ := map_eq_ok.mp hserved
    obtain ⟨result, representation, hresult, rfl⟩ := outcome_shown
      (fun result => serializeExecutionResponse result.toJson) ha
    exact ⟨result, hresult, rfl⟩
  | admin request =>
    obtain ⟨normalized, action, hnormal, haction, rfl⟩ := admin_command hcommand
    unfold serve executeAdminRequest at hserved
    dsimp only at hserved
    rw [outcome_map, outcome_bind, outcome_lift, after_lift, hnormal] at hserved
    obtain ⟨a, ha, rfl⟩ := map_eq_ok.mp hserved
    rw [ok_bind] at ha
    dsimp only at ha
    rw [haction] at ha
    obtain ⟨result, representation, hresult, rfl⟩ := outcome_shown
      (fun result representation => serializeAdminResponse (.str normalized.command_id)
        (.str normalized.requested_action) normalized.actor result.toJson (some (.read representation))) ha
    exact ⟨result, hresult, rfl⟩

end

/-! ## Repeated requests -/

/-- The clock's reading and the request. -/
abbrev Arrival := String × Request

/-- The commands requests are built into. -/
def commands (requests : List Arrival) : List Call :=
  requests.map fun arrival => (arrival.1, arrival.2.command)

/-- A surface that counts how often its callback is reached. -/
def Surface.counted {σ : Type} (surface : Surface σ) : Surface (σ × Nat) where
  toContext := surface.toContext.counted
  readRepresentation := surface.readRepresentation.map fun read (world, _) => read world
  integrityOptions := surface.integrityOptions
  backupOptions := surface.backupOptions
  realm_id := surface.realm_id

section
variable {σ : Type} (surface : Surface σ) (requests : List Arrival) (world : σ)

/-- The state before request number `k`, from an empty store. -/
def surfaceAt (k : Nat) : (σ × Nat) × ExecutionStore :=
  (requests.take k).foldl (fun st arrival => after (serve surface.counted arrival.1 arrival.2) st)
    ((world, 0), [])

/-- Request number `k` changes the ledger or the store, or reaches the callback. -/
def Changes (k : Nat) : Prop := surfaceAt surface requests world (k + 1) ≠ surfaceAt surface requests world k

def Responds (k : Nat) (response : Response) : Prop :=
  ∃ arrival, requests[k]? = some arrival
    ∧ outcome (serve surface.counted arrival.1 arrival.2) (surfaceAt surface requests world k) = .ok response

/-- The answer to a command that was executed before. -/
def Execution.replayed (execution : Execution) : Execution :=
  { execution with
    status := if execution.ok then "already_executed" else "rejected"
    idempotent_replay := true }

/-- The answer to another command under an id that is taken. -/
def mismatched : Execution := ⟨false, "rejected", .arr [], .arr [.str "COMMAND_ID_INTENT_MISMATCH"], false⟩

/-- Requests without a command change nothing. Once a request under an id has changed anything, no
later one under it does; one with the same command is answered as the first one was, as a replay, and
one with another command is refused. -/
structure ServedOnce : Prop where
  reads : ∀ {k clock request}, requests[k]? = some (clock, request) → request.command = none →
    ¬ Changes surface requests world k
  once : ∀ {i j id first second}, i < j → Under (commands requests) i id first →
    Under (commands requests) j id second → Changes surface requests world i →
    ¬ Changes surface requests world j
  same : ∀ {i j id first second response response'}, i < j → Under (commands requests) i id first →
    Under (commands requests) j id second → Changes surface requests world i →
    Responds surface requests world i response → Responds surface requests world j response' →
    Json.Same first.intent.written second.intent.written →
    response'.execution = response.execution.replayed
  different : ∀ {i j id first second response'}, i < j → Under (commands requests) i id first →
    Under (commands requests) j id second → Changes surface requests world i →
    Responds surface requests world j response' →
    ¬ Json.Same first.intent.written second.intent.written →
    response'.execution = mismatched

end

section
variable {σ : Type} {surface : Surface σ} {requests : List Arrival} {world : σ}

/-- Requests leave the state their commands leave. -/
theorem surfaceAt_eq (k : Nat) :
    surfaceAt surface requests world k = stateAt surface.toContext (commands requests) world k := by
  unfold surfaceAt stateAt commands
  rw [← List.map_take, List.foldl_map]
  simp only [after_serve]
  rfl

theorem commands_get {k : Nat} {arrival : Arrival} (h : requests[k]? = some arrival) :
    (commands requests)[k]? = some (arrival.1, arrival.2.command) := by
  unfold commands
  rw [List.getElem?_map, h]
  rfl

/-- Attaching the metadata hides nothing else of the result. -/
theorem prop_attached (result : Option Json) (id : String) (ids : List Json) (key : String) (replay : Bool)
    (hid : key ≠ "command_id") (hids : key ≠ "accepted_event_ids") (hreplay : key ≠ "idempotent_replay") :
    (CommandResult.attached result (some id) ids replay).toJson.prop key = (spread result).get key := by
  unfold CommandResult.toJson Json.prop
  dsimp only
  rw [Fields.get_set, if_neg hreplay, Fields.get_set, if_neg hids, Fields.get_set, if_neg hid]

/-- A replay tells of the execution it repeats. -/
theorem Execution.of_replay (result : Option Json) (id : String) (ids : List Json) :
    Execution.of (CommandResult.attached result (some id) ids true).toJson =
      (Execution.of (CommandResult.attached result (some id) ids false).toJson).replayed := by
  have hok := fun replay => prop_attached result id ids "ok" replay (by decide) (by decide) (by decide)
  have hcodes := fun replay =>
    prop_attached result id ids "reason_codes" replay (by decide) (by decide) (by decide)
  have hflag := fun replay => (CommandResult.attached result (some id) ids replay).prop_toJson
  unfold Execution.of executionStatus replayed
  simp only [hok, hcodes, (hflag _).1, (hflag _).2]
  rfl

theorem Execution.of_mismatch (id : String) : Execution.of (CommandResult.mismatch id).toJson = mismatched :=
  rfl

/-- A response to a request under an id tells of its command's execution. -/
theorem returns_of_responds {k : Nat} {id : String} {n : NormalizedCommand} {response : Response}
    (hunder : Under (commands requests) k id n) (hresponds : Responds surface requests world k response) :
    ∃ result, Returns surface.toContext (commands requests) world k result
      ∧ response.execution = .of result.toJson := by
  obtain ⟨⟨call, hcall, hid, -⟩, hne⟩ := hunder
  obtain ⟨⟨clock, request⟩, hrequest, hserved⟩ := hresponds
  obtain rfl := Option.some.inj ((commands_get hrequest).symm.trans hcall)
  cases hcommand : request.command with
  | none =>
    dsimp only at hid
    rw [hcommand] at hid
    exact absurd (Except.ok.inj hid).symm hne
  | some command =>
    obtain ⟨result, hresult, hexecution⟩ := execution_of_served hcommand hserved
    rw [← hcommand] at hresult
    rw [surfaceAt_eq] at hresult
    exact ⟨result, ⟨_, hcall, hresult⟩, hexecution⟩

variable (h : Answers surface.acceptRealmEvent)

include h

/-- A request that changes anything is the first under its id, and its command is recorded. -/
theorem returns_of_changes {i : Nat} {id : String} {n : NormalizedCommand}
    (hunder : Under (commands requests) i id n) (hchanges : Changes surface requests world i) :
    ∃ result ids, Returns surface.toContext (commands requests) world i
      (.attached result (some id) ids false) := by
  obtain ⟨⟨call, hcall, hid, hn⟩, hne⟩ := hunder
  unfold Changes at hchanges
  rw [surfaceAt_eq, surfaceAt_eq, stateAt_succ hcall] at hchanges
  unfold after at hchanges
  have hserved := served_at h (commands requests) world i call
  generalize hrun : executeCommand surface.toContext.counted call.1 call.2
    (stateAt surface.toContext (commands requests) world i) = run at hserved hchanges
  cases hserved with
  | threw e => exact absurd rfl hchanges
  | unnamed hid' => exact absurd (Except.ok.inj (hid.symm.trans hid')) hne
  | @ran id' n' result ids world' hid' _ _ =>
    obtain rfl := Except.ok.inj (hid.symm.trans hid')
    exact ⟨result, ids, call, hcall, by unfold outcome; rw [hrun]⟩
  | replayed => exact absurd rfl hchanges
  | refused => exact absurd rfl hchanges

/-- The record of a request that changed anything is there for every later one. -/
theorem record_of_changes {i j : Nat} {id : String} {n : NormalizedCommand} (hij : i < j)
    (hunder : Under (commands requests) i id n) (hchanges : Changes surface requests world i) :
    ∃ record, Assoc.find id (stateAt surface.toContext (commands requests) world j).2 = some record
      ∧ record.intent_fingerprint = fingerprint surface.host n
      ∧ Returns surface.toContext (commands requests) world i
        (.attached record.execution_result (some id) record.accepted_event_ids false) := by
  obtain ⟨result, ids, hreturns⟩ := returns_of_changes h hunder hchanges
  obtain ⟨record, hfind, hprint, rfl, rfl⟩ := record_of_returns h hunder hreturns
  exact ⟨record, find_stateAt h hij hfind, hprint, hreturns⟩

omit h in
theorem returns_unique {σ : Type} {context : Context σ} {calls : List Call} {world : σ} {k : Nat}
    {result result' : CommandResult} (hr : Returns context calls world k result)
    (hr' : Returns context calls world k result') : result = result' := by
  obtain ⟨call, hcall, hout⟩ := hr
  obtain ⟨call', hcall', hout'⟩ := hr'
  obtain rfl := Option.some.inj (hcall.symm.trans hcall')
  exact Except.ok.inj (hout.symm.trans hout')

/-- Through whichever surface they come in, requests are served once. -/
theorem surfaces_serve_once (hcf : surface.host.CollisionFree) : ServedOnce surface requests world where
  reads := by
    intro k clock request hk hnone hchanges
    refine hchanges ?_
    rw [surfaceAt_eq, surfaceAt_eq, stateAt_succ (commands_get hk), hnone]
    exact after_executeCommand_none _ _ _
  once := by
    intro i j id first second hij hi hj hchanges hlater
    obtain ⟨record, hfind, -⟩ := record_of_changes h hij hi hchanges
    obtain ⟨call, hcall, hid, -⟩ := hj.call
    refine hlater ?_
    rw [surfaceAt_eq, surfaceAt_eq]
    exact untouched_of_find h hcall hid hj.named hfind
  same := by
    intro i j id first second response response' hij hi hj hchanges hfirst hsecond hsame
    obtain ⟨record, hfind, hprint, hreturns⟩ := record_of_changes h hij hi hchanges
    obtain ⟨result, hresult, hexecution⟩ := returns_of_responds hi hfirst
    obtain ⟨result', hresult', hexecution'⟩ := returns_of_responds hj hsecond
    have hreplay := (answered_of_find hj hfind).1 (hprint.trans ((fingerprint_eq_iff hcf).mpr hsame))
    rw [hexecution', hexecution, returns_unique hresult' hreplay, returns_unique hresult hreturns]
    exact Execution.of_replay _ _ _
  different := by
    intro i j id first second response' hij hi hj hchanges hsecond hdiffer
    obtain ⟨record, hfind, hprint, -⟩ := record_of_changes h hij hi hchanges
    obtain ⟨result', hresult', hexecution'⟩ := returns_of_responds hj hsecond
    have hrefused := (answered_of_find hj hfind).2 fun heq =>
      hdiffer ((fingerprint_eq_iff hcf).mp (hprint.symm.trans heq))
    rw [hexecution', returns_unique hresult' hrefused]
    exact Execution.of_mismatch id

end

/-- A surface whose callback accepts everything. -/
def acceptingSurface : Surface Unit where toContext := acceptingContext

/-- A submission through the API under the id `cmd-1`. -/
def submission (request_id : String) : Request :=
  .api (some (.str "POST /realm/events/submit"))
    (some (.obj [("command_id", .str " cmd-1 "), ("request_id", .str request_id)])) {}

/-- A submission, its repetition, another request that carries it, and a rotation under its id. -/
def submissions : List Arrival :=
  [("", submission "r1"), ("", submission "r1"), ("", submission "r2"),
    ("", .admin (some (.obj [("command_id", .str "cmd-1"), ("requested_action", .str "ROTATE_AUTHORITY")])))]

theorem submissions_served_once :
    ServedOnce acceptingSurface submissions () ∧ Changes acceptingSurface submissions () 0 := by
  refine ⟨surfaces_serve_once acceptingContext_answers plainHost_collisionFree, fun h => ?_⟩
  have hcount := congrArg (·.1.2) h
  revert hcount
  decide +kernel

end SimpleL1.Realm.Commands.Surfaces
