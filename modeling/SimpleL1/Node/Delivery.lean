import SimpleL1.Node.Failure

/-!
# How events come to a node

Three doors lead to `applyEvent`: a realm proposal that validation accepts, a
route of the node's own interface, and a broadcast of another node. A request
that throws is answered with an error; what it has written by then stays.
-/

namespace SimpleL1.Node

open SimpleL1.Js SimpleL1.Lib SimpleL1.Lib.Effect

/-! ## The doors -/

/-- A proposal is validated against the ledger, and the accepted event is applied. -/
def acceptRealmEvent (p : Platform) (config : RealmConfig) (clock : Realm.Clock) (proposal : Json) :
    LedgerM Realm.Validation := do
  let validation ← reading fun ledger =>
    Realm.validateRealmEventProposal p.toHost clock ledger.realm proposal
  match validation with
  | .rejected codes n => return .rejected codes n
  | .accepted event n =>
    applyEvent p config event
    return .accepted event n

/-- The event a route makes of a request. -/
def routeEvent (id : String) (type : LedgerEventType) (payload : Option Json) (timestamp : String) :
    Json :=
  .obj (Fields.ofOptions [("id", some (.str id)), ("type", some (.str type.name)),
    ("payload", payload), ("timestamp", some (.str timestamp))])

/-- `log.find((e) => e.id === data.id)`. -/
def isKnown (data : Option Json) : List Json → JsM Bool
  | [] => return false
  | e :: log => do
    let known ← member (some e) "id"
    let id ← member data "id"
    if strictEq known id then return true else isKnown data log

/-- The event of a broadcast, unless the node knows it or the message is of another kind. -/
def broadcastEvent (body : Option Json) (ledger : Ledger) : JsM (Option Json) := do
  let type ← member body "type"
  let _ ← toStr type
  if !strictEq type (some (.str "EVENT")) then return none
  else if ← isKnown (optional body "data") ledger.event_log then return none
  else
    match optional body "data" with
    | none => throw (.typeError "Cannot read properties of undefined (reading 'type')")
    | some event => return some event

def receiveBroadcast (p : Platform) (config : RealmConfig) (body : Option Json) : LedgerM Unit := do
  match ← reading (broadcastEvent body) with
  | none => return
  | some event => applyEvent p config event

/-- One request to the node. -/
inductive Delivery where
  | accept (clock : Realm.Clock) (proposal : Json)
  | route (id : String) (type : LedgerEventType) (payload : Option Json) (timestamp : String)
  | broadcast (body : Option Json)

def deliver (p : Platform) (config : RealmConfig) : Delivery → LedgerM Unit
  | .accept clock proposal => do
    let _ ← acceptRealmEvent p config clock proposal
  | .route id type payload timestamp => applyEvent p config (routeEvent id type payload timestamp)
  | .broadcast body => receiveBroadcast p config body

/-! ## What a delivery applies -/

/-- The event a delivery applies to the ledger, if it comes that far. -/
def appliedEvent (p : Platform) (ledger : Ledger) : Delivery → Option Json
  | .accept clock proposal =>
    match Realm.validateRealmEventProposal p.toHost clock ledger.realm proposal with
    | .ok (.accepted event _) => some event
    | _ => none
  | .route id type payload timestamp => some (routeEvent id type payload timestamp)
  | .broadcast body => (broadcastEvent body ledger).toOption.join

theorem after_deliver (p : Platform) (config : RealmConfig) (ledger : Ledger) (d : Delivery) :
    after (deliver p config d) ledger =
      match appliedEvent p ledger d with
      | none => ledger
      | some event => after (applyEvent p config event) ledger := by
  cases d with
  | accept clock proposal =>
    unfold deliver acceptRealmEvent appliedEvent
    simp only [bind_assoc, after_bind, outcome_reading, after_reading]
    cases Realm.validateRealmEventProposal p.toHost clock ledger.realm proposal with
    | error e => rfl
    | ok validation =>
      cases validation with
      | rejected codes n => rfl
      | accepted event n => cases h : outcome (applyEvent p config event) ledger <;> simp [h]
  | route id type payload timestamp => rfl
  | broadcast body =>
    simp only [deliver, receiveBroadcast, appliedEvent, after_bind, outcome_reading, after_reading]
    cases broadcastEvent body ledger with
    | error e => rfl
    | ok event => cases event <;> rfl

end SimpleL1.Node
