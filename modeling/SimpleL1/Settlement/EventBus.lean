import SimpleL1.Lib.Effect
import SimpleL1.Lib.Window
import SimpleL1.Node.Platform
import SimpleL1.Realm.Registry

/-!
# The settlement event bus

`emit` stamps an event, appends it to the stream of the ledger, which keeps the
last 1000, lets the listeners hear it and broadcasts it when it is of high
value; what a listener throws comes out of `emit` and nothing is broadcast then. A confirmed event that has
reached the finality of its network is followed up: a callback emits the finalized event later, in an
order with the other events that is not settled here. Peers hand in events, which go into the stream
and nowhere else.
-/

namespace SimpleL1.Settlement.EventBus

open SimpleL1.Js SimpleL1.Lib SimpleL1.Lib.Effect

structure SettlementEventBus where
  settlement_events : List Json
  /-- The events whose follow-up is scheduled by `setImmediate`. -/
  immediates : List Fields
  /-- The events broadcast to the peers. -/
  sent : List Fields

/-! ## Listeners -/

def FINALITY : List (String × Int) :=
  [("ethereum", 12), ("base", 6), ("arbitrum", 1), ("polygon", 30), ("bsc", 15), ("optimism", 1)]

/-- The text of what an object has from its prototype. -/
def inheritedText (name : String) : String :=
  if name = "__proto__" then "[object Object]"
  else if name = "constructor" then "function Object() \x7b [native code] \x7d"
  else "function " ++ name ++ "() \x7b [native code] \x7d"

/-- `threshold && event.confirmations >= threshold` for `FINALITY[event.network]`; a threshold that is
inherited compares as its text. -/
def reachesFinality (event : Fields) : JsM Bool := do
  let network ← toStr (event.get "network")
  let confirmations := event.get "confirmations"
  match FINALITY.lookup network with
  | some threshold => return (Number.int threshold).le (← toNumber confirmations)
  | none =>
    if network ∈ Realm.objectPrototypeKeys then
      match confirmations with
      | some (.str _) | some (.arr _) | some (.obj _) =>
        return keyLe (inheritedText network) (← toStr confirmations)
      | _ => return false
    else return false

/-- The line that is logged of every event: what putting it together throws. -/
def logLine (event : Fields) : JsM Unit := do
  let _ ← toStr (event.get "type")
  match event.get "intent_id" with
  | some (.arr xs) => let _ ← toStr (some (.arr (xs.take 8)))
  | some (.str _) => pure ()
  | v => throwUnless (!truthy v) (.typeError "event.intent_id.slice is not a function")
  if truthy (event.get "network") then let _ ← toStr (event.get "network")
  let _ ← toStr (event.get "event_id")

/-- What the listeners of a type do with an event, and whether one of them schedules a follow-up. The type
`error` has no listener, so it throws. -/
def heard (type : Option Json) (event : Fields) : JsM Bool := do
  if strictEq type (some (.str "error")) then throw (.error "Unhandled error.")
  let name ← toStr type
  if name = "SETTLEMENT_CONFIRMED" then reachesFinality event
  else if name = "*" then
    logLine event
    return false
  else return false

def shouldBroadcast (type : Option Json) : Bool :=
  ["INTENT_FULFILLED", "INTENT_REJECTED", "SETTLEMENT_FINALIZED"].any fun name =>
    strictEq (some (.str name)) type

/-! ## Events -/

/-- Push, and shift when there are more than 1000. -/
def record (event : Json) (bus : SettlementEventBus) : SettlementEventBus :=
  { bus with settlement_events := Window.push 1000 bus.settlement_events event }

def schedule (event : Fields) (bus : SettlementEventBus) : SettlementEventBus :=
  { bus with immediates := bus.immediates ++ [event] }

def broadcast (event : Fields) (bus : SettlementEventBus) : SettlementEventBus :=
  { bus with sent := bus.sent ++ [event] }

/-- The fields of the payload take the place of the ones it is stamped with. -/
def stamped (now event_id : String) (payload : Fields) : Fields :=
  Node.merge (Fields.ofOptions [("event_id", some (.str event_id)), ("type", payload.get "type"),
    ("timestamp", some (.str now))]) payload

/-- `super.emit`. -/
def dispatch (type : Option Json) (event : Fields) : EStateM Error SettlementEventBus Unit := do
  if ← heard type event then modify (schedule event)

def emit (now event_id : String) (payload : Fields) : EStateM Error SettlementEventBus Fields := do
  let event := stamped now event_id payload
  modify (record (.obj event))
  dispatch (event.get "type") event
  dispatch (some (.str "*")) event
  if shouldBroadcast (event.get "type") then modify (broadcast event)
  return event

/-- What `settlementFinalized` emits for a confirmed event. -/
def finalization (event : Fields) : Fields :=
  Fields.ofOptions [("type", some (.str "SETTLEMENT_FINALIZED")), ("network", event.get "network"),
    ("tx_hash", event.get "tx_hash"), ("intent_id", event.get "intent_id"), ("amount", event.get "amount"),
    ("asset", event.get "asset"), ("block_number", event.get "block_number")]

/-- The next callback that `setImmediate` runs. -/
def runImmediate (now event_id : String) : EStateM Error SettlementEventBus Unit := do
  match (← get).immediates with
  | [] => return
  | event :: immediates =>
    modify fun bus => { bus with immediates }
    let _ ← emit now event_id (finalization event)

/-- `POST /api/network/settlement-event`. -/
def receive (event : Option Json) : EStateM Error SettlementEventBus Unit := do
  match event with
  | some event => if event.truthy then modify (record event)
  | none => return

inductive Op where
  | emit (now event_id : String) (payload : Fields)
  | receive (event : Option Json)
  | runImmediate (now event_id : String)

def Op.run : Op → EStateM Error SettlementEventBus Unit
  | .emit now event_id payload => do let _ ← EventBus.emit now event_id payload
  | .receive event => EventBus.receive event
  | .runImmediate now event_id => EventBus.runImmediate now event_id

/-! ## The chronicle -/

/-- Where an event of the stream comes from: a call of `emit`, the follow-up of a confirmed event, or a
peer. -/
inductive Entry where
  | emitted (event : Fields)
  | finalized (source event : Fields)
  | received (event : Json)

/-- The event is to be followed up. -/
def due (event : Fields) : Bool :=
  match heard (event.get "type") event with
  | .ok scheduled => scheduled
  | .error _ => false

/-- The listeners let the event pass. -/
def passes (event : Fields) : Bool :=
  (heard (event.get "type") event).isOk && (heard (some (.str "*")) event).isOk

/-- The event goes to the peers. -/
def goesOut (event : Fields) : Bool := passes event && shouldBroadcast (event.get "type")

namespace Entry

@[simp] def event : Entry → Json
  | emitted event | finalized _ event => .obj event
  | received event => event

/-- The event is one that is to be followed up. -/
@[simp] def due? : Entry → Option Fields
  | emitted event => if due event then some event else none
  | finalized .. | received _ => none

/-- The event is the follow-up of this one. -/
@[simp] def source? : Entry → Option Fields
  | finalized source _ => some source
  | emitted _ | received _ => none

@[simp] def out? : Entry → Option Fields
  | emitted event | finalized _ event => if goesOut event then some event else none
  | received _ => none

end Entry

/-- What an operation puts into the stream. -/
def Op.entries (bus : SettlementEventBus) : Op → List Entry
  | .emit now event_id payload => [.emitted (stamped now event_id payload)]
  | .receive event => if truthy event then (event.map Entry.received).toList else []
  | .runImmediate now event_id =>
    bus.immediates.head?.toList.map fun source => .finalized source (stamped now event_id (finalization source))

/-- A bus, and all that ever went into its stream since it was made. -/
structure Chronicle where
  bus : SettlementEventBus
  entries : List Entry

/-- An operation, whether it returns or throws. -/
def Chronicle.step (c : Chronicle) (op : Op) : Chronicle :=
  ⟨after op.run c.bus, c.entries ++ op.entries c.bus⟩

/-- The bus shows the last 1000 events of the chronicle, has followed up the confirmed events in their order
except for those still scheduled, and has broadcast its own events of high value, each once. -/
structure Follows (stored : List Json) (c : Chronicle) : Prop where
  stream : c.bus.settlement_events = (stored ++ c.entries.map Entry.event).rtake 1000
  finality : c.entries.filterMap Entry.due? = c.entries.filterMap Entry.source? ++ c.bus.immediates
  sent : c.bus.sent = c.entries.filterMap Entry.out?

/-! ## One operation -/

section
variable {now event_id : String} {payload event : Fields} {bus : SettlementEventBus} {type : Option Json}

theorem dispatch_of_ok {scheduled : Bool} (h : heard type event = .ok scheduled) :
    dispatch type event bus = .ok ⟨⟩ (if scheduled then schedule event bus else bus) := by
  unfold dispatch
  rw [h]
  cases scheduled <;> rfl

theorem dispatch_of_error {e : Error} (h : heard type event = .error e) :
    dispatch type event bus = .error e bus := by
  unfold dispatch
  rw [h]
  rfl

/-- The line that is logged of every event schedules nothing. -/
theorem heard_all {scheduled : Bool} (h : heard (some (.str "*")) event = .ok scheduled) :
    scheduled = false := by
  have hlog : heard (some (.str "*")) event = (logLine event >>= fun _ => .ok false) := rfl
  obtain ⟨-, -, hfalse⟩ := bind_eq_ok.mp (hlog.symm.trans h)
  exact (Except.ok.inj hfalse).symm

theorem due_of_ok {scheduled : Bool} (h : heard (event.get "type") event = .ok scheduled) :
    due event = scheduled := by
  rw [due, h]

theorem due_of_error {e : Error} (h : heard (event.get "type") event = .error e) : due event = false := by
  rw [due, h]

/-- What an event leaves: it is in the stream, it is scheduled if it is due, and sent if it goes out. -/
theorem after_emit : after (emit now event_id payload) bus =
    { settlement_events := Window.push 1000 bus.settlement_events (.obj (stamped now event_id payload))
      immediates := bus.immediates
        ++ (if due (stamped now event_id payload) then [stamped now event_id payload] else [])
      sent := bus.sent
        ++ (if goesOut (stamped now event_id payload) then [stamped now event_id payload] else []) } := by
  unfold emit
  generalize stamped now event_id payload = event
  dsimp only
  rw [after_bind_of_ok (modify_apply _ _)]
  cases htype : heard (event.get "type") event with
  | error e =>
    have hout : goesOut event = false := by rw [goesOut, passes, htype]; rfl
    rw [after_of_error (bind_of_error (dispatch_of_error htype)), due_of_error htype, hout]
    simp [record]
  | ok scheduled =>
    rw [after_bind_of_ok (dispatch_of_ok htype), due_of_ok htype]
    cases hall : heard (some (.str "*")) event with
    | error e =>
      have hout : goesOut event = false := by rw [goesOut, passes, hall, Except.isOk, Except.toBool]; simp
      rw [after_of_error (bind_of_error (dispatch_of_error hall)), hout]
      cases scheduled <;> simp [record, schedule]
    | ok again =>
      obtain rfl := heard_all hall
      have hout : goesOut event = shouldBroadcast (event.get "type") := by
        rw [goesOut, passes, htype, hall]
        rfl
      rw [after_bind_of_ok (dispatch_of_ok hall), hout]
      cases scheduled <;> cases shouldBroadcast (event.get "type") <;>
        simp [record, schedule, broadcast]

/-! ## Follow-ups -/

theorem mem_ofOptions {p : String × Json} {fs : List (String × Option Json)} :
    p ∈ Fields.ofOptions fs ↔ (p.1, some p.2) ∈ fs := by
  simp only [Fields.ofOptions, List.mem_filterMap, Option.map_eq_some_iff]
  constructor
  · rintro ⟨⟨k, v⟩, hmem, w, hv, rfl⟩
    exact hv ▸ hmem
  · intro hmem
    exact ⟨_, hmem, p.2, rfl, rfl⟩

/-- A follow-up is of the finalized type, and is not followed up itself. -/
theorem due_finalization (source : Fields) : due (stamped now event_id (finalization source)) = false := by
  have htype : (stamped now event_id (finalization source)).get "type" = some (.str "SETTLEMENT_FINALIZED") := by
    refine Node.get_merge_of_agrees (by simp [finalization]) fun p hp hk => ?_
    have hmem := mem_ofOptions.mp hp
    rw [hk] at hmem
    simpa using hmem
  exact due_of_ok (by rw [htype]; rfl)

theorem after_bind_pure {α : Type} (m : EStateM Error SettlementEventBus α) :
    after (m >>= fun _ => pure ⟨⟩ : EStateM Error SettlementEventBus PUnit) bus = after m bus := by
  rw [after_bind]
  cases outcome m bus <;> rfl

theorem after_runImmediate_nil (h : bus.immediates = []) : after (runImmediate now event_id) bus = bus := by
  unfold runImmediate
  rw [after_bind_of_ok (get_apply bus), h]
  rfl

theorem after_runImmediate_cons {source : Fields} {immediates : List Fields}
    (h : bus.immediates = source :: immediates) : after (runImmediate now event_id) bus =
      { settlement_events :=
          Window.push 1000 bus.settlement_events (.obj (stamped now event_id (finalization source)))
        immediates
        sent := bus.sent ++ (if goesOut (stamped now event_id (finalization source)) then
          [stamped now event_id (finalization source)] else []) } := by
  unfold runImmediate
  rw [after_bind_of_ok (get_apply bus), h]
  dsimp only
  rw [after_bind_of_ok (modify_apply _ _), after_bind_pure, after_emit, due_finalization]
  simp

end

/-! ## Runs -/

section
variable {stored : List Json} {c : Chronicle}

theorem Follows.length_le (h : Follows stored c) : c.bus.settlement_events.length ≤ 1000 := by
  rw [h.stream]
  exact Window.length_rtake_le 1000 _

/-- One more event in the stream and in the chronicle. -/
theorem Follows.push (h : Follows stored c) {entry : Entry} {event : Json} (hentry : entry.event = event) :
    Window.push 1000 c.bus.settlement_events event =
      (stored ++ (c.entries ++ [entry]).map Entry.event).rtake 1000 := by
  rw [← hentry, Window.push_eq_rtake h.length_le, h.stream, Window.rtake_rtake_append, List.map_append,
    List.append_assoc]
  rfl

theorem Follows.emit (h : Follows stored c) (now event_id : String) (payload : Fields) :
    Follows stored (c.step (.emit now event_id payload)) := by
  have hafter :
      after (Op.emit now event_id payload).run c.bus = after (EventBus.emit now event_id payload) c.bus :=
    after_bind_pure _
  unfold Chronicle.step Op.entries
  rw [hafter, after_emit]
  dsimp only
  generalize stamped now event_id payload = event
  refine ⟨h.push rfl, ?_, ?_⟩
  · cases hdue : due event <;>
      simp [List.filterMap_append, List.filterMap_cons, h.finality, hdue]
  · cases hout : goesOut event <;> simp [List.filterMap_append, h.sent, hout]

theorem Follows.receive (h : Follows stored c) (event : Option Json) :
    Follows stored (c.step (.receive event)) := by
  unfold Chronicle.step Op.entries Op.run EventBus.receive
  cases event with
  | none => simpa [truthy] using h
  | some event =>
    cases htruthy : event.truthy with
    | false => simpa [truthy, htruthy] using h
    | true =>
      simp only [truthy, htruthy, if_true, Option.map_some, Option.toList_some, after_modify]
      refine ⟨h.push rfl, ?_, ?_⟩
      · simpa [record, List.filterMap_append, List.filterMap_cons] using h.finality
      · simpa [record, List.filterMap_append, List.filterMap_cons] using h.sent

theorem Follows.runImmediate (h : Follows stored c) (now event_id : String) :
    Follows stored (c.step (.runImmediate now event_id)) := by
  unfold Chronicle.step Op.entries Op.run
  cases himmediates : c.bus.immediates with
  | nil => simpa [after_runImmediate_nil himmediates] using h
  | cons source immediates =>
    rw [after_runImmediate_cons himmediates]
    have hfinality := h.finality
    rw [himmediates] at hfinality
    simp only [List.head?_cons, Option.toList_some, List.map_cons, List.map_nil]
    generalize stamped now event_id (finalization source) = event
    refine ⟨h.push rfl, ?_, ?_⟩
    · simp [List.filterMap_append, List.filterMap_cons, hfinality]
    · cases hout : goesOut event <;> simp [List.filterMap_append, h.sent, hout]

theorem Follows.step (h : Follows stored c) (op : Op) : Follows stored (c.step op) := by
  cases op with
  | emit now event_id payload => exact h.emit now event_id payload
  | receive event => exact h.receive event
  | runImmediate now event_id => exact h.runImmediate now event_id

end

end SimpleL1.Settlement.EventBus
