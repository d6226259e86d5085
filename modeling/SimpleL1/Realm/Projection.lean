import SimpleL1.Realm.History

/-!
# Replay

`applyAuthorityEvent` applies one event to the projection: it reads the event's
envelope (the top-level fields only when there is no envelope object), finds the
contract of the envelope's type and runs its handler on the migrated payload.
`buildCurrentAuthorityState` verifies the chain and folds the canonical events.
-/

namespace SimpleL1.Realm

open SimpleL1.Js

namespace Projection

/-- `event.envelope` when it is an object, else an envelope of the top-level fields of an event
whose own type has a contract. -/
def eventEnvelope (event : Json) : JsM (Option Json) := do
  match event.prop "envelope" with
  | some v => if v.isObject then return some v else topLevel
  | none => topLevel
where
  topLevel : JsM (Option Json) := do
    if truthy (event.prop "type") then
      if ← hasRealmEventContract (event.prop "type") then
        return some (.obj (Fields.ofOptions [("type", event.prop "type"),
          ("signer", event.prop "signer"),
          ("authority_reference", event.prop "authority_reference"),
          ("sequence", event.prop "sequence"), ("timestamp", event.prop "timestamp")]))
      else return none
    else return none

end Projection

def isCanonicalRealmEvent (event : Json) : JsM Bool := do
  if strictEq (event.prop "realm_event") (some (.bool true)) then return true
  else
    match ← Projection.eventEnvelope event with
    | none => return false
    | some envelope => hasRealmEventContract (envelope.prop "type")

def canAuthorityIssueEvent (state : AuthorityState) (signerRef eventType : String) : Bool :=
  match registryLookup eventType with
  | some (.contract t) =>
    canSignerSatisfyAuthorityPolicy state signerRef (realmEventRegistry t).requiredAuthority
  | _ => false

/-- The handler an entry's contract gives; an inherited property never gets this far. -/
def applyContract (entry : RegistryEntry) (state : AuthorityState) (event envelope : Json)
    (payload : Fields) : JsM AuthorityState :=
  match entry with
  | .contract t => (realmEventRegistry t).apply state event envelope payload
  | .inherited => throw (.typeError "contract.apply is not a function")

def applyAuthorityEvent (state : AuthorityState) (event : Json) : JsM AuthorityState := do
  match ← Projection.eventEnvelope event with
  | none => return state
  | some envelope =>
    match ← getRealmEventContract (envelope.prop "type") with
    | none => return state
    | some entry =>
      let payload ← interpretRealmEvent entry event envelope (eventPayload event)
      applyContract entry state event envelope payload

/-- One round of replay. -/
def replayEvent (state : AuthorityState) (event : Json) : JsM AuthorityState := do
  if ← isCanonicalRealmEvent event then applyAuthorityEvent state event else return state

def replayFrom (state : AuthorityState) (eventLog : List Json) : JsM AuthorityState :=
  eventLog.foldlM replayEvent state

def buildCurrentAuthorityState (host : Host) (eventLog : List Json) : JsM AuthorityState := do
  let _ ← verifyRealmEventHistory host eventLog
  replayFrom emptyAuthorityState eventLog

/-! ## Ledgers -/

/-- The part of a ledger the realm code uses; a missing store is `none`. -/
structure Ledger where
  event_log : List Json
  current_authority_state : Option AuthorityState
  realm_canonical_sequence : Option Number

def ensureAuthorityStateStores (ledger : Ledger) : Ledger :=
  { ledger with
    current_authority_state := some (ledger.current_authority_state.getD emptyAuthorityState)
    realm_canonical_sequence := some (ledger.realm_canonical_sequence.getD (.int 0)) }

/-- A ledger has no `lastSequence` of its own, so without a projection the counter starts at 0. -/
def nextExpectedSequence (ledger : Ledger) : Number :=
  match ledger.current_authority_state with
  | some state =>
    (numOr state.lastSequence (numOr (ledger.realm_canonical_sequence.getD .nan) (.int 0))).succ
  | none => Number.succ (.int 0)

end SimpleL1.Realm
