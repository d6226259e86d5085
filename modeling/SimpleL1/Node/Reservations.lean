import SimpleL1.Node.Names
import SimpleL1.Node.Routes
import SimpleL1.Lib.Triple

/-!
# Reserved names

A browser reserves the name of a new identity before its passkey is made. The
reservation belongs to a token of the browser and stands in the runtime store,
whose records expire; registrations and device handoffs that expire give their
reservation back. A handler runs without interruption up to the one call it waits
for, and after it to its end. The clock moves on at every reading.
-/

namespace SimpleL1.Node

open SimpleL1.Js SimpleL1.Lib SimpleL1.Lib.Effect

/-! ## The runtime store -/

/-- The signed token a browser owns its reservations by. -/
abbrev OwnerToken := { token : String // token ≠ "" }

structure AliasReservation where
  ownerId : OwnerToken
  expiresAtMs : Nat

structure RegistrationChallenge where
  userHandle : String
  requestedAlias : Option String
  displayAlias : Json
  rpId : String
  aliasReservationOwner : OwnerToken
  expiresAtMs : Nat

structure DeviceHandoff where
  requestedAlias : Option String
  aliasReservationOwner : Option OwnerToken
  isPending : Bool
  expiresAtMs : Nat

/-- The node as the registration routes see it; `ticks n` milliseconds pass up to the reading of the
clock after the next `n`. -/
structure Registrar where
  ledger : Ledger
  now : Nat
  ticks : Nat → Nat
  aliasReservations : OrderedMap String AliasReservation
  registrationChallenges : OrderedMap String RegistrationChallenge
  deviceHandoffs : OrderedMap String DeviceHandoff

abbrev RegistrarM := EStateM Error Registrar

/-- `Date.now()`. -/
def dateNow : RegistrarM Nat := do
  let s ← get
  set { s with now := s.now + s.ticks 0, ticks := fun n => s.ticks (n + 1) }
  return s.now + s.ticks 0

/-- A collection of the store. -/
structure Collection (α : Type) where
  read : Registrar → OrderedMap String α
  write : OrderedMap String α → Registrar → Registrar
  expiresAtMs : α → Nat

def aliasReservations : Collection AliasReservation :=
  ⟨Registrar.aliasReservations, fun m s => { s with aliasReservations := m },
    AliasReservation.expiresAtMs⟩

def registrationChallenges : Collection RegistrationChallenge :=
  ⟨Registrar.registrationChallenges, fun m s => { s with registrationChallenges := m },
    RegistrationChallenge.expiresAtMs⟩

def deviceHandoffs : Collection DeviceHandoff :=
  ⟨Registrar.deviceHandoffs, fun m s => { s with deviceHandoffs := m }, DeviceHandoff.expiresAtMs⟩

/-- `record.expiresAtMs && record.expiresAtMs <= this.now()`. -/
def isExpired (expiresAtMs : Nat) : RegistrarM Bool :=
  if expiresAtMs = 0 then return false else return expiresAtMs ≤ (← dateNow)

namespace Collection

variable {α : Type} (c : Collection α)

def set (key : String) (record : α) : RegistrarM Unit :=
  modify fun s => c.write ((c.read s).insert key record) s

def delete (key : String) : RegistrarM Unit := modify fun s => c.write ((c.read s).erase key) s

/-- The record under the key, which goes when it has expired. -/
def get (key : String) : RegistrarM (Option α) :=
  if key = "" then return none
  else do
    match (c.read (← MonadState.get)).find key with
    | none => return none
    | some record =>
      if ← isExpired (c.expiresAtMs record) then
        c.delete key
        return none
      else return some record

/-- The expired records go, after `onExpire`. -/
def cleanup (onExpire : α → RegistrarM Unit) : RegistrarM Unit := do
  forM (c.read (← MonadState.get)).entries fun e => do
    if ← isExpired (c.expiresAtMs e.2) then
      onExpire e.2
      c.delete e.1

end Collection

/-! ## Reservations -/

def releaseAliasReservation (requestedAlias : Option String) (ownerId : Option OwnerToken) :
    RegistrarM Unit :=
  match requestedAlias, ownerId with
  | some name, some owner => do
    match ← aliasReservations.get name with
    | some reservation =>
      if reservation.ownerId = owner then aliasReservations.delete name else return
    | none => return
  | _, _ => return

/-- Some account has the name. -/
def ledgerHasAlias (p : NamePlatform) (name : String) : List Fields → JsM Bool
  | [] => return false
  | account :: accounts => do
    if (← normalizeAlias p (account.get "alias")) = some name then return true
    else ledgerHasAlias p name accounts

def aliasAvailable (p : NamePlatform) (name : String) (ownerId : OwnerToken) : RegistrarM Bool := do
  let accounts := (← get).ledger.accounts.entries.map Prod.snd
  if ← ledgerHasAlias p name accounts then return false
  else
    match ← aliasReservations.get name with
    | none => return true
    | some reservation =>
      if reservation.expiresAtMs ≤ (← dateNow) then return true
      else return reservation.ownerId = ownerId

def reserveAlias (p : NamePlatform) (name : String) (ownerId : OwnerToken) (expiresAtMs : Nat) :
    RegistrarM Bool := do
  if ← aliasAvailable p name ownerId then
    aliasReservations.set name ⟨ownerId, expiresAtMs⟩
    return true
  else return false

def transferAliasReservation (p : NamePlatform) (name : String) (fromOwnerId toOwnerId : OwnerToken)
    (expiresAtMs : Nat) : RegistrarM Bool := do
  let start := do
    aliasReservations.delete name
    reserveAlias p name toOwnerId expiresAtMs
  match ← aliasReservations.get name with
  | none => start
  | some reservation =>
    if reservation.expiresAtMs ≤ (← dateNow) then start
    else if reservation.ownerId = fromOwnerId then do
      aliasReservations.set name ⟨toOwnerId, expiresAtMs⟩
      return true
    else return false

def cleanupSl1eArtifacts : RegistrarM Unit := do
  registrationChallenges.cleanup fun record =>
    releaseAliasReservation record.requestedAlias record.aliasReservationOwner
  deviceHandoffs.cleanup fun record =>
    releaseAliasReservation record.requestedAlias record.aliasReservationOwner
  aliasReservations.cleanup fun _ => return

/-! ## Handlers up to their call -/

/-- The requests of browsers, with what the server draws for them. -/
inductive BrowserRequest where
  | registrationOptions (registrationRequestId : String) (requestedAlias : Option Json)
      (displayAlias : Json) (rpId fallbackHandle : String) (owner : OwnerToken)
  | registrationComplete (registrationRequestId : String)
  | registrationRelease (registrationRequestId : String)
  | deviceHandoff (handoffId : String) (register : Bool) (requestedAlias : Option Json)
      (prior : Option OwnerToken) (owner : OwnerToken)
  | deviceHandoffComplete (handoffId : String)
  | other

/-- A handler that waits for its call. -/
inductive Waiting where
  | options (registrationRequestId : String) (challenge : RegistrationChallenge)
  | complete (registrationRequestId : String) (challenge : RegistrationChallenge)

def Waiting.challenge : Waiting → RegistrationChallenge
  | options _ challenge | complete _ challenge => challenge

def fiveMinutes : Nat := 5 * 60 * 1000

/-- `GET /api/sl1e/registration/options`. -/
def registrationOptions (p : NamePlatform) (id : String) (typed : Option Json) (displayAlias : Json)
    (rpId fallbackHandle : String) (owner : OwnerToken) : RegistrarM (Option Waiting) := do
  let requestedAlias ← normalizeAlias p typed
  let expiresAtMs := (← dateNow) + fiveMinutes
  let waiting := some (.options id { userHandle := requestedAlias.getD fallbackHandle, requestedAlias,
                                     displayAlias, rpId, aliasReservationOwner := owner, expiresAtMs })
  match requestedAlias with
  | none => return waiting
  | some name => return if ← reserveAlias p name owner expiresAtMs then waiting else none

/-- `POST /api/sl1e/registration/complete`, up to the verification. -/
def registrationComplete (id : String) : RegistrarM (Option Waiting) := do
  return (← registrationChallenges.get id).map (.complete id)

/-- A registration ends, and gives its reservation back. -/
def closeRegistration (id : String) (challenge : RegistrationChallenge) : RegistrarM Unit := do
  releaseAliasReservation challenge.requestedAlias challenge.aliasReservationOwner
  registrationChallenges.delete id

/-- `POST /api/sl1e/registration/:registrationRequestId/release`. -/
def registrationRelease (id : String) : RegistrarM Unit := do
  match ← registrationChallenges.get id with
  | none => return
  | some challenge => closeRegistration id challenge

/-- `POST /api/sl1e/device-handoff`. -/
def deviceHandoff (p : NamePlatform) (id : String) (register : Bool) (typed : Option Json)
    (prior : Option OwnerToken) (owner : OwnerToken) : RegistrarM Unit := do
  let expiresAtMs := (← dateNow) + fiveMinutes
  if register then
    match ← (liftM (normalizeAlias p typed) : RegistrarM (Option String)) with
    | none => return
    | some name =>
      let reserved ← match prior with
        | some prior => transferAliasReservation p name prior owner expiresAtMs
        | none => reserveAlias p name owner expiresAtMs
      if reserved then deviceHandoffs.set id ⟨some name, some owner, true, expiresAtMs⟩
  else deviceHandoffs.set id ⟨none, none, true, expiresAtMs⟩

/-- `POST /api/sl1e/device-handoff/:handoffId/complete` with the token of the handoff. -/
def deviceHandoffComplete (id : String) : RegistrarM Unit := do
  match ← deviceHandoffs.get id with
  | none => return
  | some handoff =>
    if handoff.isPending then
      let expiresAtMs := (← dateNow) + 60 * 1000
      deviceHandoffs.set id { handoff with isPending := false, expiresAtMs }
      releaseAliasReservation handoff.requestedAlias handoff.aliasReservationOwner

/-- The first part of the handler of the request. -/
def startHandler (p : NamePlatform) (request : BrowserRequest) : RegistrarM (Option Waiting) := do
  cleanupSl1eArtifacts
  match request with
  | .registrationOptions id typed displayAlias rpId fallbackHandle owner =>
    registrationOptions p id typed displayAlias rpId fallbackHandle owner
  | .registrationComplete id => registrationComplete id
  | .registrationRelease id => do registrationRelease id; return none
  | .deviceHandoff id register typed prior owner => do
    deviceHandoff p id register typed prior owner; return none
  | .deviceHandoffComplete id => do deviceHandoffComplete id; return none
  | .other => return none

/-! ## Handlers after their call -/

/-- How the verification of a registration ends: with an exception, with a refusal, or with the
passkey. What follows the new identity in the handler may throw once more. -/
inductive Verification where
  | threw
  | notVerified
  | verified (stamp : Stamp) (entityAddress : String) (passkey : Passkey) (throwsLater : Bool)

def RegistrationChallenge.identity (challenge : RegistrationChallenge) : NewIdentity where
  userHandle := some (.str challenge.userHandle)
  requestedAlias := some ((challenge.requestedAlias.map Json.str).getD .null)
  displayAlias := some challenge.displayAlias
  rpId := some (.str challenge.rpId)

def finishRegistration (p : NamePlatform) (config : RealmConfig) (id : String)
    (challenge : RegistrationChallenge) : Verification → RegistrarM Unit
  | .threw => closeRegistration id challenge
  | .notVerified => return
  | .verified stamp entityAddress passkey throwsLater => do
    let ledger := (← get).ledger
    match completeRegistration p.toPlatform ledger stamp entityAddress challenge.identity passkey with
    | .error _ => closeRegistration id challenge
    | .ok none => return
    | .ok (some event) =>
      -- An exception of `applyEvent` leads to the same end.
      modify fun s => { s with ledger := after (applyEvent p.toPlatform config event) s.ledger }
      closeRegistration id challenge
      if throwsLater then closeRegistration id challenge

/-! ## The system -/

structure RegistrationSystem where
  registrar : Registrar
  waiting : List Waiting

/-- The server takes a request up. -/
def RegistrationSystem.start (p : NamePlatform) (request : BrowserRequest)
    (s : RegistrationSystem) : RegistrationSystem :=
  match startHandler p request s.registrar with
  | .ok waiting registrar => ⟨registrar, s.waiting ++ waiting.toList⟩
  | .error _ registrar => ⟨registrar, s.waiting⟩

/-- One step: a request comes in, or a call that a handler waits for ends. -/
inductive RegistrationStep (p : NamePlatform) (config : RealmConfig)
    (ok : Registrar → RegistrationChallenge → Verification → Prop) :
    RegistrationSystem → RegistrationSystem → Prop where
  | request {s : RegistrationSystem} (r : BrowserRequest) :
      RegistrationStep p config ok s (s.start p r)
  | optionsReady {registrar : Registrar} {before rest : List Waiting} (id : String)
      (challenge : RegistrationChallenge) :
      RegistrationStep p config ok ⟨registrar, before ++ .options id challenge :: rest⟩
        ⟨after (registrationChallenges.set id challenge) registrar, before ++ rest⟩
  | optionsFailed {registrar : Registrar} {before rest : List Waiting} (id : String)
      (challenge : RegistrationChallenge) :
      RegistrationStep p config ok ⟨registrar, before ++ .options id challenge :: rest⟩
        ⟨registrar, before ++ rest⟩
  | registered {registrar : Registrar} {before rest : List Waiting} (id : String)
      (challenge : RegistrationChallenge) (verification : Verification) :
      ok registrar challenge verification →
      RegistrationStep p config ok ⟨registrar, before ++ .complete id challenge :: rest⟩
        ⟨after (finishRegistration p config id challenge verification) registrar, before ++ rest⟩

/-- The server has just started on the ledger. -/
def RegistrationSystem.init (ledger : Ledger) (now : Nat) (ticks : Nat → Nat) : RegistrationSystem :=
  ⟨⟨ledger, now, ticks, .empty, .empty, .empty⟩, []⟩

end SimpleL1.Node
