import SimpleL1.Interpreter.History

/-!
# The interpreter's projection

`buildIndependentAuthorityState` verifies the history and folds the realm events
of the two known types over a projection kept as JSON. The fallbacks are those of
`or_else`: a key that is present wins, whatever its value.
-/

namespace SimpleL1.Interpreter

open SimpleL1.Js SimpleL1.Realm

def emptyProjection : Json :=
  .obj [("rootAuthority", .null), ("recoveryAuthorities", .arr []), ("devices", .arr []),
    ("sessions", .arr []), ("federationTrusts", .arr []), ("lastSequence", .num (.int 0))]

/-- `v[k] = x` of an object, which a projection is. -/
def setField : Json → String → Json → Json
  | .obj fs, k, x => .obj (Fields.set fs k x)
  | v, _, _ => v

def independentEnvelope (event : Json) : Json := readEnvelope event

def independentPayload (event : Json) : Json := ((event.prop "payload").filter isObject).getD .null

def requireIndependentV1 (event envelope : Json) : Fallible Unit :=
  let version := readI64 ((event.prop "version").or (envelope.prop "version")) 1
  if version ≠ 1 then
    let eventType := ((envelope.prop "type").bind asStr).getD "UNKNOWN"
    .error ("INDEPENDENT_INTERPRETER_UNSUPPORTED_EVENT_VERSION:" ++ eventType ++ ":version_"
      ++ i64Text version)
  else .ok ()

section
variable (projection event envelope payload : Json)

def issuedAt : Json := ((envelope.prop "timestamp").or (event.prop "timestamp")).getD .null

def issuedEvent : Json := ((event.prop "id").or (event.prop "event_id")).getD .null

def applyRootAuthorityCreated : Json :=
  let rootId := ((((payload.prop "root_id").or (envelope.prop "authority_reference")).or
    (envelope.prop "signer")).bind asStr).getD ""
  let authorityRef := (((envelope.prop "authority_reference").or (envelope.prop "signer")).bind
    asStr).getD ""
  let sequence := readI64 (envelope.prop "sequence") 0
  let next := setField projection "rootAuthority" (.obj [("id", .str rootId),
    ("authorityRef", .str authorityRef), ("status", .str "active"),
    ("issuedAt", issuedAt event envelope), ("issuedEvent", issuedEvent event)])
  setField next "lastSequence" (.num (.int sequence))

def issuedDeviceId : String :=
  (((((payload.prop "device_id").or (payload.prop "device")).or (payload.prop "authority_ref")).or
    (payload.prop "device_authority")).bind asStr).getD ""

/-- A key that is present but no string gives the empty name. -/
def issuedAuthorityRef : String :=
  ((((payload.prop "authority_ref").or (payload.prop "device_authority")).map asStr).getD
    (some ("device:" ++ issuedDeviceId payload))).getD ""

def applyDeviceKeyIssued : Json :=
  let deviceId := issuedDeviceId payload
  let authorityRef := issuedAuthorityRef payload
  let publicKey := ((payload.prop "public_key").or (payload.prop "publicKey")).getD .null
  let sequence := readI64 (envelope.prop "sequence") 0
  let devices := (((projection.prop "devices").bind asArray).getD []).filter fun device =>
    (device.prop "id").bind asStr != some deviceId
      && (device.prop "authorityRef").bind asStr != some authorityRef
  let nextDevices := devices ++ [.obj [("id", .str deviceId), ("authority", .str authorityRef),
    ("authorityRef", .str authorityRef), ("status", .str "active"), ("publicKey", publicKey),
    ("issuedAt", issuedAt event envelope), ("issuedEvent", issuedEvent event),
    ("revokedAt", .null), ("revokedEvent", .null)]]
  setField (setField projection "devices" (.arr nextDevices)) "lastSequence" (.num (.int sequence))

end

/-- One round of the fold. -/
def interpretEvent (projection event : Json) : Fallible Json :=
  if (event.prop "realm_event").bind asBool ≠ some true then .ok projection
  else
    let envelope := independentEnvelope event
    let payload := independentPayload event
    match (((envelope.prop "type").or (event.prop "type")).bind asStr).getD "" with
    | "ROOT_AUTHORITY_CREATED" => do
      requireIndependentV1 event envelope
      return applyRootAuthorityCreated projection event envelope payload
    | "DEVICE_KEY_ISSUED" => do
      requireIndependentV1 event envelope
      return applyDeviceKeyIssued projection event envelope payload
    | other => .error ("INDEPENDENT_INTERPRETER_UNKNOWN_EVENT_TYPE:" ++ other)

def interpretFrom (projection : Json) (eventLog : List Json) : Fallible Json :=
  eventLog.foldlM interpretEvent projection

def buildIndependentAuthorityState (host : Host) (serde : Serde) (eventLog : List Json) :
    Fallible Json := do
  verifyRealmEventHistory host serde eventLog
  interpretFrom emptyProjection eventLog

end SimpleL1.Interpreter
