import SimpleL1.Interpreter.Canonical

/-!
# The history in the interpreter

`verifyRealmEventHistory` recomputes the chain of the events of the two types the
interpreter knows. A field is read at the top level, else from the envelope, and
a value of another type than the expected one reads as the default.
-/

namespace SimpleL1.Interpreter

open SimpleL1.Js SimpleL1.Realm

/-- `Result<T, String>`. -/
abbrev Fallible := Except String

namespace History

def knownEventTypes : List String := ["ROOT_AUTHORITY_CREATED", "DEVICE_KEY_ISSUED"]

def eventEnvelope (event : Json) : Json := readEnvelope event

def eventPayload (event : Json) : Json := ((event.prop "payload").filter isObject).getD .null

end History

def hasRealmEventContract (eventType : String) : Bool := History.knownEventTypes.contains eventType

/-- `event.get(k).or_else(|| envelope.get(k))`. -/
def chainedField (event : Json) (k : String) : Option Json :=
  (event.prop k).or ((History.eventEnvelope event).prop k)

/-- The same as text, with a default. -/
def chainedText (event : Json) (k default : String) : String :=
  ((chainedField event k).bind asStr).getD default

/-- The range of `i64`. -/
def clampI64 (n : Int) : Int := max (-2 ^ 63) (min n (2 ^ 63 - 1))

/-- `x as i64`: the fraction is dropped, a value out of range is clamped, `NaN` is 0. -/
def asI64 : Number → Int
  | .nan => 0
  | .infinity neg => if neg then -2 ^ 63 else 2 ^ 63 - 1
  | .int n => clampI64 n
  | .dec m k => clampI64 (m.tdiv (10 ^ (k + 1)))

/-- `v.and_then(Value::as_f64).unwrap_or(default) as i64`. -/
def readI64 (v : Option Json) (default : Int) : Int := asI64 ((v.bind asF64).getD (.int default))

/-- An `i64` as `format!` writes it. -/
def i64Text (n : Int) : String := String.ofList (Number.signChars n ++ Number.digits n.natAbs)

def isHashChainedRealmEvent (event : Json) : Bool :=
  let eventType := chainedText event "type" ""
  let realmEvent := ((event.prop "realm_event").bind asBool).getD false
  hasRealmEventContract eventType && (realmEvent || hasRealmEventContract eventType)

def realmEventHashMaterial (event : Json) (previousEventHash : Option String) : Json :=
  .obj [("authority_reference", .str (chainedText event "authority_reference" "")),
    ("payload", History.eventPayload event),
    ("previous_event_hash", (previousEventHash.map Json.str).getD .null),
    ("sequence", .num (.int (readI64 (chainedField event "sequence") 0))),
    ("signer", .str (chainedText event "signer" "")),
    ("type", .str (chainedText event "type" "")),
    ("version", .num (.int (readI64 (chainedField event "version") 1)))]

/-- Both sides hash with SHA-256 and write the digest as hexadecimal digits. -/
def calculateRealmEventHash (host : Host) (serde : Serde) (event : Json)
    (previousEventHash : Option String) : String :=
  host.sha256 (canonicalEncode serde (realmEventHashMaterial event previousEventHash))

def buildRealmEventId (event : Json) (currentEventHash : String) : String :=
  "realm_evt_" ++ i64Text (readI64 (chainedField event "sequence") 0) ++ "_"
    ++ toLowerCase (chainedText event "type" "REALM_EVENT") ++ "_" ++ slice16 currentEventHash

def chainError (code : String) (event : Json) : String :=
  code ++ ":sequence_" ++ i64Text (readI64 (chainedField event "sequence") 0)

/-- One round of the loop: the hash the next chained event must name. -/
def verifyEvent (host : Host) (serde : Serde) (expectedPreviousHash : Option String) (event : Json) :
    Fallible (Option String) :=
  if !isHashChainedRealmEvent event then .ok expectedPreviousHash
  else if (event.prop "previous_event_hash").bind asStr ≠ expectedPreviousHash then
    .error (chainError "REALM_EVENT_CHAIN_BROKEN" event)
  else
    let recalculatedHash := calculateRealmEventHash host serde event expectedPreviousHash
    let currentHash := ((event.prop "current_event_hash").bind asStr).getD ""
    if currentHash ≠ recalculatedHash then .error (chainError "REALM_EVENT_HASH_MISMATCH" event)
    else
      let expectedEventId := buildRealmEventId event recalculatedHash
      let eventId := ((event.prop "event_id").bind asStr).getD ""
      let id := ((event.prop "id").bind asStr).getD ""
      if eventId ≠ expectedEventId ∨ id ≠ expectedEventId then
        .error (chainError "REALM_EVENT_ID_MISMATCH" event)
      else .ok (some recalculatedHash)

/-- The loop, with the hash it ends at. -/
def verifyFrom (host : Host) (serde : Serde) (expectedPreviousHash : Option String)
    (eventLog : List Json) : Fallible (Option String) :=
  eventLog.foldlM (verifyEvent host serde) expectedPreviousHash

def verifyRealmEventHistory (host : Host) (serde : Serde) (eventLog : List Json) : Fallible Unit :=
  (verifyFrom host serde none eventLog).map fun _ => ()

theorem asI64_int {n : Int} (h : 0 ≤ n) (hlt : n < 2 ^ 63) : asI64 (.int n) = n := by
  simp only [asI64, clampI64]
  omega

theorem i64Text_eq {n : Int} (h : 0 ≤ n) (hlt : n < 2 ^ 63) : i64Text n = (Number.int n).toString := by
  have hsmall : n.natAbs < 10 ^ 21 := by omega
  simp only [i64Text, Number.toString, Number.chars, hsmall, if_true]

end SimpleL1.Interpreter
