import SimpleL1.Realm.Registry

/-!
# The hash-linked event history

`realmEventHashMaterial` reads an event's top-level fields and falls back to its
envelope; the hash covers the canonical text of the material, which includes the
previous event's hash. `verifyRealmEventHistory` recomputes the chain over the
events `isHashChainedRealmEvent` selects and skips the others. SHA-256 is a
parameter: a `Host` gives the hex digest of a text.
-/

namespace SimpleL1.Realm

open SimpleL1.Js

/-- What the code takes from Node's `crypto`: the hex digests of `createHash('sha256')` and of
`createHmac('sha256', key)`. -/
structure Host where
  sha256 : String → String
  hmac : String → String → String
  sha256_ne_empty : ∀ text, sha256 text ≠ ""

namespace Host

/-- The digest separates texts. -/
def CollisionFree (host : Host) : Prop := Function.Injective host.sha256

/-- A host with listed digests; a text that is not listed gets a digest that starts with `~`. -/
def ofTable (digests : List (String × String)) (macs : List ((String × String) × String))
    (h : ∀ p ∈ digests, p.2 ≠ "") : Host where
  sha256 text := (digests.lookup text).getD ("~" ++ text)
  hmac key text := (macs.lookup (key, text)).getD ""
  sha256_ne_empty text := by
    cases hl : digests.lookup text with
    | none => simp
    | some d => exact h _ (mem_of_lookup_eq_some hl)
where
  mem_of_lookup_eq_some {text d : String} {digests : List (String × String)}
      (h : digests.lookup text = some d) : (text, d) ∈ digests := by
    induction digests with
    | nil => cases h
    | cons p digests ih =>
      rw [List.lookup_cons] at h
      split at h
      · next heq => cases h; rw [beq_iff_eq.mp heq]; exact List.mem_cons_self
      · exact List.mem_cons_of_mem _ (ih h)

theorem no_digests : ∀ p ∈ ([] : List (String × String)), p.2 ≠ "" := nofun

theorem ofTable_collisionFree {digests : List (String × String)}
    {macs : List ((String × String) × String)} {h : ∀ p ∈ digests, p.2 ≠ ""}
    (hnodup : (digests.map Prod.snd).Nodup) (hhex : ∀ p ∈ digests, p.2.toList.head? ≠ some '~') :
    (ofTable digests macs h).CollisionFree := by
  have hlisted : ∀ {text d}, digests.lookup text = some d → ∀ text', d ≠ "~" ++ text' := by
    rintro text d hl text' rfl
    exact hhex _ (ofTable.mem_of_lookup_eq_some hl) (by simp)
  intro text text' heq
  simp only [ofTable] at heq
  cases hl : digests.lookup text with
  | none =>
    cases hl' : digests.lookup text' with
    | none =>
      rw [hl, hl'] at heq
      exact String.ext (by simpa using congrArg String.toList heq)
    | some d => rw [hl, hl'] at heq; exact absurd heq.symm (hlisted hl' _)
  | some d =>
    cases hl' : digests.lookup text' with
    | none => rw [hl, hl'] at heq; exact absurd heq (hlisted hl _)
    | some d' =>
      rw [hl, hl'] at heq
      have hpair := List.inj_on_of_nodup_map hnodup (ofTable.mem_of_lookup_eq_some hl)
        (ofTable.mem_of_lookup_eq_some hl') heq
      exact congrArg Prod.fst hpair

end Host

/-! ## Canonical encoding -/

mutual

def canonicalChars : Json → List Char
  | .null => ['n', 'u', 'l', 'l']
  | .arr xs => '[' :: joinComma (canonicalElems xs) ++ [']']
  | .obj fs =>
    '{' :: joinComma ((sortFields (canonicalValues fs)).map fun p => quote p.1 ++ ':' :: p.2) ++ ['}']
  | v => v.text

def canonicalElems : List Json → List (List Char)
  | [] => []
  | x :: xs => canonicalChars x :: canonicalElems xs

/-- The encoded value beside each key, before the keys are sorted. -/
def canonicalValues : List (String × Json) → List (String × List Char)
  | [] => []
  | (k, v) :: fs => (k, canonicalChars v) :: canonicalValues fs

end

def canonicalEncode (value : Json) : String := String.ofList (canonicalChars value)

/-! ## Events -/

namespace History

/-- `event.envelope` when it is an object, else the event itself. -/
def eventEnvelope (event : Json) : Json :=
  match event.prop "envelope" with
  | some v => if v.isObject then v else event
  | none => event

end History

/-- `event.payload` when it is an object, else `{}`. -/
def eventPayload (event : Json) : Json :=
  match event.prop "payload" with
  | some v => if v.isObject then v else .obj []
  | none => .obj []

/-- `event.type || envelope.type`. -/
def chainedType (event : Json) : Option Json :=
  or (event.prop "type") ((History.eventEnvelope event).prop "type")

def isHashChainedRealmEvent (event : Json) : JsM Bool := do
  if strictEq (event.prop "realm_event") (some (.bool true)) then
    hasRealmEventContract (chainedType event)
  else if ← hasRealmEventContract (chainedType event) then
    hasRealmEventContract (chainedType event)
  else return false

/-- The hash material without the previous hash. -/
structure HashedFields where
  authority_reference : Json
  payload : Json
  sequence : Number
  signer : Json
  type : Json
  version : Number

/-- `x || ''`. -/
def orEmpty (a : Option Json) : Json := (or a (some (.str ""))).getD .null

/-- `event.sequence ?? envelope.sequence`. -/
def sequenceField (event : Json) : Option Json :=
  nullish (event.prop "sequence") ((History.eventEnvelope event).prop "sequence")

def hashedFields (event : Json) : JsM HashedFields := do
  let envelope := History.eventEnvelope event
  let sequence ← toNumber (sequenceField event)
  let version ← eventVersion event envelope
  return {
    authority_reference := orEmpty
      (or (event.prop "authority_reference") (envelope.prop "authority_reference"))
    payload := eventPayload event
    sequence := sequence
    signer := orEmpty (or (event.prop "signer") (envelope.prop "signer"))
    type := orEmpty (chainedType event)
    version := version }

/-- `realmEventHashMaterial(event, previousEventHash)`, from the fields it reads. -/
def HashedFields.material (f : HashedFields) (previousEventHash : Json) : Json :=
  .obj [("authority_reference", f.authority_reference), ("payload", f.payload),
    ("previous_event_hash", previousEventHash), ("sequence", .num f.sequence),
    ("signer", f.signer), ("type", f.type), ("version", .num f.version)]

def realmEventHashMaterial (event previousEventHash : Json) : JsM Json :=
  (hashedFields event).map (·.material previousEventHash)

def calculateRealmEventHash (host : Host) (event previousEventHash : Json) : JsM String :=
  (realmEventHashMaterial event previousEventHash).map fun m => host.sha256 (canonicalEncode m)

/-- `toLowerCase` on ASCII, which the names of the event types are. -/
def toLowerCase (s : String) : String := String.ofList (s.toList.map Char.toLower)

/-- `s.slice(0, 16)` of a digest. -/
def slice16 (s : String) : String := String.ofList (s.toList.take 16)

def buildRealmEventId (event : Json) (currentEventHash : String) : JsM String := do
  let type := or (chainedType event) (some (.str "REALM_EVENT"))
  let sequence ← toNumber (sequenceField event)
  match type with
  | some (.str t) =>
    return "realm_evt_" ++ sequence.toString ++ "_" ++ toLowerCase t ++ "_" ++ slice16 currentEventHash
  | _ => throw (.typeError "type.toLowerCase is not a function")

/-! ## Chains -/

/-- `latestRealmEventHash` on the log read from its end. -/
def latestHashFrom : List Json → JsM Json
  | [] => .ok .null
  | event :: older => do
    if ← isHashChainedRealmEvent event then return orNull (event.prop "current_event_hash")
    else latestHashFrom older

def latestRealmEventHash (eventLog : List Json) : JsM Json := latestHashFrom eventLog.reverse

/-- `{ ...event, id, event_id, previous_event_hash, current_event_hash }`. -/
def attachRealmEventHashChain (host : Host) (event : Fields) (previousEventHash : Json) :
    JsM Fields := do
  let currentEventHash ← calculateRealmEventHash host (.obj event) previousEventHash
  let eventId ← buildRealmEventId (.obj event) currentEventHash
  return (((event.set "id" (.str eventId)).set "event_id" (.str eventId)).set
    "previous_event_hash" previousEventHash).set "current_event_hash" (.str currentEventHash)

/-- The text of `event.sequence` in an error. -/
def sequenceError (code : String) (event : Json) : JsM Error :=
  (toStr (event.prop "sequence")).map fun s => .error (code ++ ":sequence_" ++ s)

/-- One round of the loop: the hash the next chained event must name. -/
def verifyEvent (host : Host) (expectedPreviousHash event : Json) : JsM Json := do
  if !(← isHashChainedRealmEvent event) then return expectedPreviousHash
  else if !strictEq (event.prop "previous_event_hash") (some expectedPreviousHash) then
    throw (← sequenceError "REALM_EVENT_CHAIN_BROKEN" event)
  else
    let recalculatedHash ← calculateRealmEventHash host event expectedPreviousHash
    if !strictEq (event.prop "current_event_hash") (some (.str recalculatedHash)) then
      throw (← sequenceError "REALM_EVENT_HASH_MISMATCH" event)
    else
      let expectedEventId ← buildRealmEventId event recalculatedHash
      if !strictEq (event.prop "event_id") (some (.str expectedEventId))
          || !strictEq (event.prop "id") (some (.str expectedEventId)) then
        throw (← sequenceError "REALM_EVENT_ID_MISMATCH" event)
      else return .str recalculatedHash

/-- The loop of `verifyRealmEventHistory`, from a given expected hash. -/
def verifyFrom (host : Host) : Json → List Json → JsM Json
  | expectedPreviousHash, [] => .ok expectedPreviousHash
  | expectedPreviousHash, event :: rest => do
    let next ← verifyEvent host expectedPreviousHash event
    verifyFrom host next rest

def verifyRealmEventHistory (host : Host) (eventLog : List Json) : JsM Bool :=
  (verifyFrom host .null eventLog).map fun _ => true

end SimpleL1.Realm
