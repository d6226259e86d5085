import SimpleL1.Realm.Chain
import SimpleL1.Realm.Validator

/-!
# What acceptance gives

`Admitted` lists what the checks of `validateRealmEventProposal` establish, and
`acceptedEvent` is the event it builds: `validateRealmEventProposal_accepted`
says these are all there is to an accepted proposal. An accepted event is chained,
canonical, attached to the digest before it, and replay reads back the
envelope and the payload that were checked.
-/

namespace SimpleL1.Realm

open SimpleL1.Js

/-! ## Normalised proposals -/

/-- The strings of a normalised envelope are trimmed. -/
structure Envelope.Trimmed (envelope : Envelope) : Prop where
  type : trim envelope.type = envelope.type
  signer : trim envelope.signer = envelope.signer
  authority_reference : trim envelope.authority_reference = envelope.authority_reference

theorem normalize_trimmed {now : String} {proposal : Json} {n : NormalizedProposal}
    (h : normalizeRealmEventProposal now proposal = .ok n) : n.envelope.Trimmed := by
  unfold normalizeRealmEventProposal at h
  split at h
  · cases h
  · simp only [bind_eq_ok, pure_eq_ok, Except.ok.injEq] at h
    obtain ⟨type, -, signer, -, ref, -, sequence, -, rfl⟩ := h
    exact ⟨trim_trim _, trim_trim _, trim_trim _⟩

/-! ## The checks -/

/-- What the checks establish about a proposal of type `t`, in the projection `state`. -/
structure Admitted (host : Host) (ledger : Ledger) (n : NormalizedProposal) (skip : Bool)
    (t : EventType) (state : AuthorityState) : Prop where
  type : n.envelope.type = t.name
  signer : trim n.envelope.signer ≠ ""
  authority_reference : trim n.envelope.authority_reference ≠ ""
  integer : n.envelope.sequence.isInteger = true
  positive : n.envelope.sequence.ltOne = false
  timestamp : isNonEmptyString (some n.envelope.timestamp) = true
  payload : validatePayload t.name n.payload = []
  expected : skip = false → n.envelope.sequence = nextExpectedSequence ledger
  previous : validatePreviousEventHash ledger n.envelope.previous_event_hash = .ok []
  current : currentAuthorityStateForLedger host ledger = .ok state
  policy : canSignerSatisfyAuthorityPolicy state n.envelope.signer
    (realmEventRegistry t).requiredAuthority = true
  rule : (realmEventRegistry t).validateTransition state n.envelope n.payload = .ok []

theorem trim_name_ne_empty (t : EventType) : trim t.name ≠ "" := by cases t <;> decide

theorem registered_of_validatePayload {type : String} {payload : Fields}
    (h : validatePayload type payload = []) : ∃ t : EventType, type = t.name := by
  unfold validatePayload at h
  split at h
  · next t ht => exact ⟨t, registryLookup_eq_contract.mp ht⟩
  · cases h

theorem ite_nil {c : Prop} [Decidable c] {x : String} :
    (if c then ([] : List String) else [x]) = [] ↔ c := by split <;> simp [*]

theorem ite_nil' {c : Prop} [Decidable c] {x : String} :
    (if c then [x] else ([] : List String)) = [] ↔ ¬c := by split <;> simp [*]

theorem validateEnvelope_eq_nil {envelope : Envelope} {t : EventType} (ht : envelope.type = t.name) :
    validateEnvelope envelope = [] ↔ trim envelope.signer ≠ "" ∧ trim envelope.authority_reference ≠ ""
      ∧ envelope.sequence.isInteger = true ∧ envelope.sequence.ltOne = false
      ∧ isNonEmptyString (some envelope.timestamp) = true := by
  unfold validateEnvelope
  simp only [ht, registryLookup_name, envelopeRequired, Option.isSome_some,
    List.append_eq_nil_iff, ite_nil, ite_nil', sharedEnvelopeRequired, isNonEmptyString]
  simp [and_assoc, trim_name_ne_empty]

theorem canAuthorityIssueEvent_name (state : AuthorityState) (signer : String) (t : EventType) :
    canAuthorityIssueEvent state signer t.name =
      canSignerSatisfyAuthorityPolicy state signer (realmEventRegistry t).requiredAuthority := by
  simp only [canAuthorityIssueEvent, registryLookup_name]

theorem validateAuthorityTransition_eq_nil {state : AuthorityState} {envelope : Envelope}
    {payload : Fields} {t : EventType} (ht : envelope.type = t.name) :
    validateAuthorityTransition state envelope payload = .ok [] ↔
      canSignerSatisfyAuthorityPolicy state envelope.signer
        (realmEventRegistry t).requiredAuthority = true
      ∧ (realmEventRegistry t).validateTransition state envelope payload = .ok [] := by
  unfold validateAuthorityTransition
  simp only [ht, registryLookup_name, canAuthorityIssueEvent_name, bind_eq_ok, pure_eq_ok,
    Except.ok.injEq, List.append_eq_nil_iff, ite_nil]
  constructor
  · rintro ⟨codes, hcodes, hpolicy, rfl⟩; exact ⟨hpolicy, hcodes⟩
  · rintro ⟨hpolicy, hcodes⟩; exact ⟨[], hcodes, hpolicy, rfl⟩

theorem validateSequence_eq_nil {ledger : Ledger} {n : Number} (hn : n.isInteger = true) :
    validateSequence ledger n = [] ↔ n = nextExpectedSequence ledger := by
  have hnan : n ≠ .nan := by rintro rfl; cases hn
  simp only [validateSequence, ite_nil, strictEq, Bool.and_eq_true, beq_iff_eq, bne_iff_ne]
  exact ⟨fun h => h.1, fun h => ⟨h, hnan⟩⟩

/-- No reason code is left exactly when the proposal is admitted. -/
theorem proposalReasonCodes_eq_nil {host : Host} {ledger : Ledger} {n : NormalizedProposal}
    {skip : Bool} :
    proposalReasonCodes host ledger n skip = .ok [] ↔
      ∃ t state, Admitted host ledger n skip t state := by
  unfold proposalReasonCodes
  constructor
  · intro h
    simp only [pure_eq_ok] at h
    split at h
    · next hne => exact absurd (Except.ok.inj h) hne
    next hcontract =>
    rw [not_not, List.append_eq_nil_iff] at hcontract
    obtain ⟨t, ht⟩ := registered_of_validatePayload hcontract.2
    obtain ⟨hsigner, href, hint, hpos, htime⟩ := (validateEnvelope_eq_nil ht).mp hcontract.1
    generalize hseq : (if skip = true then [] else validateSequence ledger n.envelope.sequence) =
      codes at h
    split at h
    · next hne => exact absurd (Except.ok.inj h) hne
    next hnil =>
    obtain ⟨previous, hprev, h⟩ := bind_eq_ok.mp h
    split at h
    · next hne => exact absurd (Except.ok.inj h) hne
    next hcodes =>
    rw [not_not] at hcodes hnil
    obtain ⟨state, hstate, h⟩ := bind_eq_ok.mp h
    obtain ⟨hpolicy, hrule⟩ := (validateAuthorityTransition_eq_nil ht).mp h
    refine ⟨t, state, ht, hsigner, href, hint, hpos, htime, ht ▸ hcontract.2, ?_, hcodes ▸ hprev,
      hstate, hpolicy, hrule⟩
    rintro rfl
    exact (validateSequence_eq_nil hint).mp (hseq.trans hnil)
  · rintro ⟨t, state, h⟩
    have henv := (validateEnvelope_eq_nil h.type).mpr
      ⟨h.signer, h.authority_reference, h.integer, h.positive, h.timestamp⟩
    have hseq : (if skip then [] else validateSequence ledger n.envelope.sequence) = [] := by
      cases skip with
      | true => rfl
      | false => exact (validateSequence_eq_nil h.integer).mpr (h.expected rfl)
    simp only [henv, h.type, h.payload, List.append_nil, hseq, h.previous, h.current, ok_bind,
      ne_eq, not_true, if_false]
    exact (validateAuthorityTransition_eq_nil h.type).mpr ⟨h.policy, h.rule⟩

/-! ## The accepted event -/

/-- What the history hashes of an accepted proposal. -/
def NormalizedProposal.hashed (n : NormalizedProposal) : HashedFields where
  authority_reference := .str n.envelope.authority_reference
  payload := .obj n.payload
  sequence := n.envelope.sequence
  signer := .str n.envelope.signer
  type := .str n.envelope.type
  version := .int 1

/-- The hash of the accepted event after the previous hash `prev`. -/
def acceptedHash (host : Host) (n : NormalizedProposal) (prev : Json) : String :=
  host.sha256 (canonicalEncode (n.hashed.material prev))

def acceptedId (host : Host) (n : NormalizedProposal) (prev : Json) : String :=
  "realm_evt_" ++ n.envelope.sequence.toString ++ "_" ++ toLowerCase n.envelope.type ++ "_"
    ++ slice16 (acceptedHash host n prev)

/-- The event acceptance stores after the previous hash `prev`. -/
def acceptedEvent (host : Host) (clock : Clock) (n : NormalizedProposal) (prev : Json) : Json :=
  .obj (acceptedFields clock n ++ [("id", .str (acceptedId host n prev)),
    ("event_id", .str (acceptedId host n prev)), ("previous_event_hash", prev),
    ("current_event_hash", .str (acceptedHash host n prev))])

theorem contractVersion_eq (type : String) : contractVersion type = .int 1 := by
  unfold contractVersion
  split
  · next t _ => cases t <;> rfl
  · rfl

/-- The fields of an accepted proposal an event shows, before or after it is chained. -/
structure Shows (event : Json) (n : NormalizedProposal) : Prop where
  type : event.prop "type" = some (.str n.envelope.type)
  realm_event : event.prop "realm_event" = some (.bool true)
  version : event.prop "version" = some (.num (.int 1))
  envelope : event.prop "envelope" = some n.envelope.toJson
  payload : event.prop "payload" = some (.obj n.payload)
  signer : event.prop "signer" = some (.str n.envelope.signer)
  authority_reference :
    event.prop "authority_reference" = some (.str n.envelope.authority_reference)
  sequence : event.prop "sequence" = some (.num n.envelope.sequence)
  timestamp : event.prop "timestamp" = some n.envelope.timestamp

theorem shows_acceptedFields (clock : Clock) (n : NormalizedProposal) :
    Shows (.obj (acceptedFields clock n)) n := by
  constructor <;> simp [acceptedFields, contractVersion_eq]

theorem shows_acceptedEvent (host : Host) (clock : Clock) (n : NormalizedProposal) (prev : Json) :
    Shows (acceptedEvent host clock n prev) n := by
  constructor <;> simp [acceptedEvent, acceptedFields, contractVersion_eq]

namespace Shows

variable {event : Json} {n : NormalizedProposal}

theorem historyEnvelope (h : Shows event n) : History.eventEnvelope event = n.envelope.toJson := by
  simp only [History.eventEnvelope, h.envelope]; rfl

theorem projectionEnvelope (h : Shows event n) :
    Projection.eventEnvelope event = .ok (some n.envelope.toJson) := by
  simp only [Projection.eventEnvelope, h.envelope]; rfl

theorem eventPayload_eq (h : Shows event n) : eventPayload event = .obj n.payload := by
  simp only [eventPayload, h.payload]; rfl

theorem chainedType_eq (h : Shows event n) (hne : n.envelope.type ≠ "") :
    chainedType event = some (.str n.envelope.type) := by
  rw [chainedType, h.type, or_str hne]

theorem sequenceField_eq (h : Shows event n) :
    sequenceField event = some (.num n.envelope.sequence) := by
  rw [sequenceField, h.sequence, nullish_num]

theorem eventVersion_eq (h : Shows event n) (envelope : Json) :
    eventVersion event envelope = .ok (.int 1) := by
  rw [eventVersion, h.version, nullish_num, toNumber_num]

end Shows

theorem orEmpty_or_self (s : String) :
    orEmpty (or (some (.str s)) (some (.str s))) = .str s := by
  by_cases h : s = ""
  · subst h; rfl
  · rw [or_str h, orEmpty, or_str h]; rfl

theorem Shows.hashed {event : Json} {n : NormalizedProposal} (h : Shows event n) :
    hashedFields event = .ok n.hashed := by
  have htype : orEmpty (chainedType event) = .str n.envelope.type := by
    rw [chainedType, h.type, h.historyEnvelope]
    exact orEmpty_or_self _
  simp only [hashedFields, h.sequenceField_eq, h.eventVersion_eq, toNumber_num, ok_bind,
    htype, h.eventPayload_eq, h.historyEnvelope, h.authority_reference, h.signer]
  simp only [NormalizedProposal.hashed, Envelope.toJson, Json.prop_obj, Fields.get_cons,
    Fields.get_nil, String.reduceEq, if_true, if_false, orEmpty_or_self]
  rfl

theorem Shows.id {event : Json} {n : NormalizedProposal} (h : Shows event n)
    (hne : n.envelope.type ≠ "") (hash : String) :
    buildRealmEventId event hash = .ok ("realm_evt_" ++ n.envelope.sequence.toString ++ "_"
      ++ toLowerCase n.envelope.type ++ "_" ++ slice16 hash) := by
  simp only [buildRealmEventId, h.chainedType_eq hne, h.sequenceField_eq, or_str hne, toNumber_num,
    ok_bind]
  rfl

theorem Shows.chained {event : Json} {n : NormalizedProposal} {t : EventType} (h : Shows event n)
    (ht : n.envelope.type = t.name) : isHashChainedRealmEvent event = .ok true := by
  have hne : n.envelope.type ≠ "" := ht ▸ t.name_ne_empty
  have hcontract : hasRealmEventContract (chainedType event) = .ok true := by
    rw [h.chainedType_eq hne, ht, hasRealmEventContract, getRealmEventContract, strOrEmpty_str]
    simp [Except.map, registryLookup_name]
  simp only [isHashChainedRealmEvent, h.realm_event, hcontract]
  rfl

theorem Shows.canonical {event : Json} {n : NormalizedProposal} (h : Shows event n) :
    isCanonicalRealmEvent event = .ok true := by
  simp only [isCanonicalRealmEvent, h.realm_event]
  rfl

/-- Replay runs the handler of the accepted type on the accepted envelope and payload. -/
theorem Shows.replay {event : Json} {n : NormalizedProposal} {t : EventType} (h : Shows event n)
    (ht : n.envelope.type = t.name) (s : AuthorityState) :
    replayEvent s event = (realmEventRegistry t).apply s event n.envelope.toJson
      ((realmEventRegistry t).migrationAdapter (.obj n.payload)) := by
  have hversion : (realmEventRegistry t).version = .int 1 := by cases t <;> rfl
  have htype : n.envelope.toJson.prop "type" = some (.str t.name) := by
    rw [← ht]; rfl
  simp only [replayEvent, h.canonical, ok_bind, if_true, applyAuthorityEvent, h.projectionEnvelope,
    htype, getRealmEventContract, strOrEmpty_str, Except.map, registryLookup_name,
    interpretRealmEvent, h.eventVersion_eq, hversion, h.eventPayload_eq, applyContract, pure_eq_ok]

theorem Fields.set_of_absent {fs : Fields} {k : String} (h : fs.get k = none) (v : Json) :
    fs.set k v = fs ++ [(k, v)] := by
  induction fs with
  | nil => rfl
  | cons p fs ih =>
    obtain ⟨k', v'⟩ := p
    rw [Fields.get_cons] at h
    split at h
    · cases h
    · next hne => rw [Fields.set, if_neg (Ne.symm hne), ih h]; rfl

theorem attach_acceptedFields (host : Host) (clock : Clock) {n : NormalizedProposal}
    (hne : n.envelope.type ≠ "") (prev : Json) :
    (attachRealmEventHashChain host (acceptedFields clock n) prev).map Json.obj =
      .ok (acceptedEvent host clock n prev) := by
  have hshows := shows_acceptedFields clock n
  have hhash : calculateRealmEventHash host (.obj (acceptedFields clock n)) prev =
      .ok (acceptedHash host n prev) :=
    calculateRealmEventHash_eq_ok.mpr ⟨_, hshows.hashed, rfl⟩
  simp only [attachRealmEventHashChain, hhash, hshows.id hne, ok_bind]
  rfl

theorem buildAcceptedRealmEvent_eq_ok {host : Host} {clock : Clock} {n : NormalizedProposal}
    (hne : n.envelope.type ≠ "") {ledger : Ledger} {event : Json} :
    buildAcceptedRealmEvent host clock n ledger = .ok event ↔
      ∃ prev, latestRealmEventHash ledger.event_log = .ok prev
        ∧ event = acceptedEvent host clock n prev := by
  have hattach := attach_acceptedFields host clock hne
  unfold buildAcceptedRealmEvent
  simp only [bind_eq_ok, pure_eq_ok, Except.ok.injEq]
  constructor
  · rintro ⟨prev, hprev, fields, hfields, rfl⟩
    have := hattach prev
    rw [hfields] at this
    exact ⟨prev, hprev, Except.ok.inj this⟩
  · rintro ⟨prev, hprev, rfl⟩
    obtain ⟨fields, hfields, hobj⟩ := map_eq_ok.mp (hattach prev)
    exact ⟨prev, hprev, fields, hfields, hobj⟩

/-- An accepted event is attached to the digest it was accepted at. -/
theorem attached_acceptedEvent (host : Host) (clock : Clock) {n : NormalizedProposal}
    (hne : n.envelope.type ≠ "") (d : Option String) :
    Attached host d (acceptedEvent host clock n (digest d)) n.hashed := by
  have hshows := shows_acceptedEvent host clock n (digest d)
  refine ⟨hshows.hashed, ?_, ?_, acceptedId host n (digest d), ?_, ?_, ?_⟩
  · simp [acceptedEvent, acceptedFields]
  · simp [acceptedEvent, acceptedFields, link, digest, acceptedHash]
  · exact hshows.id hne _
  · simp [acceptedEvent, acceptedFields]
  · simp [acceptedEvent, acceptedFields]

/-- An accepted proposal: admitted, and stored as `acceptedEvent`. -/
theorem validateRealmEventProposal_accepted {host : Host} {clock : Clock} {ledger : Ledger}
    {proposal event : Json} {n : NormalizedProposal} {skip : Bool} :
    validateRealmEventProposal host clock ledger proposal skip = .ok (.accepted event n) ↔
      normalizeRealmEventProposal clock.now proposal = .ok n
      ∧ (∃ t state, Admitted host ledger n skip t state)
      ∧ ∃ prev, latestRealmEventHash ledger.event_log = .ok prev
        ∧ event = acceptedEvent host clock n prev := by
  unfold validateRealmEventProposal
  constructor
  · intro h
    obtain ⟨n', hn, h⟩ := bind_eq_ok.mp h
    obtain ⟨codes, hcodes, h⟩ := bind_eq_ok.mp h
    split at h
    · cases h
    next hnil =>
    rw [not_not] at hnil
    subst hnil
    obtain ⟨event', hevent, h⟩ := bind_eq_ok.mp h
    cases h
    obtain ⟨t, state, had⟩ := proposalReasonCodes_eq_nil.mp hcodes
    have hne : n.envelope.type ≠ "" := had.type ▸ t.name_ne_empty
    exact ⟨hn, ⟨t, state, had⟩, (buildAcceptedRealmEvent_eq_ok hne).mp hevent⟩
  · rintro ⟨hn, ⟨t, state, had⟩, hevent⟩
    have hne : n.envelope.type ≠ "" := had.type ▸ t.name_ne_empty
    rw [hn, ok_bind, proposalReasonCodes_eq_nil.mpr ⟨t, state, had⟩, ok_bind, if_neg (by simp),
      (buildAcceptedRealmEvent_eq_ok hne).mpr hevent]
    rfl

end SimpleL1.Realm
