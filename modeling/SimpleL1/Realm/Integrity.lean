import SimpleL1.Realm.Snapshot

/-!
# Integrity checks

`verifyRealmIntegrity` checks a ledger against its own log: the chain, the live
projection against replay (by hash), a snapshot, the events and heads the
federation trusts refer to, and the events command records refer to. A trust of
a reachable ledger names the event that established it and carries its head, so
the trusts pass unless their realm is called like a property of `Object.prototype`.
-/

namespace SimpleL1.Realm

open SimpleL1.Js SimpleL1.Lib

def calculateProjectionHash (host : Host) (projection : AuthorityState) : String :=
  host.sha256 (canonicalEncode (AuthorityState.codec.encode projection))

inductive CheckStatus where
  | pass
  | fail
  | warning
  | skip
  deriving DecidableEq, Repr

structure Check where
  name : String
  status : CheckStatus
  code : Option String := none
  deriving DecidableEq, Repr

def checkPass (name : String) : Check := ⟨name, .pass, none⟩

def checkFail (name code : String) : Check := ⟨name, .fail, some code⟩

def checkWarn (name code : String) : Check := ⟨name, .warning, some code⟩

def checkSkip (name : String) : Check := ⟨name, .skip, none⟩

/-- What one of the verifiers returns; its `ok` is the absence of a failure. -/
structure CheckResult where
  check : Check
  failure : Option String := none
  warning : Option String := none

def CheckResult.pass (name : String) : CheckResult := ⟨checkPass name, none, none⟩

def CheckResult.fail (name code failure : String) : CheckResult :=
  ⟨checkFail name code, some failure, none⟩

/-- `String(error?.message || error || ..)`: an error without a message prints its name. -/
def normalizeErrorCode (e : Error) : String :=
  if e.message ≠ "" then e.message
  else match e with
    | .typeError _ => "TypeError"
    | .error _ => "Error"

def verifyEventHistoryIntegrity (host : Host) (eventLog : List Json) : CheckResult :=
  match verifyRealmEventHistory host eventLog with
  | .ok _ => .pass "EVENT_CHAIN_OK"
  | .error e => .fail "EVENT_CHAIN_OK" (normalizeErrorCode e) (normalizeErrorCode e)

/-- The result, and the hash of the replayed projection. -/
def verifyProjectionReplayIntegrity (host : Host) (ledger : Ledger) :
    JsM (CheckResult × Option String) := do
  if (verifyEventHistoryIntegrity host ledger.event_log).failure.isSome then
    return (.fail "PROJECTION_REPLAY_OK" "EVENT_CHAIN_BROKEN" "EVENT_CHAIN_BROKEN", none)
  else
    let replayed ← buildCurrentAuthorityState host ledger.event_log
    let replayProjectionHash := calculateProjectionHash host replayed
    let liveProjection := ledger.current_authority_state.getD replayed
    let liveProjectionHash := calculateProjectionHash host liveProjection
    if replayProjectionHash ≠ liveProjectionHash then
      return (.fail "PROJECTION_REPLAY_OK" "PROJECTION_REPLAY_MISMATCH" "PROJECTION_REPLAY_MISMATCH",
        some replayProjectionHash)
    else return (.pass "PROJECTION_REPLAY_OK", some replayProjectionHash)

def verifySnapshotIntegrity (host : Host) (snapshot : Option Json) (ledger : Ledger) : CheckResult :=
  match snapshot with
  | none | some .null => ⟨checkSkip "SNAPSHOT_OK", none, none⟩
  | some snapshot =>
    if (verifyEventHistoryIntegrity host ledger.event_log).failure.isSome then
      .fail "SNAPSHOT_OK" "EVENT_CHAIN_BROKEN" "EVENT_CHAIN_BROKEN"
    else match verifyRealmSnapshot host ledger.event_log snapshot with
      | .ok _ => .pass "SNAPSHOT_OK"
      | .error e => .fail "SNAPSHOT_OK" (normalizeErrorCode e) (normalizeErrorCode e)

/-! ## Federation references -/

/-- `event.event_id || event.id`. -/
def acceptedEventId (event : Json) : Option Json := or (event.prop "event_id") (event.prop "id")

def federationTrustEventFor (eventLog : List Json) (establishedEventId : Json) :
    JsM (Option Json) := do
  let events ← filter isCanonicalRealmEvent eventLog
  return events.find? fun event => strictEq (acceptedEventId event) (some establishedEventId)

/-- `a !== b` for heads of one ledger: a head that is an object is the payload's own object. -/
def headsDiffer (a b : Json) : Bool :=
  !(strictEq (some a) (some b) || (a.isObject && b.isObject && decide (a.text = b.text)))

/-- `heads[realmId]` is truthy and is not `head`. A name of `Object.prototype` that is no own property
finds an inherited function, which is no head. -/
def evidenceHeadDiffers (heads : Fields) (realmId : String) (head : Json) : Bool :=
  match heads.get realmId with
  | some v => v.truthy && headsDiffer v head
  | none => objectPrototypeKeys.contains realmId

def federationInvalid : CheckResult :=
  .fail "FEDERATION_REFERENCES_OK" "FEDERATION_REFERENCE_INVALID" "FEDERATION_REFERENCE_INVALID"

/-- One round of the loop: whether the trust passes. -/
def verifyFederationTrust (eventLog : List Json) (remoteEvidenceHeads : Fields)
    (trust : FederationTrust) : JsM Bool := do
  if !trust.establishedEvent.truthy then return false
  else
    match ← federationTrustEventFor eventLog trust.establishedEvent with
    | none => return false
    | some establishingEvent =>
      let payloadHead := orNull ((establishingEvent.prop "payload").bind (·.prop "remote_event_head"))
      if trust.remoteEventHead.truthy && payloadHead.truthy
          && headsDiffer trust.remoteEventHead payloadHead then return false
      else if trust.realmId ≠ "" && trust.remoteEventHead.truthy
          && evidenceHeadDiffers remoteEvidenceHeads trust.realmId trust.remoteEventHead then
        return false
      else return true

def verifyFederationTrusts (eventLog : List Json) (remoteEvidenceHeads : Fields) :
    List FederationTrust → JsM CheckResult
  | [] => return .pass "FEDERATION_REFERENCES_OK"
  | trust :: trusts => do
    if ← verifyFederationTrust eventLog remoteEvidenceHeads trust then
      verifyFederationTrusts eventLog remoteEvidenceHeads trusts
    else return federationInvalid

def verifyFederationReferences (ledger : Ledger) (remoteEvidenceHeads : Fields := []) :
    JsM CheckResult :=
  verifyFederationTrusts ledger.event_log remoteEvidenceHeads
    (ledger.current_authority_state.getD emptyAuthorityState).federationTrusts

/-! ## Command records -/

def eventIdsInLog (eventLog : List Json) : JsM (List Json) := do
  let events ← filter isCanonicalRealmEvent eventLog
  return events.filterMap fun event => if truthy (acceptedEventId event) then acceptedEventId event else none

/-- `records` are the accepted event ids of the records; `none` is a missing store. -/
def verifyCommandExecutionBoundary (records : Option (List (List Json))) (ledger : Ledger) :
    JsM CheckResult := do
  let missing : CheckResult := ⟨checkWarn "COMMAND_LINEAGE_OK" "COMMAND_EXECUTION_RECORD_MISSING", none,
    some "COMMAND_EXECUTION_RECORD_MISSING"⟩
  match records with
  | none | some [] => return missing
  | some records =>
    let acceptedIds ← eventIdsInLog ledger.event_log
    if records.all fun ids => ids.all fun id =>
        acceptedIds.any fun acceptedId => strictEq (some acceptedId) (some id) then
      return .pass "COMMAND_LINEAGE_OK"
    else
      return .fail "COMMAND_LINEAGE_OK" "COMMAND_EXECUTION_REFERENCE_INVALID"
        "COMMAND_EXECUTION_REFERENCE_INVALID"

/-! ## The report -/

structure RealmIntegrity where
  history_head : Json
  projection_hash : Option String
  checks : List Check
  failures : List String
  warnings : List String

def RealmIntegrity.realm_valid (integrity : RealmIntegrity) : Bool := integrity.failures.isEmpty

structure IntegrityOptions where
  snapshot : Option Json := none
  executionRecords : Option (List (List Json)) := none
  remoteEvidenceHeads : Fields := []

def verifyRealmIntegrity (host : Host) (ledger : Ledger) (options : IntegrityOptions := {}) :
    JsM RealmIntegrity := do
  let history := verifyEventHistoryIntegrity host ledger.event_log
  let (projection, replayProjectionHash) ← verifyProjectionReplayIntegrity host ledger
  let snapshot := verifySnapshotIntegrity host options.snapshot ledger
  let federation ← verifyFederationReferences ledger options.remoteEvidenceHeads
  let commandLineage ← verifyCommandExecutionBoundary options.executionRecords ledger
  let results := [history, projection, snapshot, federation, commandLineage]
  let historyHead ← if history.failure.isNone then latestRealmEventHash ledger.event_log
    else pure Json.null
  return {
    history_head := historyHead
    projection_hash := replayProjectionHash
    checks := results.map CheckResult.check
    failures := results.filterMap CheckResult.failure
    warnings := results.filterMap CheckResult.warning }

/-! ## The references of a reachable ledger -/

/-- The realm events carry numbered ids, and each trust comes from one of them, with its head. -/
structure Referenced (log : List Json) (s : AuthorityState) : Prop where
  ids : ∀ (i : Nat) (event : Json), (canonicalEventsFromLog log)[i]? = some event →
    ∃ rest, acceptedEventId event = some (.str (eventId (i + 1) rest))
  trusts : ∀ t ∈ s.federationTrusts, ∃ event ∈ canonicalEventsFromLog log,
    acceptedEventId event = some t.establishedEvent
    ∧ orNull ((event.prop "payload").bind (·.prop "remote_event_head")) = t.remoteEventHead
    ∧ ∃ x, t.remoteEventHead = .null ∨ t.remoteEventHead = .str x

theorem Change.mem_trusts {c : Change} {stamp : Stamp} {s : AuthorityState} {t : FederationTrust}
    (h : t ∈ (c.apply stamp s).federationTrusts) :
    (∃ u ∈ s.federationTrusts, t.establishedEvent = u.establishedEvent
      ∧ t.remoteEventHead = u.remoteEventHead ∧ t.realmId = u.realmId)
    ∨ ∃ realm root scopes scope policy head,
      c = .establishTrust realm root scopes scope policy head
      ∧ t = newTrust stamp realm root scopes scope policy head := by
  cases c with
  | establishTrust realm root scopes scope policy head =>
    rcases List.mem_append.mp h with h | h
    · exact .inl ⟨t, List.mem_of_mem_filter h, rfl, rfl, rfl⟩
    · exact .inr ⟨realm, root, scopes, scope, policy, head, rfl, List.mem_singleton.mp h⟩
  | revokeTrust realm =>
    obtain ⟨u, hu, rfl⟩ := List.mem_map.mp h
    refine .inl ⟨u, hu, ?_⟩
    split <;> exact ⟨rfl, rfl, rfl⟩
  | _ => exact .inl ⟨t, h, rfl, rfl, rfl⟩

section
variable {host : Host} {clock : Clock} {s s' : AuthorityState} {fs : List HashedFields}
  {t : EventType} {n : NormalizedProposal} {event : Json}

/-- A trust carries the head of the payload that established it. -/
theorem Checked.trustHead (h : Checked host clock s fs t n event) {k : Nat} {realm : String}
    {root scopes scope policy head : Json}
    (hc : changeOf n.envelope.toJson ((realmEventRegistry t).migrationAdapter (.obj n.payload)) t k =
      .ok (.establishTrust realm root scopes scope policy head)) :
    head = orNull (n.payload.get "remote_event_head")
      ∧ OptionalString (n.payload.get "remote_event_head") := by
  have hpayload := validatePayload_eq_nil.mp h.payload
  have hmem := mem_types_of_changeOf hc
  simp only [Change.types, List.mem_cons, List.not_mem_nil, or_false] at hmem
  rcases hmem with rfl | rfl <;>
  · simp only [changeOf, readEstablishTrust, bind_eq_ok, pure_eq_ok, Except.ok.injEq,
      Change.establishTrust.injEq] at hc
    obtain ⟨_, -, -, -, -, -, -, rfl⟩ := hc
    exact ⟨rfl, hpayload.optional "remote_event_head" (by decide)⟩

theorem Checked.acceptedEventId (h : Checked host clock s fs t n event) :
    ∃ rest, Realm.acceptedEventId event = some (.str (eventId (fs.length + 1) rest))
      ∧ (stampOf n.envelope.toJson event).event = .str (eventId (fs.length + 1) rest) := by
  obtain ⟨rest, hrest⟩ := h.stamp
  obtain ⟨id, -, heventId, hid⟩ := h.attached.named
  refine ⟨rest, ?_, hrest⟩
  -- the stamp is the id, which is also the event id
  have hstamp : orNull (event.prop "id") = .str (eventId (fs.length + 1) rest) := hrest
  have hne : id ≠ "" := by
    rintro rfl
    rw [hid] at hstamp
    cases hstamp
  rw [hid, orNull_str hne] at hstamp
  rw [Realm.acceptedEventId, heventId, or_str hne, hstamp]

theorem OptionalString.orNull_cases {v : Option Json} (h : OptionalString v) :
    ∃ x, orNull v = .null ∨ orNull v = .str x := by
  cases h with
  | none | null => exact ⟨"", .inl rfl⟩
  | str x =>
    refine ⟨x, ?_⟩
    by_cases hx : x = ""
    · subst hx
      exact .inl rfl
    · exact .inr (orNull_str hx)

theorem Accepts.referenced {log : List Json} (h : Referenced log s)
    (hlen : (canonicalEventsFromLog log).length = fs.length)
    (hacc : Accepts host clock s fs t n event s') : Referenced (log ++ [event]) s' := by
  obtain ⟨rest, hid, hstamp⟩ := hacc.acceptedEventId
  obtain ⟨c, hc, rfl⟩ := hacc.change
  have hevents : canonicalEventsFromLog (log ++ [event]) = canonicalEventsFromLog log ++ [event] :=
    canonicalEvents_snoc_pos hacc.shows.canonical
  refine ⟨?_, ?_⟩
  · rw [hevents]
    intro i e hi
    by_cases hlt : i < (canonicalEventsFromLog log).length
    · rw [List.getElem?_append_left hlt] at hi
      exact h.ids i e hi
    · obtain ⟨hi', rfl⟩ : i = (canonicalEventsFromLog log).length ∧ e = event := by
        have hbound := (List.getElem?_eq_some_iff.mp hi).1
        rw [List.length_append, List.length_singleton] at hbound
        obtain rfl : i = (canonicalEventsFromLog log).length := by omega
        simpa [eq_comm] using hi
      rw [hi', hlen]
      exact ⟨rest, hid⟩
  · intro trust htrust
    rw [hevents]
    rcases Change.mem_trusts htrust with ⟨u, hu, hevent, hhead, -⟩ |
      ⟨realm, root, scopes, scope, policy, head, rfl, rfl⟩
    · obtain ⟨e, he, heid, hpayload, hstring⟩ := h.trusts u hu
      rw [hevent, hhead]
      exact ⟨e, List.mem_append_left _ he, heid, hpayload, hstring⟩
    · obtain ⟨rfl, hoptional⟩ := hacc.trustHead hc
      refine ⟨event, List.mem_append_right _ (List.mem_singleton_self _), ?_, ?_, ?_⟩
      · rw [hid]
        exact congrArg some hstamp.symm
      · rw [hacc.shows.payload]
        rfl
      · exact hoptional.orNull_cases

end

theorem referenced_empty : Referenced [] emptyAuthorityState where
  ids i event h := by cases h
  trusts t h := by cases h

theorem Referenced.foreign {log : List Json} {s : AuthorityState} (h : Referenced log s)
    {event : Json} (hf : Foreign event) : Referenced (log ++ [event]) s := by
  have hevents : canonicalEventsFromLog (log ++ [event]) = canonicalEventsFromLog log :=
    canonicalEvents_snoc_neg hf.1
  exact ⟨hevents.symm ▸ h.ids, hevents.symm ▸ h.trusts⟩

/-- What the integrity checks need of a reachable ledger. -/
theorem Reachable.referenced {host : Host} {ledger : Ledger} (h : Reachable host ledger) :
    ∃ s fs, Live host ledger s fs ∧ Cuttable host ledger.event_log s fs
      ∧ Referenced ledger.event_log s :=
  h.invariant (P := fun log s fs => Cuttable host log s fs ∧ Referenced log s)
    ⟨cuttable_empty host, referenced_empty⟩
    (fun hinv hacc => ⟨hinv.1.accept hacc, hacc.referenced hinv.2 hinv.1.length⟩)
    (fun hinv hf => ⟨hinv.1.foreign hf, hinv.2.foreign hf⟩)

/-! ## The checks on a reachable ledger -/

section
variable {log : List Json} {s : AuthorityState}

/-- An id finds its event. -/
theorem Referenced.found (h : Referenced log s) (hc : Counted log) {event id : Json}
    (he : event ∈ canonicalEventsFromLog log) (hid : acceptedEventId event = some id) :
    federationTrustEventFor log id = .ok (some event) := by
  obtain ⟨i, hi⟩ := List.mem_iff_getElem?.mp he
  obtain ⟨rest, hrest⟩ := h.ids i event hi
  rw [hid] at hrest
  obtain rfl := Option.some.inj hrest
  rw [federationTrustEventFor, hc.filter_canonical, ok_bind, pure_eq_ok]
  congr 1
  have hsome : ((canonicalEventsFromLog log).find? fun e =>
      strictEq (acceptedEventId e) (some (.str (eventId (i + 1) rest)))).isSome = true :=
    List.find?_isSome.mpr ⟨event, he, strictEq_str_iff.mpr hid⟩
  obtain ⟨e, hfind⟩ := Option.isSome_iff_exists.mp hsome
  rw [hfind]
  -- ids carry the number of their event
  obtain ⟨j, hj⟩ := List.mem_iff_getElem?.mp (List.mem_of_find?_eq_some hfind)
  obtain ⟨rest', hrest'⟩ := h.ids j e hj
  have hholds := List.find?_some hfind
  have heq := strictEq_str_iff.mp hholds
  rw [hrest'] at heq
  have hij := eventId_injective (Json.str.inj (Option.some.inj heq))
  obtain rfl : j = i := by omega
  exact hj.symm.trans hi

/-- The evidence heads name another head for the trust's realm. -/
def FederationTrust.Contradicted (heads : Fields) (t : FederationTrust) : Bool :=
  t.realmId ≠ "" && t.remoteEventHead.truthy
    && evidenceHeadDiffers heads t.realmId t.remoteEventHead

theorem headsDiffer_self {v : Json} {x : String} (h : v = .null ∨ v = .str x) :
    headsDiffer v v = false := by
  rcases h with rfl | rfl
  · rfl
  · simp [headsDiffer]

/-- A trust of a reachable ledger passes unless the evidence contradicts it. -/
theorem Referenced.verifyTrust (h : Referenced log s) (hc : Counted log) (heads : Fields)
    {t : FederationTrust} (ht : t ∈ s.federationTrusts) :
    verifyFederationTrust log heads t = .ok (!t.Contradicted heads) := by
  obtain ⟨event, he, hid, hpayload, x, hstring⟩ := h.trusts t ht
  have hfound := h.found hc he hid
  have htruthy : t.establishedEvent.truthy = true := by
    obtain ⟨i, hi⟩ := List.mem_iff_getElem?.mp he
    obtain ⟨rest, hrest⟩ := h.ids i event hi
    rw [hid] at hrest
    rw [Option.some.inj hrest]
    simp [Json.truthy, eventId]
  simp only [verifyFederationTrust, htruthy, Bool.not_true, Bool.false_eq_true, if_false, hfound,
    ok_bind, hpayload, headsDiffer_self hstring, Bool.and_false, FederationTrust.Contradicted]
  cases (decide (t.realmId ≠ "") && t.remoteEventHead.truthy
    && evidenceHeadDiffers heads t.realmId t.remoteEventHead) <;> rfl

theorem Referenced.verifyTrusts (h : Referenced log s) (hc : Counted log) (heads : Fields)
    {ts : List FederationTrust} (hts : ∀ t ∈ ts, t ∈ s.federationTrusts) :
    verifyFederationTrusts log heads ts =
      .ok (if ts.any (·.Contradicted heads) then federationInvalid
        else .pass "FEDERATION_REFERENCES_OK") := by
  induction ts with
  | nil => rfl
  | cons t ts ih =>
    rw [verifyFederationTrusts, h.verifyTrust hc heads (hts t List.mem_cons_self), ok_bind,
      ih fun u hu => hts u (List.mem_cons_of_mem t hu), List.any_cons]
    cases t.Contradicted heads <;> rfl

end

/-- The checks of a live ledger without a snapshot and without command records: only a contradicted trust
can fail. -/
theorem verifyRealmIntegrity_eq {host : Host} {ledger : Ledger} {s : AuthorityState}
    {fs : List HashedFields} (hlive : Live host ledger s fs) (hc : Counted ledger.event_log)
    (href : Referenced ledger.event_log s) (heads : Fields) :
    ∃ integrity, verifyRealmIntegrity host ledger { remoteEvidenceHeads := heads } = .ok integrity
      ∧ (integrity.realm_valid = true ↔ ∀ t ∈ s.federationTrusts, t.Contradicted heads = false) := by
  have hhistory : verifyEventHistoryIntegrity host ledger.event_log = .pass "EVENT_CHAIN_OK" := by
    rw [verifyEventHistoryIntegrity, verifyRealmEventHistory_eq_ok.mpr ⟨fs, hlive.chain⟩]
  have hprojection : verifyProjectionReplayIntegrity host ledger =
      .ok (.pass "PROJECTION_REPLAY_OK", some (calculateProjectionHash host s)) := by
    simp [verifyProjectionReplayIntegrity, hhistory, CheckResult.pass, hlive.build, hlive.state]
  have hfederation : verifyFederationReferences ledger heads =
      .ok (if s.federationTrusts.any (·.Contradicted heads) then federationInvalid
        else .pass "FEDERATION_REFERENCES_OK") := by
    rw [verifyFederationReferences, hlive.state]
    exact href.verifyTrusts hc heads fun _ ht => ht
  refine ⟨_, by
    simp only [verifyRealmIntegrity, hhistory, hprojection, hfederation, ok_bind, hlive.latest,
      verifySnapshotIntegrity, verifyCommandExecutionBoundary, pure_eq_ok]
    rfl, ?_⟩
  cases hany : s.federationTrusts.any (·.Contradicted heads) with
  | true =>
    simp only [List.any_eq_true] at hany
    obtain ⟨t, ht, hcontradicted⟩ := hany
    constructor
    · intro hvalid
      cases hvalid
    · intro hall
      rw [hall t ht] at hcontradicted
      cases hcontradicted
  | false =>
    simp only [List.any_eq_false, Bool.not_eq_true] at hany
    exact ⟨fun _ => hany, fun _ => rfl⟩

end SimpleL1.Realm
