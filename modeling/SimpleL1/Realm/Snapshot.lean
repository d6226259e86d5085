import SimpleL1.Js.Array
import SimpleL1.Realm.LiveState
import SimpleL1.Realm.Plain
import SimpleL1.Realm.RemoteHistory

/-!
# Snapshots

`createRealmSnapshot` projects the realm events up to a sequence number,
`verifyRealmSnapshot` projects them again and compares the texts, and
`rebuildFromSnapshot` applies the remaining events to a copy of the snapshot's
projection. The copy rounds the claim scopes of the trusts: a rebuild ends in
the replayed projection, the scopes of the trusts no remaining event establishes
again rounded.
-/

namespace SimpleL1.Realm

open SimpleL1.Js SimpleL1.Lib

def snapshotProjectionVersion : Number := .int 1

/-- `Number(event?.sequence ?? event?.envelope?.sequence)`. -/
def sequenceOf (event : Json) : JsM Number :=
  toNumber (nullish (event.prop "sequence") ((event.prop "envelope").bind (·.prop "sequence")))

/-- `Number.isInteger(n) && !(n < 0)`. -/
def isSnapshotSequence (n : Number) : Bool := n.isInteger && !n.lt (.int 0)

def metadataInvalid : Error := .error "SNAPSHOT_METADATA_INVALID"

def historyMismatch : Error := .error "SNAPSHOT_HISTORY_MISMATCH"

/-- `snapshot.last_sequence`, once it is known to be a number. -/
def snapshotSequence (snapshot : Json) : Number :=
  match snapshot.prop "last_sequence" with
  | some (.num n) => n
  | _ => .nan

/-- `snapshot.projection`, once it is known to be there. -/
def snapshotProjection (snapshot : Json) : Json := (snapshot.prop "projection").getD .null

def isNullOrString : Option Json → Bool
  | some .null | some (.str _) => true
  | _ => false

def verifySnapshotMetadata (snapshot : Json) : JsM Bool := do
  throwUnless snapshot.isObject metadataInvalid
  throwUnless (snapshotProjection snapshot).isObject metadataInvalid
  throwUnless (isSnapshotSequence (snapshotSequence snapshot)) metadataInvalid
  throwUnless (isNullOrString (snapshot.prop "last_verified_event_hash")) metadataInvalid
  throwUnless (strictEq (snapshot.prop "projection_version") (some (.num snapshotProjectionVersion)))
    (.error "SNAPSHOT_PROJECTION_VERSION_UNSUPPORTED")
  return true

/-- The realm events whose sequence number satisfies `p`. -/
def filterSequence (p : Number → Bool) (eventLog : List Json) : JsM (List Json) :=
  filter (fun event => do
    if ← isCanonicalRealmEvent event then return p (← sequenceOf event) else return false) eventLog

def historyPrefix (eventLog : List Json) (lastSequence : Number) : JsM (List Json) :=
  filterSequence (·.le lastSequence) eventLog

def remainingHistory (eventLog : List Json) (lastSequence : Number) : JsM (List Json) :=
  filterSequence lastSequence.lt eventLog

def headEventForSequence (eventLog : List Json) (lastSequence : Number) : JsM (Option Json) := do
  if lastSequence = .int 0 then return none
  else
    let events ← filter isCanonicalRealmEvent eventLog
    find (fun event => do
      return strictEq (some (.num (← sequenceOf event))) (some (.num lastSequence))) events

def assertSnapshotHistoryHead (eventLog : List Json) (snapshot : Json) : JsM Unit := do
  let headEvent ← headEventForSequence eventLog (snapshotSequence snapshot)
  if snapshotSequence snapshot = .int 0 then
    throwUnless (strictEq (snapshot.prop "last_verified_event_hash") (some .null)) historyMismatch
  else
    match headEvent with
    | none => throw historyMismatch
    | some event =>
      throwUnless (strictEq (event.prop "current_event_hash")
        (snapshot.prop "last_verified_event_hash")) historyMismatch

/-- The sequence number of the last of the events. -/
def lastSequenceOf (events : List Json) : JsM Number :=
  match events.getLast? with
  | some event => sequenceOf event
  | none => return .int 0

/-- `headEvent ? headEvent.current_event_hash : null`. -/
def headHash (headEvent : Option Json) : Option Json :=
  match headEvent with
  | some event => event.prop "current_event_hash"
  | none => some .null

def snapshotOf (projection : AuthorityState) (hash : Option Json) (lastSequence : Number) : Json :=
  .obj (Fields.ofOptions [("projection", some (AuthorityState.codec.encode projection)),
    ("last_verified_event_hash", hash), ("last_sequence", some (.num lastSequence)),
    ("projection_version", some (.num snapshotProjectionVersion))])

/-- `lastSequence` is `options.lastSequence`. -/
def createRealmSnapshot (host : Host) (eventLog : List Json) (lastSequence : Option Json := none) :
    JsM Json := do
  let _ ← verifyRealmEventHistory host eventLog
  let events ← filter isCanonicalRealmEvent eventLog
  let lastSequence ← if lastSequence.isNone then lastSequenceOf events else toNumber lastSequence
  throwUnless (isSnapshotSequence lastSequence) metadataInvalid
  let eventPrefix ← historyPrefix eventLog lastSequence
  let projection ← buildCurrentAuthorityState host eventPrefix
  let headEvent ← headEventForSequence eventLog lastSequence
  return snapshotOf projection (headHash headEvent) lastSequence

structure SnapshotVerification where
  projection : Json
  remainingEvents : List Json
  lastVerifiedEventHash : Option Json
  lastSequence : Number
  projectionVersion : Option Json

def verifyRealmSnapshot (host : Host) (eventLog : List Json) (snapshot : Json) :
    JsM SnapshotVerification := do
  let _ ← verifySnapshotMetadata snapshot
  let _ ← verifyRealmEventHistory host eventLog
  assertSnapshotHistoryHead eventLog snapshot
  let eventPrefix ← historyPrefix eventLog (snapshotSequence snapshot)
  let expectedProjection ← buildCurrentAuthorityState host eventPrefix
  throwUnless ((AuthorityState.codec.encode expectedProjection).text = (snapshotProjection snapshot).text)
    (.error "SNAPSHOT_PROJECTION_MISMATCH")
  let remainingEvents ← remainingHistory eventLog (snapshotSequence snapshot)
  return {
    projection := clone (snapshotProjection snapshot)
    remainingEvents := remainingEvents
    lastVerifiedEventHash := snapshot.prop "last_verified_event_hash"
    lastSequence := snapshotSequence snapshot
    projectionVersion := snapshot.prop "projection_version" }

/-- The copy of a verified snapshot's projection has a projection's text, so it reads as one. -/
def rebuildFromSnapshot (host : Host) (eventLog : List Json) (snapshot : Json) :
    JsM AuthorityState := do
  let verification ← verifyRealmSnapshot host eventLog snapshot
  match AuthorityState.codec.decode verification.projection with
  | none => throw (.typeError "not a projection")
  | some projection => verification.remainingEvents.foldlM applyAuthorityEvent projection

/-! ## Numbered logs -/

/-- `isCanonicalRealmEvent`, as far as it returns. -/
def isRealm (event : Json) : Bool :=
  match isCanonicalRealmEvent event with
  | .ok canonical => canonical
  | .error _ => false

/-- Whether the number an event carries satisfies `p`. -/
def sequenceHolds (p : Number → Bool) (event : Json) : Bool :=
  match sequenceOf event with
  | .ok n => p n
  | .error _ => false

/-- The realm events of the log are told apart, numbered from 1, and carry their hashes. -/
structure Counted (log : List Json) : Prop where
  told : ∀ event ∈ log, ∃ canonical, isCanonicalRealmEvent event = .ok canonical
  numbered : Numbered (canonicalEventsFromLog log)
  hashed : ∀ event ∈ canonicalEventsFromLog log,
    ∃ hash, event.prop "current_event_hash" = some (.str hash)

theorem sequenceOf_eq {event : Json} {n : Number} (h : event.prop "sequence" = some (.num n)) :
    sequenceOf event = .ok n := by
  rw [sequenceOf, h, nullish_num, toNumber_num]

theorem Numbered.init {events : List Json} {event : Json} (h : Numbered (events ++ [event])) :
    Numbered events := by
  intro i e hi
  refine h i e ?_
  rw [List.getElem?_append_left (List.getElem?_eq_some_iff.mp hi).1]
  exact hi

theorem Numbered.last {events : List Json} {event : Json} (h : Numbered (events ++ [event])) :
    sequenceOf event = .ok (.int (events.length + 1)) :=
  sequenceOf_eq (h events.length event (by simp))

theorem Numbered.sequenceHolds_last {events : List Json} {event : Json}
    (h : Numbered (events ++ [event])) (p : Number → Bool) :
    sequenceHolds p event = p (.int (events.length + 1)) := by
  rw [sequenceHolds, h.last]

theorem filter_le {events : List Json} (h : Numbered events) (k : Nat) :
    events.filter (sequenceHolds (·.le (.int k))) = events.take k := by
  induction events using List.reverseRecOn with
  | nil => rw [List.filter_nil, List.take_nil]
  | append_singleton events event ih =>
    rw [List.filter_append, ih h.init, List.take_append, List.filter_singleton,
      h.sequenceHolds_last, Number.int_le_int]
    congr 1
    by_cases hk : events.length + 1 ≤ k
    · rw [decide_eq_true (show (events.length : Int) + 1 ≤ k by omega), cond_true,
        List.take_of_length_le (by simp; omega)]
    · rw [decide_eq_false (show ¬ (events.length : Int) + 1 ≤ k by omega), cond_false,
        show k - events.length = 0 by omega, List.take_zero]

theorem filter_lt {events : List Json} (h : Numbered events) (k : Nat) :
    events.filter (sequenceHolds (Number.int k).lt) = events.drop k := by
  induction events using List.reverseRecOn with
  | nil => rw [List.filter_nil, List.drop_nil]
  | append_singleton events event ih =>
    rw [List.filter_append, ih h.init, List.drop_append, List.filter_singleton,
      h.sequenceHolds_last, Number.int_lt_int]
    congr 1
    by_cases hk : events.length + 1 ≤ k
    · rw [decide_eq_false (show ¬ (k : Int) < events.length + 1 by omega), cond_false,
        List.drop_of_length_le (by simp; omega)]
    · rw [decide_eq_true (show (k : Int) < events.length + 1 by omega), cond_true,
        show k - events.length = 0 by omega, List.drop_zero]

theorem find_sequence {events : List Json} (h : Numbered events) (k : Nat) :
    events.find? (sequenceHolds fun n => strictEq (some (.num n)) (some (.num (.int (k + 1))))) =
      events[k]? := by
  induction events using List.reverseRecOn with
  | nil => rfl
  | append_singleton events event ih =>
    rw [List.find?_append, ih h.init]
    by_cases hk : k < events.length
    · rw [List.getElem?_append_left hk, List.getElem?_eq_getElem hk, Option.some_or]
    · rw [List.getElem?_eq_none (by omega), Option.none_or, List.getElem?_append_right (by omega),
        List.find?_singleton, h.sequenceHolds_last]
      by_cases heq : events.length = k
      · subst heq
        simp [strictEq]
      · have hne : ¬ ((events.length : Int) + 1 = k + 1) := by omega
        rw [List.getElem?_eq_none (by simp; omega), if_neg (by simp [strictEq, hne])]

namespace Counted

variable {log : List Json} (h : Counted log)

include h

theorem isCanonical {event : Json} (he : event ∈ log) :
    isCanonicalRealmEvent event = .ok (isRealm event) := by
  obtain ⟨b, hb⟩ := h.told event he
  rw [isRealm, hb]

theorem sequence {event : Json} (he : event ∈ canonicalEventsFromLog log) :
    ∃ n, sequenceOf event = .ok n := by
  obtain ⟨i, hi⟩ := List.mem_iff_getElem?.mp he
  exact ⟨_, sequenceOf_eq (h.numbered i event hi)⟩

theorem filter_canonical : filter isCanonicalRealmEvent log = .ok (canonicalEventsFromLog log) :=
  filter_eq fun _ he => h.isCanonical he

theorem filterSequence (p : Number → Bool) :
    Realm.filterSequence p log = .ok ((canonicalEventsFromLog log).filter (sequenceHolds p)) := by
  have hq : ∀ event ∈ log, (do
      if ← isCanonicalRealmEvent event then return p (← sequenceOf event) else return false) =
        .ok (sequenceHolds p event && isRealm event) := by
    intro event he
    rw [h.isCanonical he, ok_bind]
    cases hr : isRealm event with
    | false => rw [Bool.and_false]; rfl
    | true =>
      obtain ⟨n, hn⟩ := h.sequence (List.mem_filter.mpr ⟨he, hr⟩)
      rw [if_pos rfl, hn, sequenceHolds, hn, Bool.and_true]
      rfl
  rw [Realm.filterSequence, filter_eq hq, ← List.filter_filter]
  rfl

theorem historyPrefix (k : Nat) :
    Realm.historyPrefix log (.int k) = .ok ((canonicalEventsFromLog log).take k) := by
  rw [Realm.historyPrefix, h.filterSequence, filter_le h.numbered]

theorem remainingHistory (k : Nat) :
    Realm.remainingHistory log (.int k) = .ok ((canonicalEventsFromLog log).drop k) := by
  rw [Realm.remainingHistory, h.filterSequence, filter_lt h.numbered]

theorem headEvent_succ (k : Nat) :
    headEventForSequence log (.int (k + 1)) = .ok (canonicalEventsFromLog log)[k]? := by
  rw [headEventForSequence, if_neg (by simp; omega), h.filter_canonical, ok_bind,
    ← find_sequence h.numbered]
  refine find_eq fun event he => ?_
  obtain ⟨n, hn⟩ := h.sequence he
  rw [hn, sequenceHolds, hn]
  rfl

end Counted

/-! ## Cutting a log -/

/-- The realm an event establishes a trust for. -/
def trustedRealm (event : Json) : Option String :=
  if hasType event .federationTrustEstablished || hasType event .federationTrustUpdated then
    some (textOf ((eventPayload event).prop "remote_realm_id"))
  else none

/-- An event of the log numbered after `k` establishes a trust for the realm. -/
def EstablishedAfter (log : List Json) (k : Number) (realm : String) : Prop :=
  ∃ event ∈ log, isCanonicalRealmEvent event = .ok true
    ∧ (∃ n, sequenceOf event = .ok n ∧ k.lt n = true) ∧ trustedRealm event = some realm

/-- The realms none of the events establishes a trust for. -/
def untouched (events : List Json) (realm : String) : Bool :=
  events.all fun event => trustedRealm event != some realm

theorem untouched_snoc (events : List Json) (event : Json) :
    untouched (events ++ [event]) =
      fun realm => untouched events realm && trustedRealm event != some realm := by
  funext realm
  simp [untouched]

theorem Accepts.trustedRealm {host : Host} {clock : Clock} {s s' : AuthorityState}
    {fs : List HashedFields} {t : EventType} {n : NormalizedProposal} {event : Json}
    (h : Accepts host clock s fs t n event s') {k : Nat} {c : Change}
    (hc : changeOf n.envelope.toJson ((realmEventRegistry t).migrationAdapter (.obj n.payload)) t k =
      .ok c) : trustedRealm event = c.trustedRealm := by
  have htype : ∀ u, hasType event u = decide (u = t) := fun u => by
    rw [Bool.eq_iff_iff, h.shows.hasType_iff h.type, decide_eq_true_iff]
  unfold Realm.trustedRealm
  rw [htype, htype, h.shows.eventPayload_eq]
  cases t with
  | federationTrustEstablished | federationTrustUpdated =>
    obtain ⟨realm, hrealm, hne⟩ :=
      (validatePayload_eq_nil.mp h.payload).string "remote_realm_id" (by decide) (by decide)
    have hadapter : identityMigrationAdapter (.obj n.payload) = n.payload := rfl
    simp only [changeOf, realmEventRegistry, readEstablishTrust, hadapter, hrealm,
      or_str (ne_empty_of_trim hne), strOrEmpty_str, ok_bind, pure_eq_ok, Except.ok.injEq] at hc
    subst hc
    simp [hrealm, textOf, Change.trustedRealm]
  | _ =>
    have hmem := mem_types_of_changeOf hc
    rw [if_neg (by decide)]
    -- only the two trust types ask for a trust
    cases c with
    | establishTrust => simp [Change.types] at hmem
    | _ => rfl

/-- An accepted event does to rounded scopes what it does to the original ones. -/
theorem Accepts.rounded {host : Host} {clock : Clock} {s s' : AuthorityState}
    {fs : List HashedFields} {t : EventType} {n : NormalizedProposal} {event : Json}
    (h : Accepts host clock s fs t n event s') (stale : String → Bool) :
    replayEvent (s.rounded stale) event =
      .ok (s'.rounded fun realm => stale realm && Realm.trustedRealm event != some realm) := by
  obtain ⟨c, hc, rfl⟩ := h.change
  rw [h.shows.replay_eq_ok h.type]
  refine ⟨c, hc, ?_⟩
  rw [rounded_setSequence, c.apply_rounded, h.trustedRealm hc]

/-- The realm events of a log, cut after the first `k`. -/
structure Cut (host : Host) (k : Nat) (events : List Json) (s : AuthorityState)
    (fs : List HashedFields) (projection : AuthorityState) : Prop where
  chain : Chain host none (events.take k) (fs.take k)
  before : replayFrom emptyAuthorityState (events.take k) = .ok projection
  plain : Plain projection
  after : replayFrom (projection.rounded fun _ => true) (events.drop k) =
    .ok (s.rounded (untouched (events.drop k)))

/-- The invariant: the realm events alone are a log with this projection, wherever it is cut. -/
structure Cuttable (host : Host) (log : List Json) (s : AuthorityState) (fs : List HashedFields) :
    Prop where
  counted : Counted log
  length : (canonicalEventsFromLog log).length = fs.length
  chain : Chain host none (canonicalEventsFromLog log) fs
  replay : replayFrom emptyAuthorityState (canonicalEventsFromLog log) = .ok s
  plain : Plain s
  cut : ∀ k ≤ fs.length, ∃ projection, Cut host k (canonicalEventsFromLog log) s fs projection

theorem canonicalEvents_snoc_pos {log : List Json} {event : Json}
    (h : isCanonicalRealmEvent event = .ok true) :
    canonicalEventsFromLog (log ++ [event]) = canonicalEventsFromLog log ++ [event] := by
  simp [canonicalEventsFromLog, h]

theorem canonicalEvents_snoc_neg {log : List Json} {event : Json}
    (h : isCanonicalRealmEvent event = .ok false) :
    canonicalEventsFromLog (log ++ [event]) = canonicalEventsFromLog log := by
  simp [canonicalEventsFromLog, h]

theorem cuttable_empty (host : Host) : Cuttable host [] emptyAuthorityState [] where
  counted := {
    told := by simp
    numbered := by
      intro i e hi
      cases hi
    hashed := by simp [canonicalEventsFromLog] }
  length := rfl
  chain := .nil none
  replay := rfl
  plain := plain_empty
  cut k hk := by
    obtain rfl : k = 0 := Nat.le_zero.mp hk
    exact ⟨_, .nil none, rfl, plain_empty, rfl⟩

theorem Cuttable.foreign {host : Host} {log : List Json} {s : AuthorityState}
    {fs : List HashedFields} (h : Cuttable host log s fs) {event : Json} (hf : Foreign event) :
    Cuttable host (log ++ [event]) s fs := by
  have hevents : canonicalEventsFromLog (log ++ [event]) = canonicalEventsFromLog log :=
    canonicalEvents_snoc_neg hf.1
  refine ⟨⟨?_, ?_, ?_⟩, ?_, ?_, ?_, h.plain, ?_⟩
  · intro e he
    rcases List.mem_append.mp he with he | he
    · exact h.counted.told e he
    · rw [List.mem_singleton.mp he]
      exact ⟨false, hf.1⟩
  all_goals rw [hevents]
  · exact h.counted.numbered
  · exact h.counted.hashed
  · exact h.length
  · exact h.chain
  · exact h.replay
  · exact h.cut

theorem Cuttable.accept {host : Host} {clock : Clock} {log : List Json} {s s' : AuthorityState}
    {fs : List HashedFields} {t : EventType} {n : NormalizedProposal} {event : Json}
    (h : Cuttable host log s fs) (hacc : Accepts host clock s fs t n event s') :
    Cuttable host (log ++ [event]) s' (fs ++ [n.hashed]) := by
  have hcanon := hacc.shows.canonical
  have hlen := h.length
  have hplain := hacc.plain h.plain
  have hchain : Chain host none (canonicalEventsFromLog log ++ [event]) (fs ++ [n.hashed]) :=
    h.chain.append (.link hacc.chained hacc.attached (.nil _))
  have hreplay : replayFrom emptyAuthorityState (canonicalEventsFromLog log ++ [event]) = .ok s' := by
    rw [replayFrom_append, h.replay, ok_bind, replayFrom_singleton, hacc.applied]
  refine ⟨⟨?_, ?_, ?_⟩, ?_, ?_, ?_, hplain, ?_⟩
  · intro e he
    rcases List.mem_append.mp he with he | he
    · exact h.counted.told e he
    · rw [List.mem_singleton.mp he]
      exact ⟨true, hcanon⟩
  all_goals rw [canonicalEvents_snoc_pos hcanon]
  · refine h.counted.numbered.snoc ?_
    rw [hacc.shows.sequence, hacc.sequence, hlen]
  · intro e he
    rcases List.mem_append.mp he with he | he
    · exact h.counted.hashed e he
    · rw [List.mem_singleton.mp he]
      exact ⟨_, hacc.attached.current⟩
  · simp [hlen]
  · exact hchain
  · exact hreplay
  · intro k hk
    rw [List.length_append, List.length_singleton] at hk
    by_cases hlast : k = fs.length + 1
    · -- all events are before the cut
      have htake : (canonicalEventsFromLog log ++ [event]).take k =
          canonicalEventsFromLog log ++ [event] := List.take_of_length_le (by simp; omega)
      have hdrop : (canonicalEventsFromLog log ++ [event]).drop k = [] :=
        List.drop_of_length_le (by simp; omega)
      have htakefs : (fs ++ [n.hashed]).take k = fs ++ [n.hashed] :=
        List.take_of_length_le (by simp; omega)
      refine ⟨s', ?_, ?_, hplain, ?_⟩
      · rw [htake, htakefs]
        exact hchain
      · rw [htake]
        exact hreplay
      · rw [hdrop]
        rfl
    · -- the event is after the cut
      have hk' : k ≤ fs.length := by omega
      obtain ⟨projection, hcut⟩ := h.cut k hk'
      refine ⟨projection, ?_, ?_, hcut.plain, ?_⟩
      · rw [List.take_append_of_le_length (by omega), List.take_append_of_le_length hk']
        exact hcut.chain
      · rw [List.take_append_of_le_length (by omega)]
        exact hcut.before
      · rw [List.drop_append_of_le_length (by omega), replayFrom_append, hcut.after, ok_bind,
          replayFrom_singleton, hacc.rounded, untouched_snoc]

theorem Reachable.cuttable {host : Host} {ledger : Ledger} (h : Reachable host ledger) :
    ∃ s fs, Live host ledger s fs ∧ Cuttable host ledger.event_log s fs :=
  h.invariant (cuttable_empty host) (fun hinv hacc => hinv.accept hacc)
    fun hinv hf => hinv.foreign hf

/-! ## Verified snapshots -/

/-- The checks of `verifySnapshotMetadata`. -/
theorem verifySnapshotMetadata_eq_ok {snapshot : Json} {b : Bool} :
    verifySnapshotMetadata snapshot = .ok b ↔
      snapshot.isObject = true ∧ (snapshotProjection snapshot).isObject = true
      ∧ isSnapshotSequence (snapshotSequence snapshot) = true
      ∧ isNullOrString (snapshot.prop "last_verified_event_hash") = true
      ∧ strictEq (snapshot.prop "projection_version") (some (.num snapshotProjectionVersion)) = true
      ∧ b = true := by
  unfold verifySnapshotMetadata
  simp only [throwUnless_bind_eq_ok, pure_eq_ok, Except.ok.injEq, @eq_comm _ true]

theorem exists_of_isSnapshotSequence {n : Number} (h : isSnapshotSequence n = true) :
    ∃ k : Nat, n = .int k := by
  cases n with
  | int m =>
    have hm : 0 ≤ m := by simpa [isSnapshotSequence, Number.isInteger] using h
    exact ⟨m.toNat, by rw [Int.toNat_of_nonneg hm]⟩
  | _ => cases h

theorem isSnapshotSequence_int (k : Nat) : isSnapshotSequence (.int k) = true := by
  simp [isSnapshotSequence, Number.isInteger]

namespace Cuttable

variable {host : Host} {log : List Json} {s : AuthorityState} {fs : List HashedFields}

/-- Building the first `k` realm events. -/
theorem build_take (h : Cuttable host log s fs) {k : Nat} (hk : k ≤ fs.length) :
    ∃ projection, Cut host k (canonicalEventsFromLog log) s fs projection
      ∧ buildCurrentAuthorityState host ((canonicalEventsFromLog log).take k) = .ok projection := by
  obtain ⟨projection, hcut⟩ := h.cut k hk
  have hverify := verifyRealmEventHistory_eq_ok.mpr ⟨_, hcut.chain⟩
  exact ⟨projection, hcut, by rw [buildCurrentAuthorityState, hverify, ok_bind, hcut.before]⟩

/-- The head event of a snapshot of the first `k` realm events. -/
theorem head (h : Cuttable host log s fs) {k : Nat} (hk : k ≤ fs.length) :
    ∃ headEvent hash, headEventForSequence log (.int k) = .ok headEvent
      ∧ headHash headEvent = some hash ∧ isNullOrString (some hash) = true
      ∧ ∀ snapshot : Json, snapshotSequence snapshot = .int k →
        snapshot.prop "last_verified_event_hash" = some hash →
        assertSnapshotHistoryHead log snapshot = .ok () := by
  cases k with
  | zero =>
    refine ⟨none, .null, rfl, rfl, rfl, fun snapshot hseq hhash => ?_⟩
    unfold assertSnapshotHistoryHead
    rw [hseq, hhash]
    rfl
  | succ k =>
    have hlt : k < (canonicalEventsFromLog log).length := by rw [h.length]; omega
    have hhead := h.counted.headEvent_succ k
    rw [List.getElem?_eq_getElem hlt] at hhead
    obtain ⟨hash, hhash⟩ := h.counted.hashed _ (List.getElem_mem hlt)
    refine ⟨_, .str hash, hhead, hhash, rfl, fun snapshot hseq hsnapshot => ?_⟩
    have hne : (Number.int (k + 1 : Nat) = .int 0) = False := by simp; omega
    simp only [assertSnapshotHistoryHead, hseq, hhead, ok_bind, Nat.cast_add, Nat.cast_one] at hne ⊢
    simp only [hne, if_false, hhash, hsnapshot, strictEq_str, beq_self_eq_true, throwUnless_true]

/-- The snapshot of the first `k` realm events is created and verifies. -/
theorem create (h : Cuttable host log s fs) (hchain : Chain host none log fs) {k : Nat}
    (hk : k ≤ fs.length) :
    ∃ snapshot verification,
      createRealmSnapshot host log (some (.num (.int k))) = .ok snapshot
      ∧ snapshotSequence snapshot = .int k
      ∧ verifyRealmSnapshot host log snapshot = .ok verification := by
  obtain ⟨projection, hcut, hbuild⟩ := h.build_take hk
  obtain ⟨headEvent, hash, hhead, hhash, hstring, hassert⟩ := h.head hk
  have hverify := verifyRealmEventHistory_eq_ok.mpr ⟨_, hchain⟩
  have hcreate : createRealmSnapshot host log (some (.num (.int k))) =
      .ok (snapshotOf projection (some hash) (.int k)) := by
    simp only [createRealmSnapshot, hverify, h.counted.filter_canonical, ok_bind, Option.isNone_some,
      Bool.false_eq_true, if_false, toNumber_num, isSnapshotSequence_int, throwUnless_true,
      h.counted.historyPrefix, hbuild, hhead, hhash, pure_eq_ok]
  have hmeta : verifySnapshotMetadata (snapshotOf projection (some hash) (.int k)) = .ok true :=
    verifySnapshotMetadata_eq_ok.mpr ⟨rfl, rfl, isSnapshotSequence_int k, hstring, rfl, rfl⟩
  have hseq : snapshotSequence (snapshotOf projection (some hash) (.int k)) = .int k := rfl
  have hprojection : snapshotProjection (snapshotOf projection (some hash) (.int k)) =
      AuthorityState.codec.encode projection := rfl
  have hverified : ∃ verification,
      verifyRealmSnapshot host log (snapshotOf projection (some hash) (.int k)) = .ok verification := by
    simp only [verifyRealmSnapshot, hmeta, hverify, hassert _ hseq rfl, hseq,
      h.counted.historyPrefix, hbuild, hprojection, decide_true, throwUnless_true,
      h.counted.remainingHistory, ok_bind, pure_eq_ok]
    exact ⟨_, rfl⟩
  obtain ⟨verification, hverified⟩ := hverified
  exact ⟨_, verification, hcreate, hseq, hverified⟩

/-- What a verified snapshot stands for. -/
theorem verified (h : Cuttable host log s fs) {snapshot : Json}
    {verification : SnapshotVerification}
    (hverify : verifyRealmSnapshot host log snapshot = .ok verification) :
    ∃ (k : Nat) (projection : AuthorityState), snapshotSequence snapshot = .int k
      ∧ Cut host k (canonicalEventsFromLog log) s fs projection
      ∧ verification.projection = AuthorityState.codec.encode (projection.rounded fun _ => true)
      ∧ verification.remainingEvents = (canonicalEventsFromLog log).drop k := by
  unfold verifyRealmSnapshot at hverify
  obtain ⟨_, hmeta, hverify⟩ := bind_eq_ok.mp hverify
  obtain ⟨-, -, hinteger, -⟩ := verifySnapshotMetadata_eq_ok.mp hmeta
  obtain ⟨k, hseq⟩ := exists_of_isSnapshotSequence hinteger
  obtain ⟨_, -, hverify⟩ := bind_eq_ok.mp hverify
  obtain ⟨_, hassert, hverify⟩ := bind_eq_ok.mp hverify
  -- the head is one of the realm events
  have hk : k ≤ fs.length := by
    cases k with
    | zero => omega
    | succ k =>
      rw [← h.length]
      by_contra hlt
      have hhead := h.counted.headEvent_succ k
      rw [List.getElem?_eq_none (by omega)] at hhead
      have hne : ¬ (Number.int (k + 1) = .int 0) := by simp; omega
      simp only [assertSnapshotHistoryHead, hseq, Nat.cast_add, Nat.cast_one, hhead, ok_bind, hne,
        if_false] at hassert
      cases hassert
  obtain ⟨projection, hcut, hbuild⟩ := h.build_take hk
  simp only [hseq, h.counted.historyPrefix, hbuild, h.counted.remainingHistory, ok_bind,
    throwUnless_bind_eq_ok, decide_eq_true_eq, pure_eq_ok, Except.ok.injEq] at hverify
  obtain ⟨htext, rfl⟩ := hverify
  refine ⟨k, projection, hseq, hcut, ?_, rfl⟩
  show clone (snapshotProjection snapshot) = _
  rw [← clone_eq_of_text htext, hcut.plain.clone_encode]

theorem canonical_drop (h : Cuttable host log s fs) (k : Nat) :
    ∀ event ∈ (canonicalEventsFromLog log).drop k, isCanonicalRealmEvent event = .ok true := by
  intro event he
  obtain ⟨hmem, hreal⟩ := List.mem_filter.mp (List.mem_of_mem_drop he)
  rw [h.counted.isCanonical hmem]
  exact congrArg Except.ok hreal

theorem foldlM_applyAuthorityEvent {events : List Json}
    (h : ∀ event ∈ events, isCanonicalRealmEvent event = .ok true) (projection : AuthorityState) :
    events.foldlM applyAuthorityEvent projection = replayFrom projection events := by
  induction events generalizing projection with
  | nil => rfl
  | cons event events ih =>
    have hevent : replayEvent projection event = applyAuthorityEvent projection event := by
      rw [replayEvent, h event List.mem_cons_self]
      rfl
    rw [replayFrom, List.foldlM_cons, List.foldlM_cons, hevent]
    congr 1
    funext next
    exact ih (fun e he => h e (List.mem_cons_of_mem event he)) next

/-- A rebuild from a verified snapshot ends in the replayed projection, up to scopes. -/
theorem rebuild (h : Cuttable host log s fs) {snapshot : Json}
    {verification : SnapshotVerification}
    (hverify : verifyRealmSnapshot host log snapshot = .ok verification) :
    ∃ k : Nat, snapshotSequence snapshot = .int k ∧ rebuildFromSnapshot host log snapshot =
      .ok (s.rounded (untouched ((canonicalEventsFromLog log).drop k))) := by
  obtain ⟨k, projection, hseq, hcut, hprojection, hremaining⟩ := h.verified hverify
  refine ⟨k, hseq, ?_⟩
  rw [rebuildFromSnapshot, hverify, ok_bind, hprojection, AuthorityState.codec.decode_encode]
  show verification.remainingEvents.foldlM applyAuthorityEvent _ = _
  rw [hremaining, foldlM_applyAuthorityEvent (h.canonical_drop k), hcut.after]

theorem untouched_drop (h : Cuttable host log s fs) (k : Nat) (realm : String) :
    untouched ((canonicalEventsFromLog log).drop k) realm = true ↔
      ¬ EstablishedAfter log (.int k) realm := by
  rw [← filter_lt h.counted.numbered]
  simp only [untouched, List.all_eq_true, List.mem_filter, bne_iff_ne, EstablishedAfter, not_exists,
    not_and]
  constructor
  · rintro hall event he hcanon hn htrust
    have hreal : isRealm event = true := by rw [isRealm, hcanon]
    obtain ⟨n, hn, hlt⟩ := hn
    refine hall event ⟨List.mem_filter.mpr ⟨he, hreal⟩, ?_⟩ htrust
    rw [sequenceHolds, hn]
    exact hlt
  · rintro hno event ⟨hmem, hholds⟩ htrust
    obtain ⟨he, hreal⟩ := List.mem_filter.mp hmem
    obtain ⟨n, hn⟩ := h.counted.sequence hmem
    have hcanon : isCanonicalRealmEvent event = .ok true :=
      (h.counted.isCanonical he).trans (congrArg Except.ok hreal)
    refine hno event he hcanon ⟨n, hn, ?_⟩ htrust
    rwa [sequenceHolds, hn] at hholds

theorem rebuild_eq_ok_iff (h : Cuttable host log s fs) {snapshot : Json}
    {verification : SnapshotVerification}
    (hverify : verifyRealmSnapshot host log snapshot = .ok verification) :
    rebuildFromSnapshot host log snapshot = .ok s ↔ ∀ t ∈ s.federationTrusts,
      t.allowedClaimScopes.finite = true
        ∨ EstablishedAfter log (snapshotSequence snapshot) t.realmId := by
  obtain ⟨k, hseq, hrebuild⟩ := h.rebuild hverify
  rw [hrebuild, Except.ok.injEq, rounded_eq_self, hseq]
  refine forall₂_congr fun t _ => ?_
  rw [h.untouched_drop, ← or_iff_not_imp_right]

end Cuttable

/-- Every cut of a reachable log has a snapshot that verifies. A rebuild from a verified snapshot gives
the replayed projection exactly when each trust in it has finite scopes or was established after
the cut. -/
theorem snapshot_rebuild_iff {host : Host} {ledger : Ledger} (h : Reachable host ledger) :
    ∃ s, ledger.current_authority_state = some s
      ∧ buildCurrentAuthorityState host ledger.event_log = .ok s
      ∧ (∀ k : Nat, (Number.int k).le s.lastSequence = true → ∃ snapshot verification,
        createRealmSnapshot host ledger.event_log (some (.num (.int k))) = .ok snapshot
        ∧ snapshotSequence snapshot = .int k
        ∧ verifyRealmSnapshot host ledger.event_log snapshot = .ok verification)
      ∧ ∀ snapshot verification,
        verifyRealmSnapshot host ledger.event_log snapshot = .ok verification →
        (rebuildFromSnapshot host ledger.event_log snapshot = .ok s ↔ ∀ t ∈ s.federationTrusts,
          t.allowedClaimScopes.finite = true
            ∨ EstablishedAfter ledger.event_log (snapshotSequence snapshot) t.realmId) := by
  obtain ⟨s, fs, hlive, hcut⟩ := h.cuttable
  refine ⟨s, hlive.state, hlive.build, fun k hk => ?_, fun snapshot verification hverify =>
    hcut.rebuild_eq_ok_iff hverify⟩
  rw [hlive.count, Number.int_le_int, decide_eq_true_eq] at hk
  exact hcut.create hlive.chain (by exact_mod_cast hk)

theorem snapshot_rebuild_alice :
    ∃ s, (aliceLedger plainHost).current_authority_state = some s
      ∧ buildCurrentAuthorityState plainHost (aliceLedger plainHost).event_log = .ok s
      ∧ (∀ k : Nat, (Number.int k).le s.lastSequence = true → ∃ snapshot verification,
        createRealmSnapshot plainHost (aliceLedger plainHost).event_log (some (.num (.int k))) =
          .ok snapshot
        ∧ snapshotSequence snapshot = .int k
        ∧ verifyRealmSnapshot plainHost (aliceLedger plainHost).event_log snapshot =
          .ok verification)
      ∧ ∀ snapshot verification,
        verifyRealmSnapshot plainHost (aliceLedger plainHost).event_log snapshot = .ok verification →
        (rebuildFromSnapshot plainHost (aliceLedger plainHost).event_log snapshot = .ok s ↔
          ∀ t ∈ s.federationTrusts, t.allowedClaimScopes.finite = true
            ∨ EstablishedAfter (aliceLedger plainHost).event_log (snapshotSequence snapshot)
              t.realmId) :=
  snapshot_rebuild_iff (reachable_alice plainHost)

/-! ## A trust with unbounded scopes -/

def aliceCreated : ScriptEntry :=
  ⟨"ROOT_AUTHORITY_CREATED", "root:alice", "root:alice", [("root_id", .str "alice")], ""⟩

def aliceTrusts (payload : Fields) : ScriptEntry :=
  ⟨"FEDERATION_TRUST_ESTABLISHED", "root:alice", "root:alice", payload, ""⟩

/-- The scopes are the text `[1e999]`. -/
def unboundedTrust : Fields :=
  [("remote_realm_id", .str "bob"), ("allowed_claim_scopes", .arr [.num (.infinity false)])]

theorem aliceCreated_fits : aliceCreated.Fits 1 emptyAuthorityState .rootAuthorityCreated where
  type := rfl
  trimmedType := by decide
  signer := by decide
  trimmedSigner := by decide
  reference := by decide
  trimmedReference := by decide
  payload := by decide
  policy := by decide
  rule := rfl

/-- A ledger whose only event creates Alice's root. -/
theorem exists_alice_created (host : Host) :
    ∃ ledger s root, Reachable host ledger ∧ Live host ledger s [(aliceCreated.normalized 1).hashed]
      ∧ s = { emptyAuthorityState with rootAuthority := some root, lastSequence := .int 1 }
      ∧ root.status = .active ∧ root.id = "alice" ∧ root.authorityRef = "root:alice" := by
  obtain ⟨event, ledger, hcall, -, -, hlive⟩ :=
    (live_empty host).acceptEntry aliceCreated_fits (c := .establishRoot "alice" "root:alice") rfl
  exact ⟨ledger, _, _, Reachable.empty.step (.accept hcall), hlive, rfl, rfl, rfl, rfl⟩

/-- A ledger whose second event establishes a trust with this payload. -/
theorem exists_alice_trusts (host : Host) {payload : Fields} {realm : String}
    {root scopes scope policy head : Json}
    (hpayload : validatePayload "FEDERATION_TRUST_ESTABLISHED" payload = [])
    (hc : readEstablishTrust payload = .ok (.establishTrust realm root scopes scope policy head)) :
    ∃ ledger s, Reachable host ledger ∧ Live host ledger s
        [(aliceCreated.normalized 1).hashed, ((aliceTrusts payload).normalized 2).hashed]
      ∧ ∃ t ∈ s.federationTrusts, t.realmId = realm ∧ t.allowedClaimScopes = scopes
        ∧ t.remoteEventHead = head := by
  obtain ⟨ledger, s, created, hreach, hlive, rfl, hactive, hid, href⟩ := exists_alice_created host
  have hfits : (aliceTrusts payload).Fits 2 { emptyAuthorityState with
      rootAuthority := some created, lastSequence := .int 1 } .federationTrustEstablished := {
    type := rfl
    trimmedType := (by decide : trim "FEDERATION_TRUST_ESTABLISHED" = "FEDERATION_TRUST_ESTABLISHED")
    signer := (by decide : "root:alice" ≠ "")
    trimmedSigner := (by decide : trim "root:alice" = "root:alice")
    reference := (by decide : "root:alice" ≠ "")
    trimmedReference := (by decide : trim "root:alice" = "root:alice")
    payload := hpayload
    policy := by
      show (created.status == .active && (created.id == _ || created.authorityRef == _)) = true
      rw [hactive, hid, href]
      show (Status.active == .active && ("alice" == "root:alice" || "root:alice" == "root:alice")) = true
      decide
    rule := rfl }
  obtain ⟨event, ledger', hcall, -, -, hlive'⟩ := hlive.acceptEntry hfits hc
  exact ⟨ledger', _, hreach.step (.accept hcall), hlive', _, List.mem_singleton_self _, rfl, rfl, rfl⟩

theorem snapshot_rebuild_fails :
    ¬ ∀ (host : Host) (ledger : Ledger) (s : AuthorityState), Reachable host ledger →
      buildCurrentAuthorityState host ledger.event_log = .ok s →
      ∀ k : Nat, (Number.int k).le s.lastSequence = true → ∃ snapshot verification,
        createRealmSnapshot host ledger.event_log (some (.num (.int k))) = .ok snapshot
        ∧ verifyRealmSnapshot host ledger.event_log snapshot = .ok verification
        ∧ rebuildFromSnapshot host ledger.event_log snapshot = .ok s := by
  intro hclaim
  obtain ⟨ledger, s, hreach, hlive, t, ht, -, hscopes, -⟩ :=
    exists_alice_trusts plainHost (show validatePayload _ unboundedTrust = [] by decide) rfl
  obtain ⟨s', fs, hlive', hcut⟩ := hreach.cuttable
  obtain rfl : s' = s := Option.some.inj (hlive'.state.symm.trans hlive.state)
  have hk : (Number.int (2 : Nat)).le s'.lastSequence = true := by
    rw [hlive.count]
    rfl
  have hlen : fs.length = 2 := by
    have hcount := Number.int.inj (hlive'.count.symm.trans hlive.count)
    exact_mod_cast hcount
  obtain ⟨snapshot, verification, hcreate, hverify, hrebuild⟩ :=
    hclaim plainHost ledger s' hreach hlive.build 2 hk
  obtain ⟨created, _, hcreate', hseq, -⟩ := hcut.create hlive'.chain (show 2 ≤ fs.length by omega)
  obtain rfl : created = snapshot := Except.ok.inj (hcreate'.symm.trans hcreate)
  -- no event follows the cut
  have hafter : ¬ EstablishedAfter ledger.event_log (.int (2 : Nat)) t.realmId := by
    rw [← hcut.untouched_drop, List.drop_of_length_le (by rw [hcut.length, hlen])]
    rfl
  rcases (hcut.rebuild_eq_ok_iff hverify).mp hrebuild t ht with hfinite | hestablished
  · rw [hscopes] at hfinite
    cases hfinite
  · exact hafter (hseq ▸ hestablished)

end SimpleL1.Realm
