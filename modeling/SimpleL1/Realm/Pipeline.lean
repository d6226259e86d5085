import SimpleL1.Realm.Acceptance
import SimpleL1.Realm.Change

/-!
# The live ledger

`acceptAndApplyRealmEvent` validates a proposal, projects the accepted event and
appends it. A call returns a result or throws, and leaves a ledger either way.
`Live` is the invariant of a ledger grown by accepted events: its projection is
the replay of its log, its log is a hash chain, and its counter is the chain's
length. `Reachable` also lets events in between that are no realm events.
-/

namespace SimpleL1.Realm

open SimpleL1.Js SimpleL1.Lib

/-! ## The pipeline -/

def applyCanonicalAuthorityProjection (ledger : Ledger) (event : Json) :
    JsM AuthorityState × Ledger :=
  let ledger := ensureAuthorityStateStores ledger
  let state := ledger.current_authority_state.getD emptyAuthorityState
  match isCanonicalRealmEvent event with
  | .error e => (.error e, ledger)
  | .ok false => (.ok state, ledger)
  | .ok true =>
    match applyAuthorityEvent state event with
    | .error e => (.error e, ledger)
    | .ok next =>
      (.ok next, { ledger with
        current_authority_state := some next
        realm_canonical_sequence :=
          some (numOr next.lastSequence (ledger.realm_canonical_sequence.getD (.int 0))) })

/-- The `applyEvent` callback: project the event, then append it. -/
def applyEvent (ledger : Ledger) (event : Json) : JsM Unit × Ledger :=
  match applyCanonicalAuthorityProjection ledger event with
  | (.error e, ledger) => (.error e, ledger)
  | (.ok _, ledger) => (.ok (), { ledger with event_log := ledger.event_log ++ [event] })

def acceptAndApplyRealmEvent (host : Host) (clock : Clock) (ledger : Ledger) (proposal : Json)
    (skipSequenceCheck : Bool := false) : JsM Validation × Ledger :=
  match validateRealmEventProposal host clock ledger proposal skipSequenceCheck with
  | .error e => (.error e, ledger)
  | .ok (.rejected codes n) => (.ok (.rejected codes n), ledger)
  | .ok (.accepted event n) =>
    match applyEvent ledger event with
    | (.error e, ledger) => (.error e, ledger)
    | (.ok _, ledger) => (.ok (.accepted event n), ledger)

/-- An accepting call validated the proposal and applied the event. -/
theorem accept_eq_accepted {host : Host} {clock : Clock} {ledger ledger' : Ledger}
    {proposal event : Json} {n : NormalizedProposal} {skip : Bool}
    (h : acceptAndApplyRealmEvent host clock ledger proposal skip =
      (.ok (.accepted event n), ledger')) :
    validateRealmEventProposal host clock ledger proposal skip = .ok (.accepted event n)
      ∧ applyEvent ledger event = (.ok (), ledger') := by
  unfold acceptAndApplyRealmEvent at h
  split at h
  · cases h
  · cases h
  next event' n' hval =>
  split at h
  · cases h
  next l happly =>
  cases h
  exact ⟨hval, happly⟩

def Ledger.empty : Ledger where
  event_log := []
  current_authority_state := some emptyAuthorityState
  realm_canonical_sequence := some (.int 0)

/-! ## Ledgers that live by acceptance -/

/-- The projection and the counter of the ledger belong to its log, whose hashed fields are `fs`. -/
structure Live (host : Host) (ledger : Ledger) (s : AuthorityState) (fs : List HashedFields) :
    Prop where
  state : ledger.current_authority_state = some s
  counter : ledger.realm_canonical_sequence = some s.lastSequence
  chain : Chain host none ledger.event_log fs
  replay : replayFrom emptyAuthorityState ledger.event_log = .ok s
  count : s.lastSequence = .int fs.length

/-- The digest after the log of a live ledger. -/
abbrev headOf (host : Host) (fs : List HashedFields) : Option String :=
  HashChain.head (link host) none fs

theorem live_empty (host : Host) : Live host Ledger.empty emptyAuthorityState [] :=
  ⟨rfl, rfl, .nil none, rfl, rfl⟩

namespace Live

variable {host : Host} {ledger : Ledger} {s : AuthorityState} {fs : List HashedFields}

theorem latest (h : Live host ledger s fs) :
    latestRealmEventHash ledger.event_log = .ok (digest (headOf host fs)) := h.chain.latest

theorem current (h : Live host ledger s fs) : currentAuthorityStateForLedger host ledger = .ok s := by
  simp only [currentAuthorityStateForLedger, h.state]; rfl

theorem build (h : Live host ledger s fs) :
    buildCurrentAuthorityState host ledger.event_log = .ok s := by
  rw [buildCurrentAuthorityState, verifyRealmEventHistory_eq_ok.mpr ⟨fs, h.chain⟩, ok_bind, h.replay]

theorem stores (h : Live host ledger s fs) : ensureAuthorityStateStores ledger = ledger := by
  obtain ⟨log, state, counter⟩ := ledger
  have hs : state = some s := h.state
  have hc : counter = some s.lastSequence := h.counter
  subst hs hc
  rfl

theorem nextExpected (h : Live host ledger s fs) :
    nextExpectedSequence ledger = .int (fs.length + 1) := by
  simp only [nextExpectedSequence, h.state, h.counter, h.count, Option.getD_some, numOr]
  split
  · rfl
  · next hz =>
    have hlen : fs.length = 0 := by simpa [Number.truthy] using hz
    simp [hlen, Number.succ]

end Live

theorem replayFrom_append (s : AuthorityState) (log log' : List Json) :
    replayFrom s (log ++ log') = (do replayFrom (← replayFrom s log) log') :=
  List.foldlM_append

theorem replayFrom_singleton (s : AuthorityState) (event : Json) :
    replayFrom s [event] = replayEvent s event :=
  bind_pure (replayEvent s event)

/-- The handler of an accepted event applies one change, with the accepted sequence number. -/
theorem Shows.replay_eq_ok {event : Json} {n : NormalizedProposal} {t : EventType}
    (h : Shows event n) (ht : n.envelope.type = t.name) {s s' : AuthorityState} :
    replayEvent s event = .ok s' ↔
      ∃ c, changeOf n.envelope.toJson ((realmEventRegistry t).migrationAdapter (.obj n.payload)) t
          s.sessions.length = .ok c
        ∧ s' = c.apply (stampOf n.envelope.toJson event) (s.setSequence n.envelope.sequence) := by
  have hseq : toNumber (n.envelope.toJson.prop "sequence") = .ok n.envelope.sequence := rfl
  rw [h.replay ht, apply_eq, hseq, ok_bind, bind_eq_ok]
  simp only [pure_eq_ok, Except.ok.injEq, eq_comm]

theorem applyEvent_eq_ok {ledger ledger' : Ledger} {event : Json} {s : AuthorityState}
    (hs : ledger.current_authority_state = some s)
    (hstores : ensureAuthorityStateStores ledger = ledger)
    (hcanon : isCanonicalRealmEvent event = .ok true) :
    applyEvent ledger event = (.ok (), ledger') ↔
      ∃ s', replayEvent s event = .ok s' ∧ ledger' = {
        event_log := ledger.event_log ++ [event]
        current_authority_state := some s'
        realm_canonical_sequence :=
          some (numOr s'.lastSequence (ledger.realm_canonical_sequence.getD (.int 0))) } := by
  have hreplay : replayEvent s event = applyAuthorityEvent s event := by
    simp only [replayEvent, hcanon]; rfl
  simp only [applyEvent, applyCanonicalAuthorityProjection, hstores, hs, hcanon, hreplay,
    Option.getD_some]
  cases applyAuthorityEvent s event with
  | error e => simp
  | ok next => simp [eq_comm]

/-- What validation has checked of a proposal it accepts on a live ledger, and the event it builds. -/
structure Checked (host : Host) (clock : Clock) (s : AuthorityState) (fs : List HashedFields)
    (t : EventType) (n : NormalizedProposal) (event : Json) : Prop where
  trimmed : n.envelope.Trimmed
  type : n.envelope.type = t.name
  signer : n.envelope.signer ≠ ""
  authority_reference : n.envelope.authority_reference ≠ ""
  sequence : n.envelope.sequence = .int (fs.length + 1)
  timestamp : isNonEmptyString (some n.envelope.timestamp) = true
  payload : validatePayload t.name n.payload = []
  policy : canSignerSatisfyAuthorityPolicy s n.envelope.signer
    (realmEventRegistry t).requiredAuthority = true
  rule : (realmEventRegistry t).validateTransition s n.envelope n.payload = .ok []
  event_eq : event = acceptedEvent host clock n (digest (headOf host fs))

/-- What one accepted proposal does to a live ledger. -/
structure Accepts (host : Host) (clock : Clock) (s : AuthorityState) (fs : List HashedFields)
    (t : EventType) (n : NormalizedProposal) (event : Json) (s' : AuthorityState) : Prop
    extends Checked host clock s fs t n event where
  applied : replayEvent s event = .ok s'

namespace Checked

variable {host : Host} {clock : Clock} {s : AuthorityState} {fs : List HashedFields}
  {t : EventType} {n : NormalizedProposal} {event : Json}

theorem shows (h : Checked host clock s fs t n event) : Shows event n :=
  h.event_eq ▸ shows_acceptedEvent host clock n _

theorem chained (h : Checked host clock s fs t n event) :
    isHashChainedRealmEvent event = .ok true := h.shows.chained h.type

theorem attached (h : Checked host clock s fs t n event) :
    Attached host (headOf host fs) event n.hashed :=
  h.event_eq ▸ attached_acceptedEvent host clock (h.type ▸ t.name_ne_empty) _

/-- The change the event asks for. -/
theorem replay_eq_ok (h : Checked host clock s fs t n event) {s' : AuthorityState} :
    replayEvent s event = .ok s' ↔
      ∃ c, changeOf n.envelope.toJson ((realmEventRegistry t).migrationAdapter (.obj n.payload)) t
          s.sessions.length = .ok c
        ∧ s' = c.apply (stampOf n.envelope.toJson event) (s.setSequence n.envelope.sequence) :=
  h.shows.replay_eq_ok h.type

end Checked

namespace Accepts

variable {host : Host} {clock : Clock} {s s' : AuthorityState} {fs : List HashedFields}
  {t : EventType} {n : NormalizedProposal} {event : Json}

theorem change (h : Accepts host clock s fs t n event s') :
    ∃ c, changeOf n.envelope.toJson ((realmEventRegistry t).migrationAdapter (.obj n.payload)) t
        s.sessions.length = .ok c
      ∧ s' = c.apply (stampOf n.envelope.toJson event) (s.setSequence n.envelope.sequence) :=
  h.replay_eq_ok.mp h.applied

theorem lastSequence (h : Accepts host clock s fs t n event s') :
    s'.lastSequence = .int (fs.length + 1) := by
  obtain ⟨c, -, rfl⟩ := h.change
  rw [Change.apply_lastSequence, AuthorityState.setSequence, h.sequence]
  rfl

end Accepts

/-- A proposal validation accepts on a live ledger. -/
theorem Live.check {host : Host} {clock : Clock} {ledger : Ledger} {s : AuthorityState}
    {fs : List HashedFields} {proposal event : Json} {n : NormalizedProposal}
    (h : Live host ledger s fs)
    (hval : validateRealmEventProposal host clock ledger proposal = .ok (.accepted event n)) :
    ∃ t, Checked host clock s fs t n event := by
  obtain ⟨hn, ⟨t, state, had⟩, prev, hprev, hevent⟩ := validateRealmEventProposal_accepted.mp hval
  cases Except.ok.inj (had.current.symm.trans h.current)
  cases Except.ok.inj (hprev.symm.trans h.latest)
  have htrim := normalize_trimmed hn
  exact ⟨t, {
    trimmed := htrim
    type := had.type
    signer := htrim.signer ▸ had.signer
    authority_reference := htrim.authority_reference ▸ had.authority_reference
    sequence := (had.expected rfl).trans h.nextExpected
    timestamp := had.timestamp
    payload := had.payload
    policy := had.policy
    rule := had.rule
    event_eq := hevent }⟩

/-- An accepting call on a live ledger: what it checked, and that the ledger stays live. -/
theorem Live.accept {host : Host} {clock : Clock} {ledger ledger' : Ledger} {s : AuthorityState}
    {fs : List HashedFields} {proposal event : Json} {n : NormalizedProposal}
    (h : Live host ledger s fs)
    (hcall : acceptAndApplyRealmEvent host clock ledger proposal =
      (.ok (.accepted event n), ledger')) :
    ∃ t s', Accepts host clock s fs t n event s' ∧ Live host ledger' s' (fs ++ [n.hashed])
      ∧ ledger'.event_log = ledger.event_log ++ [event] := by
  obtain ⟨hval, happly⟩ := accept_eq_accepted hcall
  obtain ⟨t, hcheck⟩ := h.check hval
  obtain ⟨s', hs', rfl⟩ := (applyEvent_eq_ok h.state h.stores hcheck.shows.canonical).mp happly
  have hacc : Accepts host clock s fs t n event s' := { hcheck with applied := hs' }
  refine ⟨t, s', hacc, ?_, rfl⟩
  constructor
  · rfl
  · -- the new number is not 0, so it replaces the counter
    simp only [hacc.lastSequence, numOr]
    rw [if_pos]
    simp only [Number.truthy, bne_iff_ne, ne_eq]
    omega
  · exact h.chain.append (.link hacc.chained hacc.attached (.nil _))
  · rw [replayFrom_append, h.replay, ok_bind, replayFrom_singleton, hs']
  · rw [hacc.lastSequence]; simp

theorem validatePreviousEventHash_eq_nil {ledger : Ledger} {d : Option String} {prev : Json}
    (hlatest : latestRealmEventHash ledger.event_log = .ok (digest d))
    (hprev : prev = .null ∨ prev = digest d) : validatePreviousEventHash ledger prev = .ok [] := by
  rcases hprev with rfl | rfl
  · rfl
  · unfold validatePreviousEventHash
    split
    · rfl
    · simp only [hlatest, ok_bind]
      exact if_pos (strictEq_digest_iff.mpr rfl)

/-- A live ledger accepts what passes the checks and can be applied. -/
theorem Live.accepts {host : Host} {clock : Clock} {ledger : Ledger} {s s' : AuthorityState}
    {fs : List HashedFields} {t : EventType} {proposal event : Json} {n : NormalizedProposal}
    (h : Live host ledger s fs) (hn : normalizeRealmEventProposal clock.now proposal = .ok n)
    (hacc : Accepts host clock s fs t n event s')
    (hprev : n.envelope.previous_event_hash = .null
      ∨ n.envelope.previous_event_hash = digest (headOf host fs)) :
    ∃ ledger', acceptAndApplyRealmEvent host clock ledger proposal =
      (.ok (.accepted event n), ledger') := by
  have htrim := hacc.trimmed
  have had : Admitted host ledger n false t s := {
    type := hacc.type
    signer := htrim.signer.symm ▸ hacc.signer
    authority_reference := htrim.authority_reference.symm ▸ hacc.authority_reference
    integer := by rw [hacc.sequence]; rfl
    positive := by
      rw [hacc.sequence]
      simp only [Number.ltOne, decide_eq_false_iff_not]
      omega
    timestamp := hacc.timestamp
    payload := hacc.payload
    expected := fun _ => hacc.sequence.trans h.nextExpected.symm
    previous := validatePreviousEventHash_eq_nil h.latest hprev
    current := h.current
    policy := hacc.policy
    rule := hacc.rule }
  have hval : validateRealmEventProposal host clock ledger proposal = .ok (.accepted event n) :=
    validateRealmEventProposal_accepted.mpr ⟨hn, ⟨t, s, had⟩, _, h.latest, hacc.event_eq⟩
  have happly := (applyEvent_eq_ok h.state h.stores hacc.shows.canonical).mpr ⟨s', hacc.applied, rfl⟩
  unfold acceptAndApplyRealmEvent
  simp only [hval, happly]
  exact ⟨_, rfl⟩

/-! ## Reachable ledgers -/

/-- An event replay and the verifier both skip. -/
def Foreign (event : Json) : Prop :=
  isCanonicalRealmEvent event = .ok false ∧ isHashChainedRealmEvent event = .ok false

theorem Foreign.replay {event : Json} (h : Foreign event) (s : AuthorityState) :
    replayEvent s event = .ok s := by
  rw [replayEvent, h.1]
  rfl

/-- One event is appended: an accepted realm event, or one that is no realm event. -/
inductive Step (host : Host) : Ledger → Json → Ledger → Prop where
  | accept {clock : Clock} {ledger ledger' : Ledger} {proposal event : Json}
      {n : NormalizedProposal} :
      acceptAndApplyRealmEvent host clock ledger proposal = (.ok (.accepted event n), ledger') →
      Step host ledger event ledger'
  | foreign {ledger : Ledger} {event : Json} : Foreign event →
      Step host ledger event { ledger with event_log := ledger.event_log ++ [event] }

inductive Reachable (host : Host) : Ledger → Prop where
  | empty : Reachable host Ledger.empty
  | step {ledger ledger' : Ledger} {event : Json} : Reachable host ledger →
      Step host ledger event ledger' → Reachable host ledger'

theorem Live.foreign {host : Host} {ledger : Ledger} {s : AuthorityState} {fs : List HashedFields}
    (h : Live host ledger s fs) {event : Json} (hf : Foreign event) :
    Live host { ledger with event_log := ledger.event_log ++ [event] } s fs where
  state := h.state
  counter := h.counter
  chain := by simpa using h.chain.append (.skip hf.2 (.nil _))
  replay := by
    rw [replayFrom_append, h.replay, ok_bind, replayFrom_singleton, hf.replay]
  count := h.count

/-- Induction over the events of a reachable ledger: `P` is kept by what an accepting call checks and
does, and by an event replay skips. -/
theorem Reachable.invariant {host : Host} {P : List Json → AuthorityState → List HashedFields → Prop}
    (empty : P [] emptyAuthorityState [])
    (accept : ∀ {log s fs clock t n event s'}, P log s fs → Accepts host clock s fs t n event s' →
      P (log ++ [event]) s' (fs ++ [n.hashed]))
    (foreign : ∀ {log s fs event}, P log s fs → Foreign event → P (log ++ [event]) s fs)
    {ledger : Ledger} (h : Reachable host ledger) :
    ∃ s fs, Live host ledger s fs ∧ P ledger.event_log s fs := by
  induction h with
  | empty => exact ⟨_, _, live_empty host, empty⟩
  | step _ hstep ih =>
    obtain ⟨s, fs, hlive, hP⟩ := ih
    cases hstep with
    | accept hcall =>
      obtain ⟨t, s', hacc, hlive', hlog⟩ := hlive.accept hcall
      exact ⟨s', _, hlive', hlog ▸ accept hP hacc⟩
    | foreign hf => exact ⟨s, fs, hlive.foreign hf, foreign hP hf⟩

theorem Reachable.live {host : Host} {ledger : Ledger} (h : Reachable host ledger) :
    ∃ s fs, Live host ledger s fs := by
  obtain ⟨s, fs, hlive, -⟩ :=
    h.invariant (P := fun _ _ _ => True) trivial (fun _ _ => trivial) (fun _ _ => trivial)
  exact ⟨s, fs, hlive⟩

theorem Step.event_log {host : Host} {ledger ledger' : Ledger} {event : Json}
    (h : Reachable host ledger) (hstep : Step host ledger event ledger') :
    ledger'.event_log = ledger.event_log ++ [event] := by
  obtain ⟨s, fs, hlive⟩ := h.live
  cases hstep with
  | accept hcall =>
    obtain ⟨_, _, _, _, hlog⟩ := hlive.accept hcall
    exact hlog
  | foreign _ => rfl

/-- Every event of a reachable log was appended to a reachable ledger with the log before it. -/
theorem Reachable.cut {host : Host} {ledger : Ledger} (h : Reachable host ledger)
    {pre post : List Json} {event : Json} (hlog : ledger.event_log = pre ++ event :: post) :
    ∃ l l', Reachable host l ∧ l.event_log = pre ∧ Step host l event l' := by
  induction h generalizing post with
  | empty => cases pre <;> cases hlog
  | step hr hstep ih =>
    rw [hstep.event_log hr] at hlog
    rcases post.eq_nil_or_concat' with rfl | ⟨post, last, rfl⟩
    · obtain ⟨hpre, hevent⟩ := List.append_inj' hlog rfl
      cases hevent
      exact ⟨_, _, hr, hpre, hstep⟩
    · rw [← List.cons_append, ← List.append_assoc] at hlog
      exact ih (List.append_inj' hlog rfl).1

theorem Reachable.of_prefix {host : Host} {ledger : Ledger} (h : Reachable host ledger)
    {pre post : List Json} (hlog : ledger.event_log = pre ++ post) :
    ∃ l, Reachable host l ∧ l.event_log = pre := by
  cases post with
  | nil => exact ⟨ledger, h, by rw [hlog, List.append_nil]⟩
  | cons event post =>
    obtain ⟨l, _, hl, hpre, _⟩ := h.cut hlog
    exact ⟨l, hl, hpre⟩

end SimpleL1.Realm
