import SimpleL1.Node.Delivery

/-!
# Realm events in the log of a node

The log stays a sound realm history as long as every broadcast that gets through
brings an event that is no realm event, or one that validation would accept: the
receiver does not validate. Proposals and routes keep the history on a primary
node by themselves.
-/

namespace SimpleL1.Node

open SimpleL1.Js SimpleL1.Lib SimpleL1.Lib.Effect

/-! ## A sound history -/

/-- The realm ledger of a log with the projection `s`. -/
def realmLedger (log : List Json) (s : Realm.AuthorityState) : Realm.Ledger :=
  ⟨log, some s, some s.lastSequence⟩

/-- Validation accepted every canonical event of the log, against the log before it. -/
def Vetted (host : Realm.Host) (log : List Json) : Prop :=
  ∀ before event rest, log = before ++ event :: rest → Realm.isCanonicalRealmEvent event = .ok true →
    ∃ s clock proposal n, Realm.buildCurrentAuthorityState host before = .ok s ∧
      Realm.validateRealmEventProposal host clock (realmLedger before s) proposal =
        .ok (.accepted event n)

/-- The log is vetted, and the next start rebuilds the projection from it. -/
structure SoundHistory (p : Platform) (ledger : Ledger) : Prop where
  vetted : Vetted p.toHost ledger.event_log
  rebuilds : Realm.buildCurrentAuthorityState p.toHost ledger.event_log =
    .ok ledger.current_authority_state

theorem Live.eq_realmLedger {host : Realm.Host} {ledger : Realm.Ledger} {s : Realm.AuthorityState}
    {fs : List Realm.HashedFields} (h : Realm.Live host ledger s fs) :
    ledger = realmLedger ledger.event_log s := by
  obtain ⟨log, state, counter⟩ := ledger
  have hs : state = some s := h.state
  have hc : counter = some s.lastSequence := h.counter
  subst hs hc
  rfl

theorem Reachable.vetted {host : Realm.Host} {ledger : Realm.Ledger}
    (h : Realm.Reachable host ledger) : Vetted host ledger.event_log := by
  intro before event rest hlog hcanonical
  obtain ⟨l, l', hl, rfl, hstep⟩ := h.cut hlog
  obtain ⟨s, fs, hlive⟩ := hl.live
  cases hstep with
  | @accept clock _ _ proposal _ n hcall =>
    refine ⟨s, clock, proposal, n, hlive.build, ?_⟩
    rw [← Live.eq_realmLedger hlive]
    exact (Realm.accept_eq_accepted hcall).1
  | foreign hf => rw [hf.1] at hcanonical; cases hcanonical

theorem sound_of_reachable {p : Platform} {ledger : Ledger}
    (h : Realm.Reachable p.toHost ledger.realm) : SoundHistory p ledger where
  vetted := Reachable.vetted h
  rebuilds := by
    obtain ⟨s, fs, hlive⟩ := h.live
    have hs : some ledger.current_authority_state = some s := hlive.state
    rw [Option.some.inj hs]
    exact hlive.build

/-! ## The realm part of the ledger under an event -/

section
variable {p : Platform} {config : RealmConfig} {ledger : Ledger} {event : Json}

theorem realm_congr {l l' : Ledger} (hprojection : view .projection l = view .projection l')
    (hlog : l.event_log = l'.event_log) : l.realm = l'.realm := by
  unfold Ledger.realm
  rw [hlog, (Prod.mk.inj hprojection).1, (Prod.mk.inj hprojection).2]

theorem projection_born : view .projection ledger = view .projection (ledger.born event) :=
  agree_born event .projection nofun

/-- An event with a handler of its own leaves the realm part alone. -/
theorem realm_handle_typed {t : LedgerEventType} (htype : ledgerEventType event = some t) :
    (after (handleEvent p event) (ledger.born event)).realm = ledger.realm := by
  have hno : Cell.projection ∉ eventFootprint p event := by
    unfold eventFootprint
    rw [htype]
    cases t <;> simp [footprint, entityCells]
  refine realm_congr ?_ event_log_handle_born
  exact ((local_handleEvent p event).frame _ _ hno).trans projection_born.symm

/-- Any other event replaces the projection, or throws. -/
theorem realm_handle_untyped (htype : ledgerEventType event = none) :
    (after (handleEvent p event) (ledger.born event)).realm =
      match projectionOf ledger.current_authority_state ledger.realm_canonical_sequence event with
      | .ok (state, sequence) => ⟨ledger.event_log, some state, some sequence⟩
      | .error _ => ledger.realm := by
  have hstate : (ledger.born event).current_authority_state = ledger.current_authority_state :=
    (Prod.mk.inj projection_born).1.symm
  have hsequence :
      (ledger.born event).realm_canonical_sequence = ledger.realm_canonical_sequence :=
    (Prod.mk.inj projection_born).2.symm
  have hlog : (ledger.born event).event_log = ledger.event_log :=
    (agree_born event .log nofun).symm
  have hborn : (ledger.born event).realm = ledger.realm :=
    realm_congr projection_born.symm hlog
  unfold handleEvent
  rw [htype]
  cases hcanonical : Realm.isCanonicalRealmEvent event with
  | error e => simp [after_bind, projectionOf, hcanonical, hborn]
  | ok canonical =>
    cases canonical with
    | false =>
      simp only [after_bind, outcome_lift, after_lift, projectionOf, hcanonical]
      exact hborn
    | true =>
      simp only [after_bind, outcome_lift, after_lift, if_true, after_projectRealmEvent, hstate,
        hsequence]
      cases projectionOf ledger.current_authority_state ledger.realm_canonical_sequence event with
      | error e => exact hborn
      | ok next =>
        rw [← hlog]
        rfl

theorem realm_commit (hrole : config.role = .primary) :
    (after (commitEvent p config event) ledger).realm =
      { ledger.realm with event_log := ledger.event_log ++ [event] } := by
  cases hroot : calculateStateRoot p ledger with
  | error e => rw [commitEvent_after p ledger event hrole hroot]; rfl
  | ok root =>
    have hroot' : calculateStateRoot p (ledger.append event) = .ok root := hroot
    unfold commitEvent updateStateRoot saveLedger
    simp only [outcome_bind, after_bind, outcome_lift, after_lift, assertWritable_primary hrole,
      outcome_modify, after_modify, outcome_reading, after_reading, hroot']
    rfl

/-! ## One delivery -/

/-- The event can be logged, and its handler takes it. -/
def Passes (p : Platform) (ledger : Ledger) (event : Json) : Prop :=
  logLine event = .ok () ∧ verdict p ledger event = .ok ()

/-- Validation accepts a proposal for the event. -/
def WouldAccept (p : Platform) (ledger : Ledger) (event : Json) : Prop :=
  ∃ clock proposal n, Realm.validateRealmEventProposal p.toHost clock ledger.realm proposal =
    .ok (.accepted event n)

/-- An event that passes belongs into the history: on a primary node it is no realm event or one
validation accepts, on a standby it leaves the projection as it is. -/
def Belongs (p : Platform) (config : RealmConfig) (ledger : Ledger) (event : Json) : Prop :=
  Passes p ledger event →
    match config.role with
    | .primary => Realm.Foreign event ∨ WouldAccept p ledger event
    | .standby => ledgerEventType event = none → ProjectionThere ledger event

theorem realm_handle_kept (htype : ledgerEventType event = none → ProjectionThere ledger event) :
    (after (handleEvent p event) (ledger.born event)).realm = ledger.realm := by
  cases h : ledgerEventType event with
  | some t => exact realm_handle_typed h
  | none =>
    rw [realm_handle_untyped h]
    have hthere := htype h
    unfold ProjectionThere at hthere
    cases hnext : projectionOf ledger.current_authority_state ledger.realm_canonical_sequence event with
    | error e => rfl
    | ok next =>
      obtain ⟨hstate, hsequence⟩ := hthere next.1 next.2 hnext
      dsimp only
      rw [← hstate, ← hsequence]
      rfl

theorem projectionThere_of_error {e : Error} (h : verdict p ledger event = .error e)
    (htype : ledgerEventType event = none) : ProjectionThere ledger event := by
  unfold verdict at h
  rw [htype] at h
  intro state sequence hnext
  unfold realmVerdict at h
  rw [hnext] at h
  cases h

theorem projectionThere_of_foreign (h : Realm.Foreign event) : ProjectionThere ledger event := by
  intro state sequence hnext
  unfold projectionOf at hnext
  rw [h.1] at hnext
  cases hnext
  exact ⟨rfl, rfl⟩

theorem ne_ledgerEventType (t : Realm.EventType) : ∀ u ∈ LedgerEventType.all, t.name ≠ u.name := by
  cases t <;> decide

/-- The type of an accepted event is none of the types with a handler of their own. -/
theorem ledgerEventType_accepted {clock : Realm.Clock} {proposal : Json}
    {n : Realm.NormalizedProposal}
    (h : Realm.validateRealmEventProposal p.toHost clock ledger.realm proposal =
      .ok (.accepted event n)) : ledgerEventType event = none := by
  obtain ⟨-, ⟨t, state, had⟩, prev, -, rfl⟩ := Realm.validateRealmEventProposal_accepted.mp h
  have htype := (Realm.shows_acceptedEvent p.toHost clock n prev).type
  rw [had.type] at htype
  unfold ledgerEventType
  rw [htype, List.find?_eq_none]
  intro u hu heq
  exact ne_ledgerEventType t u hu (beq_iff_eq.mp heq)

/-- `applyEvent` of the realm code does what the node does with a realm event. -/
theorem realm_applyEvent {state : Realm.AuthorityState} {sequence : Number}
    (h : projectionOf ledger.current_authority_state ledger.realm_canonical_sequence event =
      .ok (state, sequence)) :
    Realm.applyEvent ledger.realm event =
      (.ok (), ⟨ledger.event_log ++ [event], some state, some sequence⟩) := by
  have hstores : Realm.ensureAuthorityStateStores ledger.realm = ledger.realm := rfl
  have hstate : ledger.realm.current_authority_state.getD Realm.emptyAuthorityState =
    ledger.current_authority_state := rfl
  unfold projectionOf at h
  unfold Realm.applyEvent Realm.applyCanonicalAuthorityProjection
  simp only [hstores, hstate]
  cases hcanonical : Realm.isCanonicalRealmEvent event with
  | error e => rw [hcanonical] at h; cases h
  | ok canonical =>
    rw [hcanonical] at h
    cases canonical with
    | false => cases h; rfl
    | true =>
      dsimp only at h ⊢
      cases hnext : Realm.applyAuthorityEvent ledger.current_authority_state event with
      | error e => rw [hnext] at h; cases h
      | ok next => rw [hnext] at h; cases h; rfl

theorem accept_of_passes {clock : Realm.Clock} {proposal : Json} {n : Realm.NormalizedProposal}
    (hval : Realm.validateRealmEventProposal p.toHost clock ledger.realm proposal =
      .ok (.accepted event n)) (hpass : verdict p ledger event = .ok ()) :
    Realm.acceptAndApplyRealmEvent p.toHost clock ledger.realm proposal =
      (.ok (.accepted event n),
        { (after (handleEvent p event) (ledger.born event)).realm with
          event_log := ledger.event_log ++ [event] }) := by
  have htype := ledgerEventType_accepted hval
  unfold verdict at hpass
  rw [htype] at hpass
  obtain ⟨⟨state, sequence⟩, hnext, -⟩ := bind_eq_ok.mp hpass
  rw [realm_handle_untyped htype, hnext]
  unfold Realm.acceptAndApplyRealmEvent
  simp only [hval, realm_applyEvent hnext]

theorem reachable_applyEvent (h : Realm.Reachable p.toHost ledger.realm)
    (hbelongs : Belongs p config ledger event) :
    Realm.Reachable p.toHost (after (applyEvent p config event) ledger).realm := by
  cases hlog : logLine event with
  | error e =>
    unfold applyEvent
    simpa [after_bind, hlog] using h
  | ok _ =>
    rw [after_applyEvent p ledger event config hlog]
    cases hverdict : verdict p ledger event with
    | error e =>
      dsimp only
      rwa [realm_handle_kept (projectionThere_of_error hverdict)]
    | ok _ =>
      have hadd := hbelongs ⟨hlog, hverdict⟩
      dsimp only
      cases hrole : config.role with
      | standby =>
        rw [hrole] at hadd
        rwa [after_of_error (commitEvent_standby p _ event hrole), realm_handle_kept hadd]
      | primary =>
        rw [hrole] at hadd
        rw [realm_commit hrole, event_log_handle_born]
        rcases hadd with hforeign | ⟨clock, proposal, n, hval⟩
        · rw [realm_handle_kept fun _ => projectionThere_of_foreign hforeign]
          exact h.step (.foreign hforeign)
        · exact h.step (.accept (accept_of_passes hval hverdict))

theorem hasNoContract (u : LedgerEventType) :
    Realm.hasRealmEventContract (some (.str u.name)) = .ok false := by
  cases u <;> rfl

/-- The events of the routes are no realm events, whatever their payload is. -/
theorem foreign_routeEvent (id : String) (type : LedgerEventType) (payload : Option Json)
    (timestamp : String) : Realm.Foreign (routeEvent id type payload timestamp) := by
  have hget (k : String) (hk : k ∉ ["id", "type", "payload", "timestamp"]) :
      (routeEvent id type payload timestamp).prop k = none := by
    simp only [List.mem_cons, List.not_mem_nil, or_false, not_or] at hk
    simp [routeEvent, hk]
  have htype : (routeEvent id type payload timestamp).prop "type" = some (.str type.name) := by
    simp [routeEvent]
  have htruthy : truthy (some (.str type.name)) = true := by cases type <;> rfl
  constructor
  · unfold Realm.isCanonicalRealmEvent Realm.Projection.eventEnvelope
      Realm.Projection.eventEnvelope.topLevel
    simp [hget, htype, htruthy, hasNoContract, strictEq]
  · unfold Realm.isHashChainedRealmEvent Realm.chainedType
    simp [hget, htype, Js.or, htruthy, hasNoContract, strictEq]

end

/-! ## Every run -/

/-- What a delivery may bring, so that the history stays sound. -/
def Guarded (p : Platform) (config : RealmConfig) (ledger : Ledger) : Delivery → Prop
  | .accept clock proposal => config.role = .standby → ∀ event n,
      Realm.validateRealmEventProposal p.toHost clock ledger.realm proposal =
        .ok (.accepted event n) →
      Belongs p config ledger event
  | .route .. => True
  | .broadcast body => ∀ event, broadcastEvent body ledger = .ok (some event) →
      Belongs p config ledger event

/-- The ledgers of runs that start with a sound realm history, all of whose deliveries are guarded. -/
inductive Delivered (p : Platform) (config : RealmConfig) : Ledger → Prop where
  | start {ledger : Ledger} : Realm.Reachable p.toHost ledger.realm → Delivered p config ledger
  | deliver {ledger : Ledger} {d : Delivery} : Delivered p config ledger →
      Guarded p config ledger d → Delivered p config (after (deliver p config d) ledger)

theorem reachable_deliver {p : Platform} {config : RealmConfig} {ledger : Ledger} {d : Delivery}
    (h : Realm.Reachable p.toHost ledger.realm) (hd : Guarded p config ledger d) :
    Realm.Reachable p.toHost (after (deliver p config d) ledger).realm := by
  rw [after_deliver]
  cases hevent : appliedEvent p ledger d with
  | none => exact h
  | some event =>
    refine reachable_applyEvent h ?_
    cases d with
    | accept clock proposal =>
      simp only [appliedEvent] at hevent
      split at hevent
      · next accepted n hval =>
        cases hevent
        cases hrole : config.role with
        | primary =>
          intro _
          rw [hrole]
          exact .inr ⟨clock, proposal, n, hval⟩
        | standby => exact hd hrole _ n hval
      · cases hevent
    | route id type payload timestamp =>
      cases hevent
      intro _
      have hforeign := foreign_routeEvent id type payload timestamp
      cases config.role with
      | primary => exact .inl hforeign
      | standby => exact fun _ => projectionThere_of_foreign hforeign
    | broadcast body =>
      refine hd event ?_
      simp only [appliedEvent] at hevent
      cases hbody : broadcastEvent body ledger with
      | error e => rw [hbody] at hevent; cases hevent
      | ok applied => rw [hbody] at hevent; exact congrArg Except.ok hevent

def primaryConfig : RealmConfig := ⟨.primary, .file⟩

def broadcastOf (event : Json) : Json := .obj [("type", .str "EVENT"), ("data", event)]

/-- A proposal another node made. -/
def gossipedProposal : Json :=
  routeEvent "evt_1" .controllerBindingProposed (some (.obj [("proposal_id", .str "cbp_1")]))
    "2026-01-01T00:00:00.000Z"

/-- A root authority nobody signed. -/
def forgedRoot : Json :=
  .obj [("id", .str "evt_1"), ("type", .str "ROOT_AUTHORITY_CREATED"), ("realm_event", .bool true),
    ("authority_reference", .str "root:mallory"), ("sequence", .num (.int 1)),
    ("payload", .obj [("root_id", .str "root:mallory")])]

end SimpleL1.Node
