import SimpleL1.Realm.Pipeline

/-!
# What the chain covers

The verifier reads an event's own type first, replay the envelope's type only.
An event whose own type has no contract while its envelope's type has one is
replayed and never verified: it escapes the chain. These events are all that
escapes: without them, deleting what the verifier skips keeps the replayed state,
and each of them changes the state of some log.
-/

namespace SimpleL1.Realm

open SimpleL1.Js SimpleL1.Lib

/-- The event is one the verifier checks. -/
def covered (event : Json) : Bool :=
  match isHashChainedRealmEvent event with
  | .ok chained => chained
  | .error _ => false

/-- The log without the events the verifier skips. -/
def coveredLog (log : List Json) : List Json := log.filter covered

/-- The event's own type has no contract, its envelope's type has one. -/
def Escapes (event : Json) : Prop :=
  ∃ envelope, event.prop "envelope" = some envelope ∧ envelope.isObject = true
    ∧ truthy (event.prop "type") = true
    ∧ hasRealmEventContract (event.prop "type") = .ok false
    ∧ hasRealmEventContract (envelope.prop "type") = .ok true

/-! ## The two readings of an envelope -/

theorem envelopes_of_object {event envelope : Json} (h : event.prop "envelope" = some envelope)
    (hobj : envelope.isObject = true) :
    History.eventEnvelope event = envelope ∧ Projection.eventEnvelope event = .ok (some envelope) := by
  constructor
  · simp [History.eventEnvelope, h, hobj]
  · simp [Projection.eventEnvelope, h, hobj]

theorem envelopes_of_not_object (event : Json)
    (h : ∀ envelope, event.prop "envelope" = some envelope → envelope.isObject = false) :
    History.eventEnvelope event = event
      ∧ Projection.eventEnvelope event = Projection.eventEnvelope.topLevel event := by
  unfold History.eventEnvelope Projection.eventEnvelope
  cases henv : event.prop "envelope" with
  | none => exact ⟨rfl, rfl⟩
  | some envelope => simp [h envelope henv]

theorem hasRealmEventContract_of_skipped {event : Json}
    (h : isHashChainedRealmEvent event = .ok false) :
    hasRealmEventContract (chainedType event) = .ok false := by
  unfold isHashChainedRealmEvent at h
  split at h
  · exact h
  · obtain ⟨b, hb, h⟩ := bind_eq_ok.mp h
    cases b with
    | false => exact hb
    | true => exact h

/-- Replay under an envelope of a known type runs its handler. -/
theorem Runs.escapes {event envelope : Json} {t : EventType} {n : Number}
    (h : Runs event envelope t n) (hskip : isHashChainedRealmEvent event = .ok false) :
    Escapes event := by
  have hno := hasRealmEventContract_of_skipped hskip
  have hyes : hasRealmEventContract (envelope.prop "type") = .ok true := by
    simp [hasRealmEventContract, h.contract, Except.map]
  by_cases hobj : ∃ envelope, event.prop "envelope" = some envelope ∧ envelope.isObject = true
  · obtain ⟨env, henv, hobj⟩ := hobj
    obtain ⟨hhist, hproj⟩ := envelopes_of_object henv hobj
    cases Option.some.inj (Except.ok.inj (hproj.symm.trans h.read))
    rw [chainedType, hhist] at hno
    by_cases htype : truthy (event.prop "type") = true
    · rw [or_of_truthy htype] at hno
      exact ⟨envelope, henv, hobj, htype, hno, hyes⟩
    · rw [or_of_falsy (Bool.not_eq_true _ ▸ htype), hyes] at hno
      cases hno
  · -- without an envelope object replay needs the event's own type, which the verifier saw
    exfalso
    obtain ⟨-, hproj⟩ := envelopes_of_not_object event fun envelope henv =>
      Bool.eq_false_iff.mpr fun ho => hobj ⟨envelope, henv, ho⟩
    have hread := h.read
    rw [hproj] at hread
    unfold Projection.eventEnvelope.topLevel at hread
    split at hread
    · next htype =>
      rw [chainedType, or_of_truthy htype] at hno
      rw [hno] at hread
      cases hread
    · cases hread

/-- An event that is skipped and does not escape leaves the replayed state alone. -/
theorem replayEvent_of_skipped {s s' : AuthorityState} {event : Json}
    (hskip : isHashChainedRealmEvent event = .ok false) (hesc : ¬ Escapes event)
    (h : replayEvent s event = .ok s') : s' = s := by
  rcases replayEvent_cases h with ⟨-, hs⟩ | ⟨envelope, t, n, hruns⟩
  · exact hs
  · exact absurd (hruns.escapes hskip) hesc

/-! ## Deleting what is skipped -/

theorem Chain.covered {host : Host} {d : Option String} {log : List Json} {fs : List HashedFields}
    (h : Chain host d log fs) : Chain host d (coveredLog log) fs := by
  induction h with
  | nil d => exact .nil d
  | skip hskip _ ih => simpa [coveredLog, Realm.covered, hskip] using ih
  | link hchained hf _ ih =>
    rw [coveredLog, List.filter_cons_of_pos (by simp [Realm.covered, hchained])]
    exact .link hchained hf ih

theorem replayFrom_covered {host : Host} {d : Option String} {log : List Json}
    {fs : List HashedFields} (h : Chain host d log fs) (hesc : ∀ event ∈ log, ¬ Escapes event)
    {s s' : AuthorityState} (hr : replayFrom s log = .ok s') :
    replayFrom s (coveredLog log) = .ok s' := by
  induction h generalizing s with
  | nil d => exact hr
  | @skip d event log fs hskip _ ih =>
    obtain ⟨m, hm, hrest⟩ := bind_eq_ok.mp hr
    have hms := replayEvent_of_skipped hskip (hesc event List.mem_cons_self) hm
    rw [hms] at hrest
    rw [coveredLog, List.filter_cons_of_neg (by simp [covered, hskip])]
    exact ih (fun e he => hesc e (List.mem_cons_of_mem _ he)) hrest
  | @link d event log f fs hchained hf _ ih =>
    obtain ⟨m, hm, hr⟩ := bind_eq_ok.mp hr
    rw [coveredLog, List.filter_cons_of_pos (by simp [covered, hchained])]
    exact bind_eq_ok.mpr ⟨m, hm, ih (fun e he => hesc e (List.mem_cons_of_mem _ he)) hr⟩

theorem build_eq_ok {host : Host} {log : List Json} {s : AuthorityState} :
    buildCurrentAuthorityState host log = .ok s ↔
      (∃ fs, Chain host none log fs) ∧ replayFrom emptyAuthorityState log = .ok s := by
  unfold buildCurrentAuthorityState
  rw [bind_eq_ok, ← verifyRealmEventHistory_eq_ok]
  constructor
  · rintro ⟨b, hb, h⟩
    obtain ⟨_, _, rfl⟩ := map_eq_ok.mp hb
    exact ⟨hb, h⟩
  · rintro ⟨hb, h⟩; exact ⟨true, hb, h⟩

/-- Deleting the skipped events of a log keeps its state when none of them escapes. -/
theorem build_coveredLog {host : Host} {log : List Json} {s : AuthorityState}
    (hesc : ∀ event ∈ log, ¬ Escapes event) (h : buildCurrentAuthorityState host log = .ok s) :
    buildCurrentAuthorityState host (coveredLog log) = .ok s := by
  obtain ⟨⟨fs, hchain⟩, hr⟩ := build_eq_ok.mp h
  exact build_eq_ok.mpr ⟨⟨fs, hchain.covered⟩, replayFrom_covered hchain hesc hr⟩

/-! ## Escaping events matter -/

/-- Replay reads the event without throwing. -/
def Readable (event : Json) : Prop := ∃ s, replayEvent emptyAuthorityState event = .ok s

theorem Escapes.skipped {event : Json} (h : Escapes event) :
    isHashChainedRealmEvent event = .ok false := by
  obtain ⟨envelope, henv, hobj, htype, hno, -⟩ := h
  have hchained : hasRealmEventContract (chainedType event) = .ok false := by
    rw [chainedType, or_of_truthy htype, hno]
  simp only [isHashChainedRealmEvent, hchained]
  split <;> rfl

theorem toStr_or_str {v : Option Json} {s x : String} (h : toStr (or v (some (.str s))) = .ok x)
    (s' : String) : ∃ y, toStr (or v (some (.str s'))) = .ok y := by
  by_cases hv : truthy v = true
  · rw [or_of_truthy hv] at h ⊢; exact ⟨x, h⟩
  · rw [or_of_falsy (Bool.not_eq_true _ ▸ hv)]; exact ⟨s', rfl⟩

/-- Whether a change can be read does not depend on the number of sessions. -/
theorem changeOf_readable {envelope : Json} {payload : Fields} {t : EventType} {k : Nat} {c : Change}
    (h : changeOf envelope payload t k = .ok c) (k' : Nat) :
    ∃ c', changeOf envelope payload t k' = .ok c' := by
  cases t with
  | sessionAuthorityIssued =>
    simp only [changeOf, readIssueSession, bind_eq_ok] at h ⊢
    obtain ⟨id, hid, ref, href, -⟩ := h
    obtain ⟨id', hid'⟩ := toStr_or_str hid ("session_" ++ Nat.repr (k' + 1))
    have href' : ∃ y, toStr (or (payload.get "authority_ref")
        (or (payload.get "session_authority") (some (.str id')))) = .ok y := by
      by_cases ha : truthy (payload.get "authority_ref") = true
      · rw [or_of_truthy ha] at href ⊢; exact ⟨ref, href⟩
      · rw [or_of_falsy (Bool.not_eq_true _ ▸ ha)] at href ⊢
        exact toStr_or_str href id'
    obtain ⟨ref', href'⟩ := href'
    exact ⟨_, id', hid', ref', href', rfl⟩
  | _ => exact ⟨c, h⟩

/-- Only the default id of a session depends on the number of sessions. -/
theorem changeOf_sessions {envelope : Json} {payload : Fields} {t : EventType} {k : Nat} {c : Change}
    (h : changeOf envelope payload t k = .ok c) (hc : ∀ a b d e, c ≠ .issueSession a b d e)
    (k' : Nat) : changeOf envelope payload t k' = .ok c := by
  cases t with
  | sessionAuthorityIssued =>
    simp only [changeOf, readIssueSession, bind_eq_ok, pure_eq_ok, Except.ok.injEq] at h
    obtain ⟨id, -, ref, -, rfl⟩ := h
    exact absurd rfl (hc _ _ _ _)
  | _ => exact h

theorem readable_of_replay {s s' : AuthorityState} {event : Json}
    (h : replayEvent s event = .ok s') : Readable event := by
  rcases replayEvent_cases h with ⟨hig, -⟩ | ⟨envelope, t, n, hruns⟩
  · obtain ⟨b, hb, -⟩ := bind_eq_ok.mp h
    exact ⟨_, hig.replay ⟨b, hb⟩ _⟩
  · rw [hruns.replay] at h
    obtain ⟨c, hc, -⟩ := bind_eq_ok.mp h
    obtain ⟨c', hc'⟩ := changeOf_readable hc 0
    exact ⟨_, (hruns.replay _).trans (bind_eq_ok.mpr ⟨c', hc', rfl⟩)⟩

theorem readable_of_mem {log : List Json} {s s' : AuthorityState} {event : Json}
    (h : replayFrom s log = .ok s') (he : event ∈ log) : Readable event := by
  induction log generalizing s with
  | nil => cases he
  | cons e log ih =>
    obtain ⟨m, hm, hrest⟩ := bind_eq_ok.mp h
    rcases List.mem_cons.mp he with rfl | he
    · exact readable_of_replay hm
    · exact ih hrest he

/-- Replay runs a handler on an escaping event it can read. -/
theorem Escapes.runs {event : Json} (h : Escapes event) {s s' : AuthorityState}
    (hr : replayEvent s event = .ok s') : ∃ envelope t n, Runs event envelope t n := by
  obtain ⟨envelope, henv, hobj, -, -, hyes⟩ := h
  obtain ⟨-, hproj⟩ := envelopes_of_object henv hobj
  rcases replayEvent_cases hr with ⟨hig, -⟩ | hruns
  · exfalso
    cases hig with
    | notCanonical hno =>
      simp only [isCanonicalRealmEvent, hproj, ok_bind, hyes] at hno
      split at hno <;> cases hno
    | noEnvelope hno => rw [hproj] at hno; cases hno
    | noContract henv' hno =>
      cases Option.some.inj (Except.ok.inj (hproj.symm.trans henv'))
      simp [hasRealmEventContract, hno, Except.map] at hyes
  · exact hruns

/-! ### Seeds -/

/-- An event of type `t` that writes an entry named `target`. -/
def seedProposal (t : EventType) (field target : String) : NormalizedProposal where
  envelope := {
    type := t.name
    signer := "root"
    authority_reference := "root"
    sequence := .int 1
    timestamp := .null
    previous_event_hash := .null }
  payload := [(field, .arr [.str target])]

def seedEvent (host : Host) (t : EventType) (field target : String) : Json :=
  acceptedEvent host ⟨"", ""⟩ (seedProposal t field target) .null

theorem toStr_singleton (s : String) : toStr (some (.arr [.str s])) = .ok s := by
  simp [toStr, Json.toStr, Json.elemStrs, Except.map]

theorem strOrEmpty_singleton (s : String) : strOrEmpty (some (.arr [.str s])) = .ok s := by
  rw [strOrEmpty, or_arr, toStr_singleton]

section
variable {host : Host} {t : EventType} {field target : String}

theorem seed_shows : Shows (seedEvent host t field target) (seedProposal t field target) :=
  shows_acceptedEvent ..

theorem seed_covered : isHashChainedRealmEvent (seedEvent host t field target) = .ok true :=
  seed_shows.chained rfl

theorem seed_chain : Chain host none [seedEvent host t field target]
    [(seedProposal t field target).hashed] :=
  .link seed_covered (attached_acceptedEvent host ⟨"", ""⟩ t.name_ne_empty none) (.nil _)

theorem seed_replay (host : Host) {c : Change}
    (hc : changeOf (seedProposal t field target).envelope.toJson
      ((realmEventRegistry t).migrationAdapter (.obj (seedProposal t field target).payload)) t 0 =
        .ok c) :
    ∃ stamp, replayEvent emptyAuthorityState (seedEvent host t field target) =
      .ok (c.apply stamp (emptyAuthorityState.setSequence (.int 1))) :=
  ⟨_, (seed_shows.replay_eq_ok rfl).mpr ⟨c, hc, rfl⟩⟩

end

/-- A verified log without skipped events on which the change `c` shows. -/
structure Stage (host : Host) (c : Change) (log : List Json) (s : AuthorityState) : Prop where
  chain : ∃ fs, Chain host none log fs
  all_covered : ∀ event ∈ log, isHashChainedRealmEvent event = .ok true
  replay : replayFrom emptyAuthorityState log = .ok s
  reads : ∀ {envelope : Json} {payload : Fields} {t : EventType},
    changeOf envelope payload t 0 = .ok c → changeOf envelope payload t s.sessions.length = .ok c
  visible : ∀ stamp n, c.apply stamp (s.setSequence n) ≠ s

/-- The empty log shows every change that adds something. -/
theorem stage_empty (host : Host) {c : Change}
    (h : ∀ stamp n, c.apply stamp (emptyAuthorityState.setSequence n) ≠ emptyAuthorityState) :
    Stage host c [] emptyAuthorityState :=
  ⟨⟨[], .nil none⟩, by simp, rfl, fun hc => hc, h⟩

/-- A seed shows the changes of its entry. -/
theorem stage_seed (host : Host) (t : EventType) (field target : String) (c : Change) {c' : Change}
    (hc : changeOf (seedProposal t field target).envelope.toJson
      ((realmEventRegistry t).migrationAdapter (.obj (seedProposal t field target).payload)) t 0 =
        .ok c)
    (hs : ∀ a b d e, c' ≠ .issueSession a b d e)
    (hv : ∀ stamp₀ stamp n, c'.apply stamp ((c.apply stamp₀ (emptyAuthorityState.setSequence
      (.int 1))).setSequence n) ≠ c.apply stamp₀ (emptyAuthorityState.setSequence (.int 1))) :
    ∃ log s, Stage host c' log s := by
  obtain ⟨stamp₀, hr⟩ := seed_replay host hc
  refine ⟨[seedEvent host t field target], _, ⟨_, seed_chain⟩, ?_, ?_,
    fun hc' => changeOf_sessions hc' hs _, hv stamp₀⟩
  · intro event he
    rw [List.mem_singleton.mp he]
    exact seed_covered
  · rw [replayFrom_singleton, hr]

theorem exists_stage (host : Host) (c : Change) : ∃ log s, Stage host c log s := by
  cases c with
  | establishRoot id ref =>
    refine ⟨_, _, stage_empty host fun stamp n h => ?_⟩
    have := congrArg AuthorityState.rootAuthority h
    cases this
  | issueDevice id ref key =>
    refine ⟨_, _, stage_empty host fun stamp n h => ?_⟩
    have := congrArg AuthorityState.devices h
    cases this
  | issueSession id ref device expires =>
    refine ⟨_, _, stage_empty host fun stamp n h => ?_⟩
    have := congrArg AuthorityState.sessions h
    cases this
  | issueRecovery id ref key by_ =>
    refine ⟨_, _, stage_empty host fun stamp n h => ?_⟩
    have := congrArg AuthorityState.recoveryAuthorities h
    cases this
  | executeRecovery a b d e f g =>
    refine ⟨_, _, stage_empty host fun stamp n h => ?_⟩
    have := congrArg AuthorityState.lastRecovery h
    cases this
  | establishTrust realm a b d e f =>
    refine ⟨_, _, stage_empty host fun stamp n h => ?_⟩
    have := congrArg AuthorityState.federationTrusts h
    cases this
  | revokeDevices target =>
    apply stage_seed host .deviceKeyIssued "device_id" target
      (.issueDevice target ("device:" ++ target) .null)
    · simp [seedProposal, realmEventRegistry, deviceKeyIssuedMigrationAdapter, fillFrom_of_absent, changeOf,
        readIssueDevice, Fields.get_set, refOr, toStr_singleton]
    · intro _ _ _ _ h; cases h
    · intro stamp₀ stamp n h
      have := congrArg (fun s => s.devices.map (·.status)) h
      simp [Change.apply, AuthorityState.setSequence, emptyAuthorityState, Device.named,
        Change.newDevice, Device.revoke] at this
  | expireSessions target =>
    apply stage_seed host .sessionAuthorityIssued "session_id" target
      (.issueSession target target .null .null)
    · simp [seedProposal, realmEventRegistry, identityMigrationAdapter, changeOf, readIssueSession,
        toStr_singleton]
    · intro _ _ _ _ h; cases h
    · intro stamp₀ stamp n h
      have := congrArg (fun s => s.sessions.map (·.status)) h
      simp [Change.apply, AuthorityState.setSequence, emptyAuthorityState, Session.named,
        Change.newSession, Session.expire] at this
  | revokeRecovery target =>
    apply stage_seed host .recoveryAuthorityIssued "recovery_authority_id" target
      (.issueRecovery target ("recovery:" ++ target) .null (.str "root"))
    · simp [seedProposal, realmEventRegistry, identityMigrationAdapter, changeOf, readIssueRecovery,
        refOr, toStr_singleton, Envelope.toJson]
    · intro _ _ _ _ h; cases h
    · intro stamp₀ stamp n h
      have := congrArg (fun s => s.recoveryAuthorities.map (·.status)) h
      simp [Change.apply, AuthorityState.setSequence, emptyAuthorityState, RecoveryAuthority.named,
        Change.newRecovery, RecoveryAuthority.revoke] at this
  | revokeTrust realm =>
    apply stage_seed host .federationTrustEstablished "remote_realm_id" realm
      (.establishTrust realm .null (.arr []) (.str "claims") .null .null)
    · simp [seedProposal, realmEventRegistry, identityMigrationAdapter, changeOf,
        readEstablishTrust, strOrEmpty_singleton, arrayOrEmpty]
    · intro _ _ _ _ h; cases h
    · intro stamp₀ stamp n h
      have := congrArg (fun s => s.federationTrusts.map (·.status)) h
      simp [Change.apply, AuthorityState.setSequence, emptyAuthorityState, Change.newTrust,
        FederationTrust.revoke] at this

/-- An escaping event changes the state of a log it is the only skipped event of. -/
theorem exists_log_of_escapes (host : Host) {event : Json} (hesc : Escapes event)
    (hr : Readable event) :
    ∃ log s, event ∈ log ∧ (∀ e ∈ log, e = event ∨ ¬ Escapes e)
      ∧ buildCurrentAuthorityState host log = .ok s
      ∧ buildCurrentAuthorityState host (coveredLog log) ≠ .ok s := by
  obtain ⟨s₀, hr⟩ := hr
  obtain ⟨envelope, t, n, hruns⟩ := hesc.runs hr
  rw [hruns.replay] at hr
  obtain ⟨c, hc, -⟩ := bind_eq_ok.mp hr
  obtain ⟨log, s, hstage⟩ := exists_stage host c
  have hc' := hstage.reads hc
  obtain ⟨fs, hchain⟩ := hstage.chain
  have hcov : coveredLog (log ++ [event]) = log := by
    have hlog : log.filter covered = log := by
      rw [List.filter_eq_self]
      intro e he
      simp [covered, hstage.all_covered e he]
    simp [coveredLog, hlog, covered, hesc.skipped]
  refine ⟨log ++ [event], c.apply (stampOf envelope event) (s.setSequence n), by simp, ?_, ?_, ?_⟩
  · intro e he
    rcases List.mem_append.mp he with he | he
    · right
      intro h
      have := h.skipped
      rw [hstage.all_covered e he] at this
      cases this
    · exact .inl (List.mem_singleton.mp he)
  · refine build_eq_ok.mpr ⟨⟨_, hchain.append (.skip hesc.skipped (.nil _))⟩, ?_⟩
    rw [replayFrom_append, hstage.replay, ok_bind, replayFrom_singleton, hruns.replay, hc']
    rfl
  · rw [hcov, build_eq_ok.mpr ⟨⟨fs, hchain⟩, hstage.replay⟩]
    intro h
    exact hstage.visible _ _ (Except.ok.inj h).symm

/-- Deleting what the verifier skips keeps the state of every log an event may occur in, the others
not escaping, exactly when it does not both escape the chain and replay. -/
theorem coverage_iff (host : Host) (event : Json) :
    (∀ log s, event ∈ log → (∀ e ∈ log, e = event ∨ ¬ Escapes e) →
      buildCurrentAuthorityState host log = .ok s →
      buildCurrentAuthorityState host (coveredLog log) = .ok s)
    ↔ ¬ (Escapes event ∧ Readable event) := by
  constructor
  · rintro h ⟨hesc, hr⟩
    obtain ⟨log, s, hmem, hothers, hbuild, hne⟩ := exists_log_of_escapes host hesc hr
    exact hne (h log s hmem hothers hbuild)
  · intro h log s hmem hothers hbuild
    apply build_coveredLog ?_ hbuild
    intro e he hesc
    rcases hothers e he with rfl | hno
    · exact h ⟨hesc, readable_of_mem (build_eq_ok.mp hbuild).2 hmem⟩
    · exact hno hesc

/-- A note whose envelope creates a root. -/
def escapingEvent : Json :=
  .obj [("type", .str "NOTE"),
    ("envelope", .obj [("type", .str "ROOT_AUTHORITY_CREATED"), ("signer", .str "r"),
      ("authority_reference", .str "r"), ("sequence", .num (.int 1))]),
    ("payload", .obj [("root_id", .str "r")])]

/-- The verifier skips the note, and the state it creates goes away with it, whatever the hash. -/
theorem coverage_fails :
    ¬ ∃ host : Host, ∀ (log : List Json) (s : AuthorityState),
      buildCurrentAuthorityState host log = .ok s →
      buildCurrentAuthorityState host (coveredLog log) = .ok s := by
  rintro ⟨host, h⟩
  have hbuild : ∃ s, buildCurrentAuthorityState host [escapingEvent] = .ok s
      ∧ s.rootAuthority.isSome = true := ⟨_, rfl, rfl⟩
  obtain ⟨s, hs, hroot⟩ := hbuild
  have hempty := h _ s hs
  have hcovered : buildCurrentAuthorityState host (coveredLog [escapingEvent]) =
      .ok emptyAuthorityState := rfl
  rw [hcovered] at hempty
  cases hempty
  cases hroot

end SimpleL1.Realm
