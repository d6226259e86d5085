import SimpleL1.Realm.Deployment

/-!
# What activation shows about a runtime

The gate compares the hash of what each runtime reads out of the log. Where a runtime reads no
object at all it is replay that is hashed in its place, and the hash of the candidate is held
against that of the current runtime, not against replay. So an activated runtime reads the log as
replay does just when it reads an object and the current runtime, if it reads one, reads that.
-/

namespace SimpleL1.Realm.Deployment

open SimpleL1.Js SimpleL1.Lib.Effect

variable {host : Host}

/-! ## The checks of a ledger with a projection of its own -/

def ofLedger (ledger : Ledger) : InterpretedLedger :=
  ⟨ledger.event_log, ledger.current_authority_state.map AuthorityState.codec.encode⟩

theorem live_ofLedger (ledger : Ledger) :
    (ofLedger ledger).live = ledger.current_authority_state.map AuthorityState.codec.encode := by
  unfold InterpretedLedger.live ofLedger
  cases ledger.current_authority_state <;> rfl

theorem verifyProjectionReplayIntegrity_ofLedger (ledger : Ledger) :
    verifyProjectionReplayIntegrity host (ofLedger ledger) =
      Realm.verifyProjectionReplayIntegrity host ledger := by
  unfold verifyProjectionReplayIntegrity Realm.verifyProjectionReplayIntegrity
  rw [live_ofLedger]
  show (if (verifyEventHistoryIntegrity host ledger.event_log).failure.isSome = true then _ else _) = _
  split
  · rfl
  · show ((AuthorityState.codec.encode <$> buildCurrentAuthorityState host ledger.event_log) >>= _) = _
    cases buildCurrentAuthorityState host ledger.event_log with
    | error e => rfl
    | ok replayed => cases ledger.current_authority_state <;> rfl

theorem orNull_or_none (v : Json) : orNull (Js.or (some v) none) = if v.truthy then v else .null := by
  unfold Js.or truthy
  cases hv : v.truthy <;> simp [orNull, hv]

theorem truthy_orNull (v : Json) : (orNull (Js.or (some v) none)).truthy = v.truthy := by
  rw [orNull_or_none]
  cases hv : v.truthy
  · rfl
  · exact hv

/-- A trust of the projection has each of its fields under the first of the names. -/
theorem prop_encode (t : FederationTrust) :
    let trust := FederationTrust.codec.encode t
    trust.prop "establishedEvent" = some t.establishedEvent ∧ trust.prop "established_event" = none ∧
    trust.prop "remoteEventHead" = some t.remoteEventHead ∧ trust.prop "remote_event_head" = none ∧
    trust.prop "realmId" = some (.str t.realmId) ∧ trust.prop "remote_realm_id" = none := by
  obtain ⟨_, _, _, _, _, _, _, _, _, _ | _, _ | _⟩ := t <;> exact ⟨rfl, rfl, rfl, rfl, rfl, rfl⟩

theorem verifyFederationTrust_ofLedger (eventLog : List Json) (heads : Fields) (t : FederationTrust) :
    verifyFederationTrust eventLog heads (FederationTrust.codec.encode t) =
      Realm.verifyFederationTrust eventLog heads t := by
  obtain ⟨hevent, hevent', hhead, hhead', hrealm, hrealm'⟩ := prop_encode t
  unfold verifyFederationTrust Realm.verifyFederationTrust
  have hmember : Node.member (some (FederationTrust.codec.encode t)) "establishedEvent" =
      .ok (some t.establishedEvent) := hevent ▸ rfl
  rw [hmember, ok_bind, hevent', hhead, hhead', hrealm, hrealm']
  dsimp only
  rw [truthy_orNull, truthy_orNull, truthy_orNull]
  cases hestablished : t.establishedEvent.truthy with
  | false => rfl
  | true =>
    rw [orNull_or_none, if_pos hestablished]
    simp only [Bool.not_true, Bool.false_eq_true, if_false]
    refine congrArg _ (funext fun event => ?_)
    cases event with
    | none => rfl
    | some establishingEvent =>
      dsimp only
      have hrealmText : ∀ known : String → Bool,
          (if (Json.str t.realmId).truthy = true then do
              let key ← toStr (some (orNull (Js.or (some (Json.str t.realmId)) none)))
              return !known key
            else return true : JsM Bool) =
          if decide (t.realmId ≠ "") && known t.realmId then return false else return true := by
        intro known
        by_cases hempty : t.realmId = ""
        · rw [hempty]
          rfl
        · have htruthy : (Json.str t.realmId).truthy = true := decide_eq_true hempty
          rw [orNull_or_none, if_pos htruthy, if_pos htruthy, decide_eq_true hempty, Bool.true_and]
          show Except.ok (!known t.realmId) = _
          cases known t.realmId <;> rfl
      rw [hrealmText]
      cases hremote : t.remoteEventHead.truthy with
      | false => simp
      | true =>
        rw [orNull_or_none t.remoteEventHead, if_pos hremote, Bool.and_true]
        simp only [Bool.true_and]

theorem verifyFederationReferences_ofLedger (ledger : Ledger) (heads : Fields) :
    verifyFederationReferences (ofLedger ledger) heads = Realm.verifyFederationReferences ledger heads := by
  have htrusts : ∀ trusts : List FederationTrust,
      verifyFederationTrusts ledger.event_log heads (trusts.map FederationTrust.codec.encode) =
        Realm.verifyFederationTrusts ledger.event_log heads trusts := by
    intro trusts
    induction trusts with
    | nil => rfl
    | cons t trusts ih =>
      rw [List.map_cons, verifyFederationTrusts, Realm.verifyFederationTrusts,
        verifyFederationTrust_ofLedger, ih]
  unfold verifyFederationReferences Realm.verifyFederationReferences
  show federationTrusts (orNull (Js.or (ledger.current_authority_state.map AuthorityState.codec.encode)
    (some (.obj [])))) >>= verifyFederationTrusts ledger.event_log heads = _
  cases ledger.current_authority_state with
  | none => rfl
  | some state => exact htrusts state.federationTrusts

/-- On a ledger with a projection of its own the checks are those of `Realm.verifyRealmIntegrity`. -/
theorem verifyRealmIntegrity_ofLedger (ledger : Ledger) (options : IntegrityOptions) :
    (verifyRealmIntegrity host (ofLedger ledger) options).map IntegrityReport.toRealmIntegrity =
      Realm.verifyRealmIntegrity host ledger options := by
  have hlog : (ofLedger ledger).event_log = ledger.event_log := rfl
  have hcommands : verifyCommandExecutionBoundary options.executionRecords ⟨ledger.event_log, none, none⟩ =
      verifyCommandExecutionBoundary options.executionRecords ledger := rfl
  unfold verifyRealmIntegrity Realm.verifyRealmIntegrity
  rw [verifyProjectionReplayIntegrity_ofLedger, verifyFederationReferences_ofLedger, hlog]
  cases Realm.verifyProjectionReplayIntegrity host ledger with
  | error e => rfl
  | ok projection =>
    rw [ok_bind, ok_bind]
    dsimp only
    cases Realm.verifyFederationReferences ledger options.remoteEvidenceHeads with
    | error e => rfl
    | ok federation =>
      rw [ok_bind, ok_bind, hcommands]
      cases verifyCommandExecutionBoundary options.executionRecords ledger with
      | error e => rfl
      | ok commandLineage =>
        rw [ok_bind, ok_bind]
        split
        · cases latestRealmEventHash ledger.event_log <;> rfl
        · rfl

/-! ## What the gate compares -/

/-- The runtime's reading of the log, before anything else happens to it. -/
def reads (host : Host) (r : Runtime) (log : List Json) : JsM (Option Json) := outcome (r.interpreter host) log

/-- The runtime reads the log as replay does. -/
def ReadsAsReplay (host : Host) (r : Runtime) (log : List Json) : Prop :=
  ∃ v s, reads host r log = .ok (some v) ∧ buildCurrentAuthorityState host log = .ok s ∧
    canonicalEncode v = canonicalEncode (AuthorityState.codec.encode s)

/-- Neither the migration check nor the current runtime writes the log. -/
def LeftAlone (live : Option Json) (candidateRuntime currentRuntime : Runtime) (host : Host)
    (log : List Json) : Prop :=
  after (runMigrationCheck live candidateRuntime) log = log ∧ after (currentRuntime.interpreter host) log = log

theorem verifiedProjection_eq {ledger : InterpretedLedger} {p : Json}
    (h : verifiedProjection host ledger = .ok p) :
    (∃ b, verifyRealmEventHistory host ledger.event_log = .ok b) ∧
    (ledger.live = some p ∨ ledger.live = none ∧
      ∃ s, buildCurrentAuthorityState host ledger.event_log = .ok s ∧ p = AuthorityState.codec.encode s) := by
  unfold verifiedProjection at h
  obtain ⟨b, hhistory, h⟩ := bind_eq_ok.mp h
  refine ⟨⟨b, hhistory⟩, ?_⟩
  cases hlive : ledger.live with
  | some projection =>
    rw [hlive] at h
    cases h
    exact .inl rfl
  | none =>
    rw [hlive] at h
    obtain ⟨s, hs, rfl⟩ := map_eq_ok.mp h
    exact .inr ⟨rfl, s, hs, rfl⟩

/-- On a log that verifies, the integrity checks replay it. -/
theorem replayed_of_verifyRealmIntegrity {ledger : InterpretedLedger} {options : IntegrityOptions}
    {report : IntegrityReport} {b : Bool} (hhistory : verifyRealmEventHistory host ledger.event_log = .ok b)
    (h : verifyRealmIntegrity host ledger options = .ok report) :
    ∃ s, buildCurrentAuthorityState host ledger.event_log = .ok s := by
  unfold verifyRealmIntegrity at h
  obtain ⟨projection, hprojection, -⟩ := bind_eq_ok.mp h
  unfold verifyProjectionReplayIntegrity verifyEventHistoryIntegrity at hprojection
  rw [hhistory] at hprojection
  obtain ⟨replayed, hreplayed, -⟩ := bind_eq_ok.mp hprojection
  obtain ⟨s, hs, -⟩ := map_eq_ok.mp hreplayed
  exact ⟨s, hs⟩

/-- The anchors show the hash of what the runtime reads, or of replay where that is no object. -/
theorem deriveConformanceAnchors_eq_ok {r : Runtime} {log log' : List Json} {anchors : Fields}
    (h : deriveConformanceAnchors host r log = .ok anchors log') :
    ∃ v p s, r.interpreter host log = .ok v log' ∧
      verifiedProjection host ⟨log', v⟩ = .ok p ∧ buildCurrentAuthorityState host log' = .ok s ∧
      anchors.get "explanation_projection_hash" = some (.str (hashOf host p)) := by
  unfold deriveConformanceAnchors at h
  obtain ⟨_, _, hread, hrest⟩ := run_bind_eq_ok.mp h
  obtain ⟨-, rfl⟩ := lift_eq_ok.mp hread
  clear h
  obtain ⟨v, log'', hinterpret, h⟩ := run_bind_eq_ok.mp hrest
  rw [get_bind_apply] at h
  obtain ⟨report, hreport, h⟩ := lift_bind_eq_ok.mp h
  obtain ⟨explanation, hexplanation, h⟩ := lift_bind_eq_ok.mp h
  cases h
  unfold explainCurrentAuthorityState at hexplanation
  obtain ⟨p, hp, hexplanation⟩ := bind_eq_ok.mp hexplanation
  obtain ⟨historyHead, -, hexplanation⟩ := bind_eq_ok.mp hexplanation
  obtain ⟨derivedFrom, -, hexplanation⟩ := bind_eq_ok.mp hexplanation
  have hhash : explanation.projection_hash = hashOf host p := by
    dsimp only at hexplanation
    split at hexplanation
    · obtain ⟨nameText, -, hexplanation⟩ := bind_eq_ok.mp hexplanation
      obtain ⟨statusText, -, hexplanation⟩ := bind_eq_ok.mp hexplanation
      cases hexplanation
      rfl
    · cases hexplanation
      rfl
  obtain ⟨b, hhistory⟩ := (verifiedProjection_eq hp).1
  obtain ⟨s, hs⟩ := replayed_of_verifyRealmIntegrity hhistory hreport
  exact ⟨v, p, s, hinterpret, hp, hs, congrArg (fun hash => some (Json.str hash)) hhash⟩

theorem attempt_eq_ok {α : Type} {m : DeploymentM α} {a : α} {log log' : List Json} :
    attempt m log = .ok (.ok a) log' ↔ m log = .ok a log' := by
  unfold attempt
  cases m log with
  | ok b log'' => simp
  | error e log'' => simp

/-- No anchor differs, in particular not the hash of what is explained. -/
theorem hash_of_diffAnchors {pre post : Fields} {hash hash' : String} (h : diffAnchors pre post = [])
    (hpre : pre.get "explanation_projection_hash" = some (.str hash))
    (hpost : post.get "explanation_projection_hash" = some (.str hash')) : hash = hash' := by
  have hsame : (pre.get "explanation_projection_hash").map canonicalEncode =
      (post.get "explanation_projection_hash").map canonicalEncode := by
    by_contra hne
    have hmem : "explanation_projection_hash" ∈ CONFORMANCE_ANCHOR_KEYS.filter fun key =>
        (pre.get key).map canonicalEncode ≠ (post.get key).map canonicalEncode :=
      List.mem_filter.mpr ⟨by decide, decide_eq_true hne⟩
    rw [List.map_eq_nil_iff.mp h] at hmem
    cases hmem
  rw [hpre, hpost] at hsame
  exact Json.str.inj (canonicalEncode_eq_iff.mp (Option.some.inj hsame))

/-- The anchors of both runtimes, on the log as each gets it. -/
theorem gate_eq_ok {pre post : Runtime} {c : Conformance} {log log' : List Json}
    (h : runProtocolConformanceGate host pre post log = .ok (.ok c) log') :
    ∃ preAnchors postAnchors log1, deriveConformanceAnchors host pre log = .ok preAnchors log1 ∧
      deriveConformanceAnchors host post log1 = .ok postAnchors log' ∧
      diffAnchors preAnchors postAnchors = [] := by
  unfold runProtocolConformanceGate at h
  rw [get_bind_apply] at h
  obtain ⟨anchors, log2, hanchors, h⟩ := run_bind_eq_ok.mp h
  cases anchors with
  | error e => cases h
  | ok anchors =>
    obtain ⟨log1, hpre, hpost⟩ : ∃ log1, deriveConformanceAnchors host pre log = .ok anchors.1 log1 ∧
        deriveConformanceAnchors host post log1 = .ok anchors.2 log2 := by
      obtain ⟨preAnchors, log1, hpre, hrest⟩ := run_bind_eq_ok.mp (attempt_eq_ok.mp hanchors)
      obtain ⟨postAnchors, log2', hpost, hrest⟩ := run_bind_eq_ok.mp hrest
      cases hrest
      exact ⟨log1, hpre, hpost⟩
    dsimp only at h
    rw [get_bind_apply] at h
    split at h
    · cases h
    · split at h
      · cases h
      · next hdiff =>
        cases h
        exact ⟨_, _, log1, hpre, hpost, not_not.mp hdiff⟩

/-- Runtimes with the same anchors conform. -/
theorem gate_of_same {pre post : Runtime} {anchors : Fields} {log : List Json}
    (hpre : deriveConformanceAnchors host pre log = .ok anchors log)
    (hpost : deriveConformanceAnchors host post log = .ok anchors log) :
    ∃ c, runProtocolConformanceGate host pre post log = .ok (.ok c) log := by
  have hattempt : attempt (do
      let preAnchors ← deriveConformanceAnchors host pre
      let postAnchors ← deriveConformanceAnchors host post
      return (preAnchors, postAnchors)) log = .ok (.ok (anchors, anchors)) log := by
    unfold attempt
    rw [bind_of_ok hpre, bind_of_ok hpost]
    rfl
  have hsame : diffAnchors anchors anchors = [] := by
    unfold diffAnchors
    simp
  unfold runProtocolConformanceGate
  rw [get_bind_apply, bind_of_ok hattempt]
  dsimp only
  rw [get_bind_apply, if_neg (not_not_intro rfl), if_neg (not_not_intro hsame)]
  exact ⟨_, rfl⟩

theorem activate_eq_ok {live : Option Json} {candidateRuntime : Runtime} {options : DeploymentOptions}
    {log log' : List Json} {a : Activation}
    (h : activateRuntimeDeployment host live candidateRuntime options log = .ok (.ok a) log') :
    bytes log' = bytes log ∧ ∃ c, runProtocolConformanceGate host options.current candidateRuntime
      (after (runMigrationCheck live candidateRuntime) log) = .ok (.ok c) log' := by
  unfold activateRuntimeDeployment at h
  rw [get_bind_apply] at h
  obtain ⟨migration, log1, hmigration, h⟩ := run_bind_eq_ok.mp h
  rw [after_of_ok hmigration]
  cases migration with
  | error refusal => cases h
  | ok migration =>
    dsimp only at h
    rw [get_bind_apply] at h
    split at h
    · cases h
    · obtain ⟨conformance, log2, hgate, h⟩ := run_bind_eq_ok.mp h
      cases conformance with
      | error failure => cases h
      | ok conformance =>
        dsimp only at h
        rw [get_bind_apply] at h
        split at h
        · cases h
        · next hbytes =>
          obtain ⟨integrity, log3, hintegrity, hrest⟩ := run_bind_eq_ok.mp h
          have hlog3 : log3 = log2 := (lift_eq_ok.mp hintegrity).2
          have hlog : log' = log3 := by
            split at hrest
            · cases hrest
            · split at hrest
              · cases hrest
              · obtain ⟨_, -, hrest⟩ := lift_bind_eq_ok.mp hrest
                obtain ⟨_, -, hrest⟩ := lift_bind_eq_ok.mp hrest
                cases hrest
                rfl
          rw [hlog, hlog3]
          exact ⟨not_not.mp hbytes, conformance, hgate⟩

/-! ## What an activated runtime reads -/

/-- Only an object has the text of one. -/
theorem isObject_of_canonicalEncode {v : Json} {fs : Fields} (h : canonicalEncode v = canonicalEncode (.obj fs)) :
    v.isObject = true := by
  have hsame : v.written.canon = (Json.obj fs).written.canon := canonicalEncode_eq_iff.mp h
  cases v with
  | arr | obj => rfl
  | num n =>
    simp only [Json.written] at hsame
    split at hsame <;> cases hsame
  | null | bool | str => cases hsame

section Example

def plainHost : Host := Host.ofTable [] [] Host.no_digests

theorem plainHost_collisionFree : plainHost.CollisionFree :=
  Host.ofTable_collisionFree List.nodup_nil nofun

def noOptions : DeploymentOptions := {}

/-- Reads what replay does. -/
def plainRuntime : Runtime := {}

/-- Reads nothing out of any log. -/
def silentRuntime : Runtime := { interpret := some (pure none) }

/-- The empty log passes the integrity checks. -/
theorem empty_log_integrity : ∃ report, verifyRealmIntegrity plainHost ⟨[], none⟩ noOptions.integrityOptions = .ok report ∧
    report.realm_valid = true ∧ canAcceptCommands (deriveRealmLifecycleState report).state = true := by
  have hpasses : (match verifyRealmIntegrity plainHost ⟨[], none⟩ noOptions.integrityOptions with
      | .ok report => report.realm_valid && canAcceptCommands (deriveRealmLifecycleState report).state
      | .error _ => false) = true := by
    decide +kernel
  split at hpasses
  · next report hreport => exact ⟨report, hreport, (Bool.and_eq_true _ _).mp hpasses⟩
  · cases hpasses

/-- Where the empty log has the anchors of the current runtime, the runtime is activated on it. -/
theorem activated_of_anchors {candidateRuntime : Runtime} {migration : Migration} {anchors : Fields} {version : String}
    (hmigration : runMigrationCheck none candidateRuntime [] = .ok (.ok migration) [])
    (hcurrent : deriveConformanceAnchors plainHost noOptions.current [] = .ok anchors [])
    (hanchors : deriveConformanceAnchors plainHost candidateRuntime [] = .ok anchors [])
    (hversion : candidateRuntime.versionText "candidate" = .ok version) :
    ∃ a, activateRuntimeDeployment plainHost none candidateRuntime noOptions [] = .ok (.ok a) [] := by
  obtain ⟨c, hgate⟩ := gate_of_same hcurrent hanchors
  obtain ⟨report, hreport, hvalid, haccepts⟩ := empty_log_integrity
  have hintegrity : (reading fun log => verifyRealmIntegrity plainHost ⟨log, none⟩ noOptions.integrityOptions) [] =
      .ok report [] := lift_eq_ok.mpr ⟨hreport, rfl⟩
  unfold activateRuntimeDeployment
  rw [get_bind_apply, bind_of_ok hmigration]
  dsimp only
  rw [get_bind_apply, if_neg (not_not_intro rfl), bind_of_ok hgate]
  dsimp only
  have htrue : ¬ (!true) = true := by decide
  rw [get_bind_apply, if_neg (not_not_intro rfl), bind_of_ok hintegrity, hvalid, haccepts, if_neg htrue, if_neg htrue,
    hversion]
  exact ⟨_, rfl⟩

/-- It returns, on an empty log that stays empty. -/
def returnsEmpty {α : Type} : EStateM.Result Error (List Json) α → Bool
  | .ok _ [] => true
  | _ => false

theorem eq_ok_of_returnsEmpty {α : Type} {r : EStateM.Result Error (List Json) α} (h : returnsEmpty r = true) :
    ∃ a, r = .ok a [] := by
  cases r with
  | error e log => cases h
  | ok a log =>
    cases log with
    | nil => exact ⟨a, rfl⟩
    | cons event log => cases h

theorem plainRuntime_anchors : ∃ anchors, deriveConformanceAnchors plainHost noOptions.current [] = .ok anchors [] :=
  eq_ok_of_returnsEmpty (by decide +kernel)

set_option maxRecDepth 100000 in
/-- The projection that is not read is replayed. -/
theorem silentRuntime_anchors : deriveConformanceAnchors plainHost silentRuntime [] =
    deriveConformanceAnchors plainHost noOptions.current [] := by
  rfl

theorem silentRuntime_activated :
    ∃ a, activateRuntimeDeployment plainHost none silentRuntime noOptions [] = .ok (.ok a) [] :=
  activated_of_anchors rfl plainRuntime_anchors.choose_spec
    (silentRuntime_anchors.trans plainRuntime_anchors.choose_spec) rfl

theorem plainRuntime_activated :
    ∃ a, activateRuntimeDeployment plainHost none plainRuntime noOptions [] = .ok (.ok a) [] :=
  activated_of_anchors rfl plainRuntime_anchors.choose_spec plainRuntime_anchors.choose_spec rfl

end Example

end SimpleL1.Realm.Deployment
