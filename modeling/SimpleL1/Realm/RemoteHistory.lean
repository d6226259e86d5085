import SimpleL1.Realm.Commitment
import SimpleL1.Realm.Succession

/-!
# Remote histories

`verifyRemoteRealmHistory` takes a foreign log whose chain verifies and whose
replay ends with an active root. It runs none of the checks acceptance runs.
`Authorised` says what these checks would find of each realm event, in the
projection before it; the realm events of an authorised log are accepted one
after the other as proposals, and end in the projection replay found.
-/

namespace SimpleL1.Realm

open SimpleL1.Js SimpleL1.Lib

/-! ## Verifying a remote log -/

structure RemoteRealm where
  realmId : Option Json
  eventLog : List Json
  claimedRootAuthority : Option Json

structure RemoteEvidence where
  realmId : String
  eventLog : List Json
  currentAuthorityState : AuthorityState
  rootAuthority : RootAuthority
  eventHead : Json

inductive RemoteVerification where
  | refused (reason_codes : List String)
  | mismatch (claimedRootAuthority : Json) (derivedRootAuthority : Json)
  | verified (evidence : RemoteEvidence)

def RemoteVerification.reason_codes : RemoteVerification → List String
  | refused codes => codes
  | mismatch .. => ["REMOTE_ROOT_AUTHORITY_MISMATCH"]
  | verified _ => []

/-- `authorityRef || id || null`. -/
def rootAuthorityRef (root : RootAuthority) : Json :=
  orNull (or (some (.str root.authorityRef)) (some (.str root.id)))

def rootMatches (root : RootAuthority) (expectedRoot : Option Json) : Bool :=
  truthy expectedRoot
    && (strictEq (some (.str root.id)) expectedRoot
      || strictEq (some (.str root.authorityRef)) expectedRoot)

/-- The body of the `try`. -/
def tryVerifyRemoteRealmHistory (host : Host) (input : RemoteRealm) : JsM RemoteVerification := do
  let _ ← verifyRealmEventHistory host input.eventLog
  let currentAuthorityState ← buildCurrentAuthorityState host input.eventLog
  match currentAuthorityState.rootAuthority with
  | none => return .refused ["REMOTE_ROOT_AUTHORITY_NOT_ACTIVE"]
  | some root =>
    if root.status ≠ .active then return .refused ["REMOTE_ROOT_AUTHORITY_NOT_ACTIVE"]
    else if truthy input.claimedRootAuthority && !rootMatches root input.claimedRootAuthority then
      return .mismatch (input.claimedRootAuthority.getD .null) (rootAuthorityRef root)
    else
      let realmId ← strOrEmpty input.realmId
      let eventHead ← latestRealmEventHash input.eventLog
      return .verified {
        realmId := realmId
        eventLog := input.eventLog
        currentAuthorityState := currentAuthorityState
        rootAuthority := root
        eventHead := eventHead }

def verifyRemoteRealmHistory (host : Host) (input : RemoteRealm) : RemoteVerification :=
  match tryVerifyRemoteRealmHistory host input with
  | .ok verification => verification
  | .error e =>
    .refused [if e.message = "" then "REMOTE_REALM_HISTORY_INVALID" else e.message]

/-- A verified log builds the projection of its evidence, which has an active root. -/
theorem verifyRemoteRealmHistory_eq_verified {host : Host} {input : RemoteRealm}
    {evidence : RemoteEvidence} (h : verifyRemoteRealmHistory host input = .verified evidence) :
    buildCurrentAuthorityState host input.eventLog = .ok evidence.currentAuthorityState
    ∧ evidence.currentAuthorityState.rootAuthority = some evidence.rootAuthority
    ∧ evidence.rootAuthority.status = .active := by
  unfold verifyRemoteRealmHistory at h
  split at h
  · next v hv =>
    subst h
    unfold tryVerifyRemoteRealmHistory at hv
    obtain ⟨_, -, hv⟩ := bind_eq_ok.mp hv
    obtain ⟨s, hs, hv⟩ := bind_eq_ok.mp hv
    split at hv
    · cases hv
    next root hroot =>
    split at hv
    · cases hv
    next hactive =>
    split at hv
    · cases hv
    obtain ⟨_, -, hv⟩ := bind_eq_ok.mp hv
    obtain ⟨_, -, hv⟩ := bind_eq_ok.mp hv
    cases hv
    exact ⟨hs, hroot, not_not.mp hactive⟩
  · cases h

/-- A log that builds a projection with an active root verifies when nothing is claimed of it. -/
theorem verifyRemoteRealmHistory_of_build {host : Host} {log : List Json} {s : AuthorityState}
    {root : RootAuthority} (hbuild : buildCurrentAuthorityState host log = .ok s)
    (hroot : s.rootAuthority = some root) (hactive : root.status = .active) :
    ∃ evidence, verifyRemoteRealmHistory host ⟨none, log, none⟩ = .verified evidence
      ∧ evidence.currentAuthorityState = s := by
  obtain ⟨⟨fs, hchain⟩, -⟩ := build_eq_ok.mp hbuild
  have hverify := verifyRealmEventHistory_eq_ok.mpr ⟨fs, hchain⟩
  simp only [verifyRemoteRealmHistory, tryVerifyRemoteRealmHistory, hverify, hbuild, ok_bind, hroot,
    hactive, hchain.latest, truthy_none, strOrEmpty_none, Bool.false_and, ne_eq, not_true]
  exact ⟨_, rfl, rfl⟩

/-! ## Replaying proposals -/

/-- `eventLog.filter(isCanonicalRealmEvent)`, on events the filter can read. -/
def canonicalEventsFromLog (eventLog : List Json) : List Json :=
  eventLog.filter fun event =>
    match isCanonicalRealmEvent event with
    | .ok canonical => canonical
    | .error _ => false

/-- The ledger after the calls, if each of them accepts. -/
def acceptAll (host : Host) : Ledger → List (Clock × Json) → Option Ledger
  | ledger, [] => some ledger
  | ledger, call :: calls =>
    match acceptAndApplyRealmEvent host call.1 ledger call.2 with
    | (.ok (.accepted _ _), ledger) => acceptAll host ledger calls
    | _ => none

/-- The event, read as a proposal on a ledger of `k` events with the head `d` and the projection
`s`, meets every check of the validator, and what the proposal says is what the event hashes. -/
structure AuthorisedAs (clock : Clock) (d : Option String) (k : Nat) (s : AuthorityState)
    (event envelope : Json) (t : EventType) (n : NormalizedProposal) (f : HashedFields) :
    Prop where
  committed : Committed event envelope t f
  normal : normalizeRealmEventProposal clock.now event = .ok n
  hashed : n.hashed.Alike f
  signer : n.envelope.signer ≠ ""
  authority_reference : n.envelope.authority_reference ≠ ""
  sequence : n.envelope.sequence = .int (k + 1)
  timestamp : isNonEmptyString (some n.envelope.timestamp) = true
  previous : n.envelope.previous_event_hash = .null ∨ n.envelope.previous_event_hash = digest d
  payload : validatePayload t.name n.payload = []
  policy : canSignerSatisfyAuthorityPolicy s n.envelope.signer
    (realmEventRegistry t).requiredAuthority = true
  rule : (realmEventRegistry t).validateTransition s n.envelope n.payload = .ok []

/-- Every event of the log is no realm event at all, or authorised where it stands; `calls` are the
realm events, each with a reading of the clock. -/
inductive Authorised (host : Host) : Option String → Nat → AuthorityState → List Json →
    List (Clock × Json) → Prop where
  | nil {d : Option String} {k : Nat} {s : AuthorityState} : Authorised host d k s [] []
  | foreign {d : Option String} {k : Nat} {s : AuthorityState} {event : Json} {log : List Json}
      {calls : List (Clock × Json)} : Foreign event → Authorised host d k s log calls →
      Authorised host d k s (event :: log) calls
  | realm {clock : Clock} {d : Option String} {k : Nat} {s s' : AuthorityState}
      {event envelope : Json} {t : EventType} {n : NormalizedProposal} {f : HashedFields}
      {log : List Json} {calls : List (Clock × Json)} :
      AuthorisedAs clock d k s event envelope t n f → replayEvent s event = .ok s' →
      Authorised host (link host d f) (k + 1) s' log calls →
      Authorised host d k s (event :: log) ((clock, event) :: calls)

theorem Authorised.calls_eq {host : Host} {d : Option String} {k : Nat} {s : AuthorityState}
    {log : List Json} {calls : List (Clock × Json)} (h : Authorised host d k s log calls) :
    calls.map Prod.snd = canonicalEventsFromLog log := by
  induction h with
  | nil => rfl
  | foreign hf _ ih =>
    rw [canonicalEventsFromLog, List.filter_cons_of_neg (by simp [hf.1])]
    exact ih
  | realm hauth _ _ ih =>
    rw [canonicalEventsFromLog, List.filter_cons_of_pos (by simp [hauth.committed.canonical])]
    exact congrArg _ ih

/-! ## Authorised histories are accepted -/

namespace AuthorisedAs

variable {host : Host} {clock : Clock} {d : Option String} {s s' live : AuthorityState}
  {fs : List HashedFields} {event envelope : Json} {t : EventType} {n : NormalizedProposal}
  {f : HashedFields}

theorem type_eq {k : Nat} (h : AuthorisedAs clock d k s event envelope t n f) :
    n.envelope.type = t.name :=
  h.hashed.type_eq rfl h.committed.type.2

/-- The proposal has the event's own payload. -/
theorem payload_eq {k : Nat} (h : AuthorisedAs clock d k s event envelope t n f) :
    .obj n.payload = f.payload := by
  have hpayload := payload_of_hashed h.committed.hashed
  have hspread : n.payload = f.payload.spread := by
    have hn := h.normal
    unfold normalizeRealmEventProposal at hn
    split at hn
    · cases hn
    · simp only [bind_eq_ok, pure_eq_ok, Except.ok.injEq] at hn
      obtain ⟨_, -, _, -, _, -, _, -, rfl⟩ := hn
      rw [hpayload]
  have halike := h.hashed.payload
  rw [NormalizedProposal.hashed, Json.written_of_finite h.committed.payload] at halike
  cases hf : f.payload with
  | obj fields => rw [hspread, hf, Json.spread_obj]
  | _ => rw [hf] at halike; cases halike

/-- The validator's checks pass on a live ledger with the same projection. -/
theorem checked (h : AuthorisedAs clock d fs.length s event envelope t n f)
    (hs : live.untimed = s.untimed) :
    Checked host clock live fs t n (acceptedEvent host clock n (digest (headOf host fs))) where
  trimmed := normalize_trimmed h.normal
  type := h.type_eq
  signer := h.signer
  authority_reference := h.authority_reference
  sequence := h.sequence
  timestamp := h.timestamp
  payload := h.payload
  policy := by rw [← policy_untimed, hs, policy_untimed]; exact h.policy
  rule := by rw [← rule_untimed, hs, rule_untimed]; exact h.rule
  event_eq := rfl

/-- What acceptance builds is committed too. -/
theorem committed_accepted {k : Nat} {stored : Json}
    (h : AuthorisedAs clock d k s event envelope t n f) (hshows : Shows stored n) :
    Committed stored n.envelope.toJson t n.hashed where
  read := hshows.projectionEnvelope
  hashed := hshows.hashed
  type := by
    have htype : n.envelope.toJson.prop "type" = some (.str n.envelope.type) := rfl
    rw [htype, strOrEmpty_str, NormalizedProposal.hashed, h.type_eq]
    exact ⟨rfl, rfl⟩
  sequence := ⟨rfl, by rw [NormalizedProposal.hashed, h.sequence]; rfl⟩
  payload := by
    rw [NormalizedProposal.hashed, h.payload_eq]
    exact h.committed.payload
  signer _ := ⟨rfl, rfl⟩
  authority_reference _ := ⟨rfl, rfl⟩

/-- A live ledger with the same head and projection accepts the event as a proposal, and keeps both. -/
theorem accepted {ledger : Ledger} (h : AuthorisedAs clock d fs.length s event envelope t n f)
    (hlive : Live host ledger live fs) (hhead : headOf host fs = d) (hs : live.untimed = s.untimed)
    (hatt : Attached host d event f) (hr : replayEvent s event = .ok s') :
    ∃ stored ledger' live' fs', acceptAndApplyRealmEvent host clock ledger event =
        (.ok (.accepted stored n), ledger')
      ∧ Live host ledger' live' fs' ∧ fs'.length = fs.length + 1
      ∧ headOf host fs' = link host d f ∧ live'.untimed = s'.untimed := by
  have hcheck : Checked host clock live fs t n _ := h.checked hs
  have hcom := h.committed_accepted hcheck.shows
  have hruns : Runs (acceptedEvent host clock n (digest (headOf host fs))) n.envelope.toJson t
      n.hashed.sequence :=
    ⟨hcheck.shows.canonical, hcom.read, hcom.contract, hcheck.shows.eventVersion_eq _, rfl⟩
  have hatt' : Attached host d (acceptedEvent host clock n (digest (headOf host fs))) n.hashed :=
    hhead ▸ hcheck.attached
  obtain ⟨next, hnext, huntimed⟩ := h.committed.replay_alike hcom (h.committed.runs hr) hruns hatt
    hatt' h.hashed.symm hs.symm hr
  have hacc : Accepts host clock live fs t n _ next := { hcheck with applied := hnext }
  obtain ⟨ledger', hcall⟩ := hlive.accepts h.normal hacc (hhead.symm ▸ h.previous)
  obtain ⟨_, next', hacc', hlive', -⟩ := hlive.accept hcall
  have hsame : next' = next := Except.ok.inj (hacc'.applied.symm.trans hnext)
  rw [hsame] at hlive'
  refine ⟨_, ledger', next, _, hcall, hlive', List.length_append, ?_, huntimed.symm⟩
  rw [headOf, HashChain.head_snoc, ← link_congr host d h.hashed]
  exact congrArg (link host · n.hashed) hhead

end AuthorisedAs

/-- From a live ledger with the same head and projection, the realm events of an authorised log are
all accepted. -/
theorem Authorised.accepted {host : Host} {d : Option String} {k : Nat} {s s' live : AuthorityState}
    {fs gs : List HashedFields} {log : List Json} {calls : List (Clock × Json)} {ledger : Ledger}
    (h : Authorised host d k s log calls) (hchain : Chain host d log gs)
    (hr : replayFrom s log = .ok s') (hlive : Live host ledger live fs) (hk : fs.length = k)
    (hhead : headOf host fs = d) (hs : live.untimed = s.untimed) :
    ∃ ledger' live' fs', acceptAll host ledger calls = some ledger' ∧ Live host ledger' live' fs'
      ∧ live'.untimed = s'.untimed := by
  induction h generalizing gs live fs ledger with
  | nil =>
    cases hr
    exact ⟨ledger, live, fs, rfl, hlive, hs⟩
  | foreign hf _ ih =>
    obtain ⟨m, hm, hr⟩ := bind_eq_ok.mp hr
    cases (hf.replay _).symm.trans hm
    cases hchain with
    | skip _ hchain => exact ih hchain hr hlive hk hhead hs
    | link hchained _ _ => rw [hf.2] at hchained; cases hchained
  | @realm clock d k s s₁ event envelope t n f log calls hauth hstep _ ih =>
    obtain ⟨m, hm, hr⟩ := bind_eq_ok.mp hr
    cases hm.symm.trans hstep
    cases hchain with
    | skip hskip _ =>
      rw [hauth.committed.chained] at hskip
      cases hskip
    | link _ hatt hchain =>
      cases hatt.hashed.symm.trans hauth.committed.hashed
      subst hk
      obtain ⟨stored, ledger₁, live₁, fs₁, hcall, hlive₁, hlen, hhead₁, hs₁⟩ :=
        hauth.accepted hlive hhead hs hatt hstep
      obtain ⟨ledger', live', fs', hall, hlive', hs'⟩ :=
        ih hchain hr hlive₁ hlen hhead₁ hs₁
      refine ⟨ledger', live', fs', ?_, hlive', hs'⟩
      rw [acceptAll]
      simp only [hcall]
      exact hall

/-- The realm events of a verified and authorised history are accepted one by one from the empty
ledger, and end in the projection of the evidence, up to timestamps. -/
theorem remote_history_accepted {host : Host} {input : RemoteRealm} {evidence : RemoteEvidence}
    {calls : List (Clock × Json)}
    (h : verifyRemoteRealmHistory host input = .verified evidence)
    (hauth : Authorised host none 0 emptyAuthorityState input.eventLog calls) :
    calls.map Prod.snd = canonicalEventsFromLog input.eventLog
    ∧ ∃ ledger s, acceptAll host Ledger.empty calls = some ledger
      ∧ ledger.current_authority_state = some s
      ∧ s.untimed = evidence.currentAuthorityState.untimed := by
  obtain ⟨hbuild, -, -⟩ := verifyRemoteRealmHistory_eq_verified h
  obtain ⟨⟨gs, hchain⟩, hr⟩ := build_eq_ok.mp hbuild
  obtain ⟨ledger, s, fs, hall, hlive, hs⟩ :=
    hauth.accepted hchain hr (live_empty host) rfl rfl rfl
  exact ⟨hauth.calls_eq, ledger, s, hall, hlive.state, hs⟩

def creationProposal : NormalizedProposal where
  envelope := {
    type := "ROOT_AUTHORITY_CREATED"
    signer := "root:alice"
    authority_reference := "root:alice"
    sequence := .int 1
    timestamp := .str "09:00"
    previous_event_hash := .null }
  payload := [("root_id", .str "alice")]

theorem creation_authorised (host : Host) :
    Authorised host none 0 emptyAuthorityState [creationEvent host "root:alice" "09:00"]
      [(scriptClock, creationEvent host "root:alice" "09:00")] := by
  obtain ⟨s, -, hs, -⟩ := creation_build host "root:alice" (by decide) "09:00"
  have hr := (build_eq_ok.mp hs).2
  rw [replayFrom_singleton] at hr
  obtain ⟨envelope, t, f, hcom⟩ := creation_committed host "09:00"
  cases hcom.hashed.symm.trans (creation_attached host "root:alice" "09:00").hashed
  have htype : t = .rootAuthorityCreated := EventType.name_injective (Json.str.inj hcom.type.2).symm
  subst htype
  refine .realm (n := creationProposal) ⟨hcom, rfl, ?_, ?_, ?_, rfl, rfl, .inl rfl, rfl, rfl, rfl⟩
    hr .nil
  · exact ⟨rfl, rfl, rfl, rfl, rfl, rfl⟩
  · decide
  · decide

/-- Alice's creation verifies, is accepted, and creates the same root. -/
theorem remote_history_accepted_creation :
    ∃ host log evidence ledger s, verifyRemoteRealmHistory host ⟨none, log, none⟩ = .verified evidence
      ∧ canonicalEventsFromLog log ≠ []
      ∧ acceptAll host Ledger.empty ((canonicalEventsFromLog log).map (scriptClock, ·)) = some ledger
      ∧ ledger.current_authority_state = some s
      ∧ s.untimed = evidence.currentAuthorityState.untimed := by
  obtain ⟨s, root, hs, hroot, -, hactive⟩ :=
    creation_build plainHost "root:alice" (by decide) "09:00"
  obtain ⟨evidence, hev, -⟩ := verifyRemoteRealmHistory_of_build hs hroot hactive
  obtain ⟨hcalls, ledger, live, hall, hlive, huntimed⟩ :=
    remote_history_accepted hev (creation_authorised plainHost)
  refine ⟨plainHost, _, evidence, ledger, live, hev, ?_, ?_, hlive, huntimed⟩
  · rw [← hcalls]; simp
  · rw [← hcalls]; exact hall

/-! ### An intruder's history -/

def intruderHashed : HashedFields where
  authority_reference := .str "mallory"
  payload := .obj [("device_id", .str "laptop"), ("public_key", .str "key")]
  sequence := .int 1
  signer := .str "mallory"
  type := .str "DEVICE_KEY_ISSUED"
  version := .int 1

def lateRootHashed : HashedFields :=
  { creationHashed with sequence := .int 2 }

/-- An event whose own fields are the ones it hashes. -/
def bareEvent (host : Host) (d : Option String) (t : EventType) (f : HashedFields) : Json :=
  .obj ([("type", .str t.name), ("signer", f.signer), ("authority_reference", f.authority_reference),
    ("sequence", .num f.sequence), ("payload", f.payload)] ++ chainFields host d t f)

/-- Mallory issues a device before there is a root. -/
def intruderLog (host : Host) : List Json :=
  [bareEvent host none .deviceKeyIssued intruderHashed,
    bareEvent host (link host none intruderHashed) .rootAuthorityCreated lateRootHashed]

theorem intruder_chain (host : Host) :
    Chain host none (intruderLog host) [intruderHashed, lateRootHashed] :=
  .link rfl ⟨rfl, rfl, rfl, _, rfl, rfl, rfl⟩
    (.link rfl ⟨rfl, rfl, rfl, _, rfl, rfl, rfl⟩ (.nil _))

/-- An empty ledger does not accept the device. -/
theorem intruder_refused {host : Host} {event : Json} {n : NormalizedProposal} {ledger : Ledger} :
    acceptAndApplyRealmEvent host scriptClock Ledger.empty
      (bareEvent host none .deviceKeyIssued intruderHashed) ≠ (.ok (.accepted event n), ledger) := by
  intro hcall
  obtain ⟨hn, -⟩ := validateRealmEventProposal_accepted.mp (accept_eq_accepted hcall).1
  have htype : n.envelope.type = "DEVICE_KEY_ISSUED" := by
    rw [← show _ = n from Except.ok.inj hn]
    rfl
  obtain ⟨t, _, hacc, -⟩ := (live_empty host).accept hcall
  rw [hacc.type, policy_empty hacc.policy] at htype
  exact absurd htype (by decide)

/-- Mallory's device verifies; as a proposal it is refused. -/
theorem remote_history_accepted_fails :
    ¬ ∃ host : Host, ∀ (input : RemoteRealm) (evidence : RemoteEvidence)
      (calls : List (Clock × Json)), verifyRemoteRealmHistory host input = .verified evidence →
      calls.map Prod.snd = canonicalEventsFromLog input.eventLog →
      ∃ ledger s, acceptAll host Ledger.empty calls = some ledger
        ∧ ledger.current_authority_state = some s
        ∧ s.untimed = evidence.currentAuthorityState.untimed := by
  rintro ⟨host, h⟩
  have hr : ∃ s root, replayFrom emptyAuthorityState (intruderLog host) = .ok s
      ∧ s.rootAuthority = some root ∧ root.status = .active := ⟨_, _, rfl, rfl, rfl⟩
  obtain ⟨s, root, hr, hroot, hactive⟩ := hr
  obtain ⟨evidence, hev, -⟩ := verifyRemoteRealmHistory_of_build
    (build_eq_ok.mpr ⟨⟨_, intruder_chain host⟩, hr⟩) hroot hactive
  obtain ⟨ledger, _, hall, -⟩ :=
    h ⟨none, intruderLog host, none⟩ evidence ((intruderLog host).map (scriptClock, ·)) hev rfl
  rw [intruderLog, List.map_cons, acceptAll] at hall
  split at hall
  · next hcall => exact intruder_refused hcall
  · cases hall

end SimpleL1.Realm
