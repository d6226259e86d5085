import SimpleL1.Realm.Commitment
import SimpleL1.Realm.Freshness
import SimpleL1.Realm.LiveState
import SimpleL1.Realm.Transport

/-!
# Deliveries

A verified batch chains up from the local head, so its `i`-th event names the
head of a chain as long as the local one when its turn comes. A command that
succeeded before names the head of a shorter chain, and with a collision-free
hash no head is the head of two chains of different length: a verified batch is
never answered from the store, and every event that counts as accepted was
appended then and there. So any sequence of deliveries only appends, and keeps
the log a verified chain of distinct events.
-/

namespace SimpleL1.Realm

open SimpleL1.Js SimpleL1.Lib

/-! ## Verified segments -/

/-- The events link up from the digest `d`, and `fs` are their hashed fields. -/
inductive Segment (host : Host) : Option String → List Json → List HashedFields → Prop where
  | nil (d : Option String) : Segment host d [] []
  | cons {d : Option String} {event : Json} {events : List Json} {f : HashedFields}
      {fs : List HashedFields} : Attached host d event f →
      Segment host (link host d f) events fs → Segment host d (event :: events) (f :: fs)

theorem verifyTransportEventSegment_eq_ok {host : Host} {d : Option String} {events : List Json}
    {head : Json} :
    verifyTransportEventSegment host (digest d) events = .ok (.ok head) ↔
      ∃ fs, Segment host d events fs ∧ head = digest (HashChain.head (link host) d fs) := by
  induction events generalizing d with
  | nil =>
    constructor
    · intro h
      cases h
      exact ⟨[], .nil d, rfl⟩
    · rintro ⟨fs, hseg, rfl⟩
      cases hseg
      rfl
  | cons event events ih =>
    constructor
    · intro h
      unfold verifyTransportEventSegment at h
      split at h
      · next heq => cases heq
      · cases h
      next d' event' events' hd hcons =>
      cases hcons
      split at h
      · cases h
      next hprev =>
      obtain ⟨hash, hhash, h⟩ := bind_eq_ok.mp h
      split at h
      · cases h
      next hcur =>
      obtain ⟨id, hid, h⟩ := bind_eq_ok.mp h
      split at h
      · cases h
      next hids =>
      obtain ⟨f, hf, rfl⟩ := calculateRealmEventHash_eq_ok.mp hhash
      simp only [Bool.not_eq_true', Bool.not_eq_false, Bool.or_eq_true, not_or,
        strictEq_digest_iff, strictEq_str_iff] at hprev hcur hids
      obtain ⟨fs, hseg, rfl⟩ := (ih (d := link host d f)).mp h
      exact ⟨f :: fs, .cons ⟨hf, hprev, hcur, id, hid, hids⟩ hseg, rfl⟩
    · rintro ⟨fs, hseg, rfl⟩
      cases hseg with
      | cons hatt hseg =>
        obtain ⟨hf, hprev, hcur, id, hid, hevent, hown⟩ := hatt
        unfold verifyTransportEventSegment
        split
        · next heq => cases heq
        · next heq => cases heq; cases hprev
        next d' event' events' hd hcons =>
        cases hcons
        rw [if_neg (by rw [hprev]; simp [strictEq_digest_iff]),
          calculateRealmEventHash_eq_ok.mpr ⟨_, hf, rfl⟩, ok_bind,
          if_neg (by simp [hcur, digest, link]), hid, ok_bind, if_neg (by simp [hevent, hown])]
        exact (ih (d := link host d _)).mpr ⟨_, hseg, rfl⟩

/-- The batch chains up from the head `d` to the head it names. -/
structure Fits (host : Host) (d : Option String) (batch : Json) (events : List Json)
    (fs : List HashedFields) : Prop where
  allowed : forbiddenStateImport batch = false
  read : batch.prop "events" = some (.arr events)
  previous : batchPreviousHash batch = digest d
  segment : Segment host d events fs
  head : batchHeadHash batch = digest (HashChain.head (link host) d fs)

theorem isObject_of_prop {v w : Json} {k : String} (h : v.prop k = some w) : v.isObject = true := by
  cases v with
  | obj fs => rfl
  | _ => cases h

theorem verifyTransportEnvelope_eq_ok {host : Host} {d : Option String} {batch : Json}
    {eventLog : List Json} {v : TransportVerification}
    (hlatest : latestRealmEventHash eventLog = .ok (digest d)) :
    verifyTransportEnvelope host batch eventLog = .ok (.ok v) ↔
      ∃ events fs, Fits host d batch events fs
        ∧ v = ⟨events.length, digest (HashChain.head (link host) d fs), digest d⟩ := by
  unfold verifyTransportEnvelope
  constructor
  · intro h
    split at h
    · cases h
    split at h
    · cases h
    next hallowed =>
    split at h
    · next events hevents =>
      rw [hlatest, ok_bind] at h
      dsimp only at h
      split at h
      · cases h
      next hprev =>
      rw [Bool.not_eq_true', Bool.not_eq_false, strictEq_digest_iff, Option.some_inj] at hprev
      obtain ⟨segment, hsegment, h⟩ := bind_eq_ok.mp h
      rw [hprev] at hsegment
      cases segment with
      | error e => cases h
      | ok head =>
        obtain ⟨fs, hseg, rfl⟩ := verifyTransportEventSegment_eq_ok.mp hsegment
        dsimp only at h
        split at h
        · cases h
        next hhead =>
        rw [Bool.not_eq_true', Bool.not_eq_false, strictEq_digest_iff, Option.some_inj] at hhead
        cases h
        exact ⟨events, fs, ⟨Bool.not_eq_true _ ▸ hallowed, hevents, hprev, hseg, hhead⟩, by rw [hprev]⟩
    · cases h
  · rintro ⟨events, fs, hfits, rfl⟩
    have hprev : strictEq (some (digest d)) (some (digest d)) = true := strictEq_digest_iff.mpr rfl
    have hhead : strictEq (some (batchHeadHash batch))
        (some (digest (HashChain.head (link host) d fs))) = true :=
      strictEq_digest_iff.mpr (congrArg some hfits.head)
    have hsegment := verifyTransportEventSegment_eq_ok.mpr ⟨fs, hfits.segment, rfl⟩
    simp only [isObject_of_prop hfits.read, hfits.allowed, hfits.read, hlatest, ok_bind, hprev,
      hfits.previous, hsegment, hhead, Bool.not_true, Bool.false_eq_true, if_false, pure_eq_ok]

/-! ## The execution store -/

/-- The records of successful commands name the heads of chains shorter than `fs`. -/
structure Recorded (host : Host) (fs : List HashedFields) (store : CommandExecutionStore) : Prop where
  keys : ∀ {id : String} {record : CommandRecord}, store.get id = some record → trim id = id ∧ id ≠ ""
  spent : ∀ {id : String} {record : CommandRecord}, store.get id = some record →
    record.execution_result.ok = true →
    ∃ command event gs, record.intent_fingerprint = commandIntentFingerprint host command
      ∧ command.payload = .obj [("proposal", event)]
      ∧ event.prop "previous_event_hash" = some (digest (headOf host gs)) ∧ gs.length < fs.length

section
variable {host : Host} {fs : List HashedFields} {store : CommandExecutionStore}

theorem recorded_empty (host : Host) (fs : List HashedFields) : Recorded host fs [] where
  keys h := by cases h
  spent h := by cases h

theorem Recorded.mono (h : Recorded host fs store) {fs' : List HashedFields}
    (hlen : fs.length ≤ fs'.length) : Recorded host fs' store where
  keys := h.keys
  spent hget hok := by
    obtain ⟨command, event, gs, hfp, hpayload, hprev, hlt⟩ := h.spent hget hok
    exact ⟨command, event, gs, hfp, hpayload, hprev, by omega⟩

theorem Recorded.set (h : Recorded host fs store) {id : String} {record : CommandRecord}
    (htrim : trim id = id) (hne : id ≠ "")
    (hspent : record.execution_result.ok = true →
      ∃ command event gs, record.intent_fingerprint = commandIntentFingerprint host command
        ∧ command.payload = .obj [("proposal", event)]
        ∧ event.prop "previous_event_hash" = some (digest (headOf host gs)) ∧ gs.length < fs.length) :
    Recorded host fs (store.set id record) where
  keys hget := by
    rw [CommandExecutionStore.get_set] at hget
    split at hget
    · next heq => rw [heq]; exact ⟨htrim, hne⟩
    · exact h.keys hget
  spent hget hok := by
    rw [CommandExecutionStore.get_set] at hget
    split at hget
    · cases hget; exact hspent hok
    · exact h.spent hget hok

/-- One fingerprint, one proposal up to what text can tell, so one previous hash. -/
theorem previous_of_fingerprint (hcf : host.CollisionFree) {command command' : Command}
    {event event' : Json} {d d' : Option String}
    (hfp : commandIntentFingerprint host command = commandIntentFingerprint host command')
    (hpayload : command.payload = .obj [("proposal", event)])
    (hpayload' : command'.payload = .obj [("proposal", event')])
    (hprev : event.prop "previous_event_hash" = some (digest d))
    (hprev' : event'.prop "previous_event_hash" = some (digest d')) : d = d' := by
  have hintent := canonicalEncode_eq_iff.mp (hcf hfp)
  have hp := prop_of_same hintent "payload"
  simp only [Command.intent, hpayload, hpayload', Json.prop_obj, Fields.get_cons, String.reduceEq,
    if_true, if_false, Option.map_some, Option.some.injEq] at hp
  have hevent := prop_of_same hp "proposal"
  simp only [Json.prop_obj, Fields.get_cons, if_true, Option.map_some, Option.some.injEq] at hevent
  have hprevs := prop_of_same hevent "previous_event_hash"
  rw [hprev, hprev'] at hprevs
  exact digest_of_same (Option.some.inj hprevs)

/-- An event that names the head of a chain as long as the local one has no successful record. -/
theorem Recorded.not_spent (hcf : host.CollisionFree) (h : Recorded host fs store) {id : String}
    {record : CommandRecord} {command : Command} {event : Json} {gs : List HashedFields}
    (hget : store.get id = some record)
    (hfp : record.intent_fingerprint = commandIntentFingerprint host command)
    (hpayload : command.payload = .obj [("proposal", event)])
    (hprev : event.prop "previous_event_hash" = some (digest (headOf host gs)))
    (hlen : gs.length = fs.length) : record.execution_result.ok = false := by
  by_contra hok
  rw [Bool.not_eq_false] at hok
  obtain ⟨command', event', gs', hfp', hpayload', hprev', hlt⟩ := h.spent hget hok
  have hhead := previous_of_fingerprint hcf (hfp.symm.trans hfp') hpayload hpayload' hprev hprev'
  have := (link_binding hcf).length_eq hhead
  omega

end

/-! ## One command -/

/-- A receiver whose ledger is reachable and whose store records only what is in the log. -/
structure Replica (host : Host) (r : Receiver) (s : AuthorityState) (fs : List HashedFields) :
    Prop where
  reachable : Reachable host r.ledger
  live : Live host r.ledger s fs
  recorded : Recorded host fs (r.executionStore.getD [])

theorem submittedRealmProposal_eq {command : Command} {event v : Json} {k : String}
    (hpayload : command.payload = .obj [("proposal", event)]) (h : event.prop k = some v) :
    submittedRealmProposal command = event := by
  have htruthy : truthy (some event) = true := by
    cases event with
    | obj fs => rfl
    | _ => cases h
  have hproposal : command.payload.prop "proposal" = some event := by rw [hpayload]; rfl
  rw [submittedRealmProposal, hproposal, or_of_truthy htruthy]
  rfl

theorem Recorded.restore {host : Host} {fs : List HashedFields} {store : CommandExecutionStore}
    (h : Recorded host fs store) (r : Receiver) :
    Recorded host fs ((r.executionStore.map fun _ => store).getD []) := by
  cases r.executionStore with
  | none => exact recorded_empty host fs
  | some _ => exact h

/-- The event was accepted and appended. -/
structure Accepted (host : Host) (clock : Clock) (r r' : Receiver) (s s' : AuthorityState)
    (fs : List HashedFields) (event stored : Json) (t : EventType) (n : NormalizedProposal) :
    Prop where
  normal : normalizeRealmEventProposal clock.now event = .ok n
  accepts : Accepts host clock s fs t n stored s'
  log : r'.ledger.event_log = r.ledger.event_log ++ [stored]
  replica : Replica host r' s' (fs ++ [n.hashed])

/-- Submitting an event that names the head of a chain as long as the local one: it is accepted and
appended, or the result is not ok and the ledger is as before. -/
theorem Replica.execute {host : Host} (hcf : host.CollisionFree) {clock : Clock} {r r' : Receiver}
    {s : AuthorityState} {fs gs : List HashedFields} {command : Command} {event : Json}
    {result : JsM CommandResult} (h : Replica host r s fs)
    (hpayload : command.payload = .obj [("proposal", event)])
    (hprev : event.prop "previous_event_hash" = some (digest (headOf host gs)))
    (hlen : gs.length = fs.length) (hcall : executeIn host clock r command = (result, r')) :
    (∃ cr stored t n s', result = .ok cr ∧ cr.ok = true
      ∧ Accepted host clock r r' s s' fs event stored t n)
    ∨ ((∀ cr, result = .ok cr → cr.ok = false) ∧ r'.ledger = r.ledger ∧ Replica host r' s fs) := by
  have hsubmitted := submittedRealmProposal_eq hpayload hprev
  obtain ⟨result', ledger', store', hexec, hcases⟩ :=
    executeCommand_executes host clock r.ledger (r.executionStore.getD []) command
  unfold executeIn at hcall
  rw [hexec] at hcall
  cases hcall
  -- a refused call leaves the ledger
  have hrefused : ∀ {v : JsM Validation}, executeRealmCommand host clock r.ledger command =
      (v, ledger') → (∀ stored n, v ≠ .ok (.accepted stored n)) →
      Recorded host fs store' → ledger' = r.ledger
        ∧ Replica host ⟨ledger', r.executionStore.map fun _ => store'⟩ s fs := by
    intro v hrun hno hrec
    have hsame : ledger' = r.ledger := h.live.refuse hrun hno
    subst hsame
    exact ⟨rfl, h.reachable, h.live, hrec.restore r⟩
  -- an accepting call appends the event
  have haccepted : ∀ {stored : Json} {n : NormalizedProposal},
      executeRealmCommand host clock r.ledger command = (.ok (.accepted stored n), ledger') →
      (∀ fs', fs'.length = fs.length + 1 → Recorded host fs' store') →
      ∃ t s', Accepted host clock r ⟨ledger', r.executionStore.map fun _ => store'⟩ s s' fs event
        stored t n := by
    intro stored n hrun hrec
    rw [executeRealmCommand, hsubmitted] at hrun
    obtain ⟨hval, -⟩ := accept_eq_accepted hrun
    obtain ⟨hn, -⟩ := validateRealmEventProposal_accepted.mp hval
    obtain ⟨t, s', hacc, hlive', hlog⟩ := h.live.accept hrun
    exact ⟨t, s', hn, hacc, hlog, h.reachable.step (.accept hrun), hlive',
      (hrec _ (by simp)).restore r⟩
  cases hcases with
  | threw hrun =>
    obtain ⟨hsame, hrep⟩ := hrefused hrun (fun _ _ he => by cases he) h.recorded
    exact .inr ⟨(fun _ he => by cases he), hsame, hrep⟩
  | @unnamed v _ ids hrun =>
    cases v with
    | rejected codes n =>
      obtain ⟨hsame, hrep⟩ := hrefused hrun (fun _ _ he => by cases he) h.recorded
      exact .inr ⟨(fun _ he => by cases he; rfl), hsame, hrep⟩
    | accepted stored n =>
      obtain ⟨t, s', hacc⟩ := haccepted hrun fun fs' hfs' => h.recorded.mono (by omega)
      exact .inl ⟨_, stored, t, n, s', rfl, rfl, hacc⟩
  | @ran v _ ids id htrim hne hrun =>
    cases v with
    | rejected codes n =>
      obtain ⟨hsame, hrep⟩ := hrefused hrun (fun _ _ he => by cases he)
        (h.recorded.set htrim hne fun hok => by cases hok)
      exact .inr ⟨(fun _ he => by cases he; rfl), hsame, hrep⟩
    | accepted stored n =>
      obtain ⟨t, s', hacc⟩ := haccepted hrun fun fs' hfs' =>
        (h.recorded.mono (by omega)).set htrim hne fun _ =>
          ⟨command, event, gs, rfl, hpayload, hprev, by omega⟩
      exact .inl ⟨_, stored, t, n, s', rfl, rfl, hacc⟩
  | mismatch =>
    exact .inr ⟨(fun _ he => by cases he; rfl), rfl, h.reachable, h.live, h.recorded.restore r⟩
  | cached hget hfp =>
    have hno := h.recorded.not_spent hcf hget hfp hpayload hprev hlen
    exact .inr ⟨(fun _ he => by cases he; exact hno), rfl, h.reachable, h.live,
      h.recorded.restore r⟩

/-! ## One batch -/

/-- The events, in order, are accepted from the projection `s` and the fields `fs` on, and stored as
`stored`; the fields end as `fs'`. -/
inductive Appended (host : Host) : AuthorityState → List HashedFields → List Json → List Json →
    List HashedFields → Prop where
  | nil {s : AuthorityState} {fs : List HashedFields} : Appended host s fs [] [] fs
  | cons {clock : Clock} {s s' : AuthorityState} {fs fs' : List HashedFields} {event stored : Json}
      {t : EventType} {n : NormalizedProposal} {events rest : List Json} :
      normalizeRealmEventProposal clock.now event = .ok n → Accepts host clock s fs t n stored s' →
      Appended host s' (fs ++ [n.hashed]) events rest fs' →
      Appended host s fs (event :: events) (stored :: rest) fs'

theorem Appended.length_eq {host : Host} {s : AuthorityState} {fs fs' : List HashedFields}
    {events stored : List Json} (h : Appended host s fs events stored fs') :
    stored.length = events.length := by
  induction h with
  | nil => rfl
  | cons _ _ _ ih => simp [ih]

theorem eventCommand_payload {batch event : Json} {index : Nat} {command : Command}
    (h : eventCommand batch event index = .ok command) :
    command.payload = .obj [("proposal", event)] := by
  obtain ⟨_, -, h⟩ := bind_eq_ok.mp h
  cases h
  rfl

/-- How far the loop got: `taken` events were accepted. -/
def Stopped (events taken : List Json) : JsM (List CommandResult × Bool) → Prop
  | .ok (_, true) => taken = events
  | .ok (results, false) => results.length = taken.length + 1 ∧ taken.length < events.length
  | .error _ => taken.length < events.length

theorem Replica.executeUntilFailure {host : Host} (hcf : host.CollisionFree) {clocks : Nat → Clock}
    {batch : Json} {events : List Json} {hs : List HashedFields} :
    ∀ {index : Nat} {r r' : Receiver} {s : AuthorityState} {fs gs : List HashedFields}
      {commands : List Command} {out : JsM (List CommandResult × Bool)}, Replica host r s fs →
      Segment host (headOf host gs) events hs → gs.length = fs.length →
      eventCommands batch index events = .ok commands →
      Realm.executeUntilFailure host clocks index r commands = (out, r') →
      ∃ taken stored s' fs', taken <+: events ∧ Appended host s fs taken stored fs'
        ∧ r'.ledger.event_log = r.ledger.event_log ++ stored ∧ Replica host r' s' fs'
        ∧ Stopped events taken out := by
  induction events generalizing hs with
  | nil =>
    intro index r r' s fs gs commands out h _ _ hcommands hcall
    cases hcommands
    cases hcall
    exact ⟨[], [], s, fs, List.nil_prefix, .nil, by simp, h, rfl⟩
  | cons event events ih =>
    intro index r r' s fs gs commands out h hseg hlen hcommands hcall
    obtain ⟨command, hcommand, hcommands⟩ := bind_eq_ok.mp hcommands
    obtain ⟨rest, hrest, hcommands⟩ := bind_eq_ok.mp hcommands
    cases hcommands
    cases hseg with
    | @cons _ _ _ f hs hatt hseg =>
    cases hexec : executeIn host (clocks index) r command with
    | mk result r₁ =>
    rw [Realm.executeUntilFailure, hexec] at hcall
    rcases h.execute hcf (eventCommand_payload hcommand) hatt.previous hlen hexec with
      ⟨cr, stored, t, n, s₁, rfl, hok, hacc⟩ | ⟨hno, hledger, hrep⟩
    · -- the event is in the log; the rest goes on from there
      have hseg' : Segment host (headOf host (gs ++ [f])) events hs := by
        rw [headOf, HashChain.head_snoc]
        exact hseg
      cases hloop : Realm.executeUntilFailure host clocks (index + 1) r₁ rest with
      | mk out' r₂ =>
      obtain ⟨taken, storeds, s', fs', hpre, happ, hlog, hrep, hstop⟩ :=
        ih hacc.replica hseg' (by simp [hlen]) hrest hloop
      simp only [hok, hloop, Bool.not_true, Bool.false_eq_true, if_false] at hcall
      have hr : r' = r₂ := by
        rcases out' with e | ⟨results, through⟩ <;> exact (congrArg Prod.snd hcall).symm
      subst hr
      refine ⟨event :: taken, stored :: storeds, s', fs', List.cons_prefix_cons.mpr ⟨rfl, hpre⟩,
        .cons hacc.normal hacc.accepts happ, ?_, hrep, ?_⟩
      · rw [hlog, hacc.log, List.append_assoc]
        rfl
      · rcases out' with e | ⟨results, through⟩
        · cases hcall
          simp only [Stopped, List.length_cons] at hstop ⊢
          omega
        · cases hcall
          cases through with
          | true => exact congrArg _ hstop
          | false =>
            simp only [Stopped, List.length_cons] at hstop ⊢
            omega
    · -- nothing is appended, and the loop ends here
      have hstop : Stopped (event :: events) [] out ∧ r' = r₁ := by
        cases result with
        | error e =>
          cases hcall
          exact ⟨by simp [Stopped], rfl⟩
        | ok cr =>
          simp only [hno cr rfl, Bool.not_false, if_true] at hcall
          cases hcall
          exact ⟨by simp [Stopped], rfl⟩
      obtain ⟨hstop, rfl⟩ := hstop
      exact ⟨[], [], s, fs, List.nil_prefix, .nil, by simp [hledger], hrep, hstop⟩

/-! ## Answers from the store -/

theorem Replica.executeEach {host : Host} (clocks : Nat → Clock) {s : AuthorityState}
    {fs : List HashedFields} {commands : List Command} :
    ∀ (index : Nat) {r : Receiver} {store : CommandExecutionStore}, Replica host r s fs →
      r.executionStore = some store →
      (∀ command ∈ commands, store.has command.command_id = true) →
      ∃ results, Realm.executeEach host clocks index r commands = (.ok results, r) := by
  induction commands with
  | nil => intro index r store _ _ _; exact ⟨[], rfl⟩
  | cons command commands ih =>
    intro index r store h hstore hhas
    obtain ⟨ledger, executionStore⟩ := r
    have hsome : executionStore = some store := hstore
    subst hsome
    obtain ⟨record, hget⟩ := Option.isSome_iff_exists.mp (hhas command List.mem_cons_self)
    obtain ⟨htrim, hne⟩ := h.recorded.keys hget
    obtain ⟨result, hresult⟩ := executeCommand_of_has host (clocks index) ledger hget htrim hne
    have hexec : executeIn host (clocks index) ⟨ledger, some store⟩ command =
        (.ok result, ⟨ledger, some store⟩) := by
      unfold executeIn
      simp only [Option.getD_some, hresult, Option.map_some]
    obtain ⟨results, hresults⟩ :=
      ih (index + 1) h hstore fun c hc => hhas c (List.mem_cons_of_mem _ hc)
    refine ⟨result :: results, ?_⟩
    rw [Realm.executeEach, hexec]
    simp only [hresults]

/-- An answer from the store changes nothing. -/
theorem Replica.cachedBatchReplay {host : Host} {clocks : Nat → Clock} {r r' : Receiver}
    {s : AuthorityState} {fs : List HashedFields} {batch : Json} {answer : JsM (Option BatchResult)}
    (h : Replica host r s fs)
    (hcall : Realm.cachedBatchReplay host clocks r batch = (answer, r')) : r' = r := by
  unfold Realm.cachedBatchReplay at hcall
  split at hcall
  · cases hcall; rfl
  next store hstore =>
  split at hcall
  · cases hcall; rfl
  next commands hcommands =>
  split at hcall
  · cases hcall; rfl
  next hall =>
  rw [Bool.or_eq_true, not_or, Bool.not_eq_true', Bool.not_eq_false, List.all_eq_true] at hall
  obtain ⟨results, hresults⟩ := h.executeEach clocks 0 hstore hall.2
  rw [hresults] at hcall
  dsimp only at hcall
  split at hcall
  · cases hcall; rfl
  · split at hcall
    · cases hcall; rfl
    · cases hcall; rfl

/-! ## Distinct ids -/

/-- The event ids of the chained events of a log. -/
def acceptedIds (log : List Json) : List (Option Json) :=
  (log.filter covered).map (·.prop "event_id")

/-- The ids are distinct and those of the first `k` events. -/
structure Distinct (log : List Json) (k : Nat) : Prop where
  nodup : (acceptedIds log).Nodup
  before : ∀ id ∈ acceptedIds log, ∃ j ≤ k, ∃ rest, id = some (.str (eventId j rest))

theorem Distinct.accept {host : Host} {clock : Clock} {log : List Json} {s s' : AuthorityState}
    {fs : List HashedFields} {t : EventType} {n : NormalizedProposal} {event : Json}
    (h : Distinct log fs.length) (hacc : Accepts host clock s fs t n event s') :
    Distinct (log ++ [event]) (fs ++ [n.hashed]).length := by
  have hid : event.prop "event_id" = some (.str (acceptedId host n (digest (headOf host fs)))) := by
    rw [hacc.event_eq]
    simp [acceptedEvent, acceptedFields]
  obtain ⟨rest, hrest⟩ : ∃ rest, acceptedId host n (digest (headOf host fs)) =
      eventId (fs.length + 1) rest := ⟨_, acceptedId_eq hacc.sequence _⟩
  rw [hrest] at hid
  have hids : acceptedIds (log ++ [event]) =
      acceptedIds log ++ [some (.str (eventId (fs.length + 1) rest))] := by
    have hcovered : covered event = true := by simp [covered, hacc.chained]
    simp [acceptedIds, List.filter_append, hcovered, hid]
  constructor
  · rw [hids, List.nodup_append]
    refine ⟨h.nodup, List.nodup_singleton _, ?_⟩
    intro a ha b hb heq
    obtain ⟨j, hj, rest', rfl⟩ := h.before a ha
    rw [List.mem_singleton.mp hb] at heq
    have := eventId_injective (Json.str.inj (Option.some.inj heq))
    omega
  · intro id hmem
    rw [hids, List.mem_append, List.mem_singleton] at hmem
    rw [List.length_append, List.length_singleton]
    rcases hmem with hmem | rfl
    · obtain ⟨j, hj, rest', rfl⟩ := h.before id hmem
      exact ⟨j, by omega, rest', rfl⟩
    · exact ⟨fs.length + 1, le_refl _, rest, rfl⟩

theorem Distinct.foreign {log : List Json} {k : Nat} {event : Json} (h : Distinct log k)
    (hf : Foreign event) : Distinct (log ++ [event]) k := by
  have hids : acceptedIds (log ++ [event]) = acceptedIds log := by
    have hcovered : covered event = false := by simp [covered, hf.2]
    simp [acceptedIds, List.filter_append, hcovered]
  exact ⟨hids ▸ h.nodup, hids ▸ h.before⟩

theorem Reachable.distinct {host : Host} {ledger : Ledger} (h : Reachable host ledger) :
    (acceptedIds ledger.event_log).Nodup := by
  obtain ⟨s, fs, -, hdistinct⟩ :=
    h.invariant (P := fun log _ fs => Distinct log fs.length)
      ⟨List.nodup_nil, fun id hid => by cases hid⟩ Distinct.accept Distinct.foreign
  exact hdistinct.nodup

/-! ## One delivery -/

/-- Each stored event is the accepted form of the event beside it. -/
def AcceptedForms (host : Host) : List Json → List Json → Prop :=
  List.Forall₂ fun event stored => ∃ clock n prev,
    normalizeRealmEventProposal clock.now event = .ok n
      ∧ stored = acceptedEvent host clock n prev

theorem Appended.forms {host : Host} {s : AuthorityState} {fs fs' : List HashedFields}
    {events stored : List Json} (h : Appended host s fs events stored fs') :
    AcceptedForms host events stored := by
  induction h with
  | nil => exact .nil
  | cons hn hacc _ ih => exact .cons ⟨_, _, _, hn, hacc.event_eq⟩ ih

/-- What a delivery does from the projection `s` and the fields `fs` on: nothing, or a batch that fits
is accepted up to some event. -/
inductive Delivery (host : Host) (s : AuthorityState) (fs : List HashedFields) (batch : Json) :
    List Json → List HashedFields → JsM BatchResult → Prop where
  | unchanged {result : JsM BatchResult} : (∀ v results, result ≠ .ok (.received v results)) →
      (∀ results, result ≠ .ok (.failed results)) → Delivery host s fs batch [] fs result
  | received {events stored : List Json} {hs fs' : List HashedFields} {v : TransportVerification}
      {results : List CommandResult} : Fits host (headOf host fs) batch events hs →
      Appended host s fs events stored fs' →
      Delivery host s fs batch stored fs' (.ok (.received v results))
  | failed {events stored : List Json} {hs fs' : List HashedFields} {k : Nat}
      {results : List CommandResult} : Fits host (headOf host fs) batch events hs →
      results.length = k + 1 → k < events.length → Appended host s fs (events.take k) stored fs' →
      Delivery host s fs batch stored fs' (.ok (.failed results))
  | threw {events stored : List Json} {hs fs' : List HashedFields} {k : Nat} {e : Error} :
      Fits host (headOf host fs) batch events hs → k < events.length →
      Appended host s fs (events.take k) stored fs' → Delivery host s fs batch stored fs' (.error e)

/-- A batch for an empty ledger delivers nothing to one with events. -/
theorem Delivery.eq_nil {host : Host} {s : AuthorityState} {fs fs' : List HashedFields}
    {batch : Json} {stored : List Json} {result : JsM BatchResult}
    (h : Delivery host s fs batch stored fs' result) (hprev : batchPreviousHash batch = .null)
    (hne : fs ≠ []) : stored = [] := by
  have hhead : batchPreviousHash batch ≠ digest (headOf host fs) := by
    obtain ⟨gs, f, rfl⟩ := (List.eq_nil_or_concat' fs).resolve_left hne
    rw [hprev, headOf, HashChain.head_snoc]
    intro heq
    cases heq
  cases h with
  | unchanged _ _ => rfl
  | received hfits _ => exact absurd hfits.previous hhead
  | failed hfits _ _ _ => exact absurd hfits.previous hhead
  | threw hfits _ _ => exact absurd hfits.previous hhead

theorem Fits.batchEvents {host : Host} {d : Option String} {batch : Json} {events : List Json}
    {fs : List HashedFields} (h : Fits host d batch events fs) : batchEvents batch = .ok events := by
  unfold Realm.batchEvents
  rw [h.read]

/-- The answer of the store is a mismatch or a replay. -/
theorem cachedBatchReplay_answer {host : Host} {clocks : Nat → Clock} {r r' : Receiver}
    {batch : Json} {answer : BatchResult}
    (hcall : cachedBatchReplay host clocks r batch = (.ok (some answer), r')) :
    (∃ result, answer = .mismatch result) ∨ ∃ results, answer = .replayed results := by
  unfold cachedBatchReplay at hcall
  split at hcall
  · cases hcall
  split at hcall
  · cases hcall
  split at hcall
  · cases hcall
  split at hcall
  · cases hcall
  split at hcall
  · cases hcall; exact .inl ⟨_, rfl⟩
  · split at hcall
    · cases hcall; exact .inr ⟨_, rfl⟩
    · cases hcall

/-- A delivery keeps a replica one. -/
theorem Replica.receive {host : Host} (hcf : host.CollisionFree) {clocks : Nat → Clock}
    {r r' : Receiver} {s : AuthorityState} {fs : List HashedFields} {batch : Json}
    {result : JsM BatchResult} (h : Replica host r s fs)
    (hcall : receiveEventBatch host clocks r batch = (result, r')) :
    ∃ stored s' fs', r'.ledger.event_log = r.ledger.event_log ++ stored ∧ Replica host r' s' fs'
      ∧ Delivery host s fs batch stored fs' result := by
  have hsame : r' = r → (∀ v results, result ≠ .ok (.received v results)) →
      (∀ results, result ≠ .ok (.failed results)) → ∃ stored s' fs',
      r'.ledger.event_log = r.ledger.event_log ++ stored ∧ Replica host r' s' fs'
        ∧ Delivery host s fs batch stored fs' result := by
    rintro rfl hreceived hfailed
    exact ⟨[], s, fs, by simp, h, .unchanged hreceived hfailed⟩
  unfold receiveEventBatch at hcall
  split at hcall
  · cases hcall; exact hsame rfl (by simp) (by simp)
  split at hcall
  · cases hcall; exact hsame rfl (by simp) (by simp)
  split at hcall
  · cases hcall; exact hsame rfl (by simp) (by simp)
  · -- the batch does not fit
    cases hcached : Realm.cachedBatchReplay host clocks r batch with
    | mk answer r₁ =>
    have hr := h.cachedBatchReplay hcached
    subst hr
    rw [hcached] at hcall
    rcases answer with e | _ | answer
    · cases hcall; exact hsame rfl (by simp) (by simp)
    · cases hcall; exact hsame rfl (by simp) (by simp)
    · cases hcall
      rcases cachedBatchReplay_answer hcached with ⟨_, rfl⟩ | ⟨_, rfl⟩
      · exact hsame rfl (by simp) (by simp)
      · exact hsame rfl (by simp) (by simp)
  next verification hverify =>
  obtain ⟨events, hs, hfits, rfl⟩ := (verifyTransportEnvelope_eq_ok h.live.latest).mp hverify
  split at hcall
  · cases hcall; exact hsame rfl (by simp) (by simp)
  next commands hcommands =>
  have heach : eventCommands batch 0 events = .ok commands := by
    rw [batchCommands, hfits.batchEvents, ok_bind] at hcommands
    exact hcommands
  cases hloop : Realm.executeUntilFailure host clocks 0 r commands with
  | mk out r₁ =>
  obtain ⟨taken, stored, s', fs', hpre, happ, hlog, hrep, hstop⟩ :=
    h.executeUntilFailure hcf hfits.segment rfl heach hloop
  have htake : events.take taken.length = taken := (List.prefix_iff_eq_take.mp hpre).symm
  rw [hloop] at hcall
  rcases out with e | ⟨results, through⟩
  · cases hcall
    exact ⟨stored, s', fs', hlog, hrep, .threw hfits hstop (htake.symm ▸ happ)⟩
  · cases through with
    | true =>
      cases hcall
      have hall : taken = events := hstop
      exact ⟨stored, s', fs', hlog, hrep, .received hfits (hall ▸ happ)⟩
    | false =>
      cases hcall
      exact ⟨stored, s', fs', hlog, hrep, .failed hfits hstop.1 hstop.2 (htake.symm ▸ happ)⟩

/-- What a delivery appends: the whole batch when it is received, the events before the `k`-th when
its `k`-th command fails, some first events when it throws, else nothing. -/
def Delivers (host : Host) (batch : Json) (stored : List Json) : JsM BatchResult → Prop
  | .ok (.received _ _) => ∃ events, batchEvents batch = .ok events
      ∧ AcceptedForms host events stored
  | .ok (.failed results) => ∃ events k, batchEvents batch = .ok events ∧ results.length = k + 1
      ∧ k < events.length ∧ AcceptedForms host (events.take k) stored
  | .ok (.refused _) | .ok (.mismatch _) | .ok (.replayed _) => stored = []
  | .error _ => stored = [] ∨ ∃ events k, batchEvents batch = .ok events
      ∧ k < events.length ∧ AcceptedForms host (events.take k) stored

theorem Delivery.delivers {host : Host} {s : AuthorityState} {fs fs' : List HashedFields}
    {batch : Json} {stored : List Json} {result : JsM BatchResult}
    (h : Delivery host s fs batch stored fs' result) : Delivers host batch stored result := by
  cases h with
  | unchanged hreceived hfailed =>
    rcases result with e | answer
    · exact .inl rfl
    · cases answer with
      | received v results => exact absurd rfl (hreceived v results)
      | failed results => exact absurd rfl (hfailed results)
      | _ => rfl
  | received hfits happ => exact ⟨_, hfits.batchEvents, happ.forms⟩
  | failed hfits hlen hk happ => exact ⟨_, _, hfits.batchEvents, hlen, hk, happ.forms⟩
  | threw hfits hk happ => exact .inr ⟨_, _, hfits.batchEvents, hk, happ.forms⟩

/-! ## Any sequence of deliveries -/

/-- The receiver after deliveries, each with its readings of the clock. -/
def receiveAll (host : Host) (r : Receiver) (deliveries : List ((Nat → Clock) × Json)) : Receiver :=
  deliveries.foldl (fun r delivery => (receiveEventBatch host delivery.1 r delivery.2).2) r

theorem Replica.receiveAll {host : Host} (hcf : host.CollisionFree)
    (deliveries : List ((Nat → Clock) × Json)) :
    ∀ {r : Receiver} {s : AuthorityState} {fs : List HashedFields}, Replica host r s fs →
      r.ledger.event_log <+: (Realm.receiveAll host r deliveries).ledger.event_log
      ∧ ∃ s' fs', Replica host (Realm.receiveAll host r deliveries) s' fs' := by
  induction deliveries with
  | nil => intro r s fs h; exact ⟨List.prefix_refl _, s, fs, h⟩
  | cons delivery deliveries ih =>
    intro r s fs h
    obtain ⟨stored, s', fs', hlog, hrep, -⟩ :=
      h.receive hcf (rfl : receiveEventBatch host delivery.1 r delivery.2 = (_, _))
    obtain ⟨hpre, hrest⟩ := ih hrep
    exact ⟨(hlog ▸ List.prefix_append _ _).trans hpre, hrest⟩

/-- A batch for an empty ledger leaves the log of a ledger with events as it is. -/
theorem Replica.receive_again {host : Host} (hcf : host.CollisionFree) {clocks : Nat → Clock}
    {r : Receiver} {s : AuthorityState} {fs : List HashedFields} {batch : Json}
    (h : Replica host r s fs) (hne : fs ≠ []) (hprev : batchPreviousHash batch = .null) :
    (receiveEventBatch host clocks r batch).2.ledger.event_log = r.ledger.event_log := by
  have hcall := (Prod.mk.eta (p := receiveEventBatch host clocks r batch)).symm
  obtain ⟨stored, s', fs', hlog, -, hdel⟩ := h.receive hcf hcall
  rw [hlog, hdel.eq_nil hprev hne, List.append_nil]

/-- The log verifies and no event id occurs twice in it. -/
def SoundLog (host : Host) (log : List Json) : Prop :=
  verifyRealmEventHistory host log = .ok true ∧ (acceptedIds log).Nodup

theorem Replica.soundLog {host : Host} {r : Receiver} {s : AuthorityState} {fs : List HashedFields}
    (h : Replica host r s fs) : SoundLog host r.ledger.event_log :=
  ⟨verifyRealmEventHistory_eq_ok.mpr ⟨fs, h.live.chain⟩, h.reachable.distinct⟩

/-- After any deliveries to a reachable ledger, with a shared store that was empty or with none, the
log extends the first one and is sound; and one more delivery appends what it delivers. -/
theorem deliveries_append {host : Host} (hcf : host.CollisionFree) {r : Receiver}
    (hreach : Reachable host r.ledger) (hfresh : r.executionStore.getD [] = [])
    (deliveries : List ((Nat → Clock) × Json)) (clocks : Nat → Clock) (batch : Json) :
    r.ledger.event_log <+: (receiveAll host r deliveries).ledger.event_log
    ∧ SoundLog host (receiveAll host r deliveries).ledger.event_log
    ∧ ∃ stored, (receiveEventBatch host clocks (receiveAll host r deliveries) batch).2.ledger.event_log
          = (receiveAll host r deliveries).ledger.event_log ++ stored
        ∧ SoundLog host ((receiveAll host r deliveries).ledger.event_log ++ stored)
        ∧ Delivers host batch stored
            (receiveEventBatch host clocks (receiveAll host r deliveries) batch).1 := by
  obtain ⟨s, fs, hlive⟩ := hreach.live
  have hstart : Replica host r s fs := ⟨hreach, hlive, by rw [hfresh]; exact recorded_empty host fs⟩
  obtain ⟨hpre, s₁, fs₁, hrep⟩ := hstart.receiveAll hcf deliveries
  obtain ⟨stored, s₂, fs₂, hlog, hrep', hdel⟩ := hrep.receive hcf
    (rfl : receiveEventBatch host clocks (receiveAll host r deliveries) batch = (_, _))
  exact ⟨hpre, hrep.soundLog, stored, hlog, hlog ▸ hrep'.soundLog, hdel.delivers⟩

/-- Alice's creation, its envelope naming `ref`, as a batch for an empty ledger. -/
def creationBatch (host : Host) (ref : String) : Json :=
  .obj [("delivery_id", .str "delivery-1"), ("previous_event_hash", .null),
    ("head_hash", digest (link host none creationHashed)),
    ("events", .arr [creationEvent host ref "09:00"])]

/-- The delivery of the batch to an empty ledger. -/
def creationDelivery (ref : String) : JsM BatchResult × Receiver :=
  receiveEventBatch plainHost (fun _ => scriptClock) ⟨Ledger.empty, some []⟩
    (creationBatch plainHost ref)

def isReceived : JsM BatchResult → Bool
  | .ok (.received ..) => true
  | _ => false

theorem exists_of_isReceived {out : JsM BatchResult × Receiver} (h : isReceived out.1 = true) :
    ∃ v results, out = (.ok (.received v results), out.2) := by
  obtain ⟨result, r⟩ := out
  unfold isReceived at h
  split at h
  · next v results hr => exact ⟨v, results, Prod.ext hr rfl⟩
  · cases h

theorem creation_received : isReceived (creationDelivery "root:alice").1 = true := by decide +kernel

/-- Two deliveries of it. -/
def creationDeliveries : List ((Nat → Clock) × Json) :=
  List.replicate 2 (fun _ => scriptClock, creationBatch plainHost "root:alice")

/-- The receiver after the two, with a store they share. -/
def creationReceiver : Receiver := receiveAll plainHost ⟨Ledger.empty, some []⟩ creationDeliveries

/-- The batch, delivered twice and then once more, is in the log once. -/
theorem deliveries_append_creation :
    creationReceiver.ledger.event_log.length = 1
    ∧ ∃ stored, SoundLog plainHost (creationReceiver.ledger.event_log ++ stored)
      ∧ Delivers plainHost (creationBatch plainHost "root:alice") stored
          (receiveEventBatch plainHost (fun _ => scriptClock) creationReceiver
            (creationBatch plainHost "root:alice")).1 := by
  have hempty : (⟨Ledger.empty, some []⟩ : Receiver).executionStore.getD [] = [] := rfl
  have h := deliveries_append plainHost_collisionFree (r := ⟨Ledger.empty, some []⟩) .empty hempty
    creationDeliveries (fun _ => scriptClock) (creationBatch plainHost "root:alice")
  rw [← creationReceiver] at h
  refine ⟨?_, h.2.2.imp fun stored hstored => hstored.2⟩
  obtain ⟨v, results, hfirst⟩ := exists_of_isReceived creation_received
  have hstart : Replica plainHost ⟨Ledger.empty, some []⟩ emptyAuthorityState [] :=
    ⟨.empty, live_empty _, recorded_empty _ _⟩
  obtain ⟨stored, s₁, fs₁, hlog₁, hrep₁, hdel₁⟩ := hstart.receive plainHost_collisionFree hfirst
  cases hdel₁ with
  | unchanged hno _ => exact absurd rfl (hno v results)
  | @received events _ hs _ _ _ hfits happ =>
  have hevents : events = [creationEvent plainHost "root:alice" "09:00"] := by
    have hread := hfits.read
    cases hread
    rfl
  rw [hevents] at happ
  cases happ with
  | cons hnormal hacc happ =>
  cases happ
  have htwice : creationReceiver = (receiveEventBatch plainHost (fun _ => scriptClock)
      (creationDelivery "root:alice").2 (creationBatch plainHost "root:alice")).2 := by
    unfold creationReceiver creationDeliveries receiveAll creationDelivery
    rw [List.replicate_succ, List.replicate_one, List.foldl_cons, List.foldl_cons, List.foldl_nil]
  rw [htwice, hrep₁.receive_again plainHost_collisionFree (by simp) rfl, hlog₁]
  rfl

end SimpleL1.Realm
