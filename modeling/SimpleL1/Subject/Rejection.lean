import SimpleL1.Subject.Isolation

/-!
# Events that are rejected

An event that is not valid leaves the state, its hash and the known ids as they
are, so the events that were accepted are accepted again without it. Only the
selection looks further: without a subject given, the first event of the history
is asked for one before it is validated.
-/

namespace SimpleL1.Subject

open SimpleL1.Js SimpleL1.Lib

variable {p : Platform} {e e' : AuthorityEvent} {r r' t : Evaluation}

/-- The events that are accepted from here on, each given beside what it is normalised to. -/
def acceptedFrom (p : Platform) (r : Evaluation) : List (Json × AuthorityEvent) → JsM (List Json)
  | [] => return []
  | (input, event) :: rest => do
    let validation ←
      validateAuthorityEvent p event.toJson (some r.knownEventIds) (some r.currentStateHash)
    let accepted ← acceptedFrom p (← evaluateStep p r event) rest
    return if validation.ok then input :: accepted else accepted

/-- The events of the history that `evaluateAuthorityHistory` accepts, in order. -/
def acceptedEvents (p : Platform) (events : List Json) (subject : Option String) : JsM (List Json) := do
  let normalizedEvents ← events.mapM (normalizeAuthorityEvent p)
  let start ← startEvaluation p (selectSubject subject normalizedEvents)
  acceptedFrom p start (events.zip normalizedEvents)

/-! ## The run of the accepted events -/

/-- The evaluation, with nothing found wrong so far. -/
def Evaluation.clean (r : Evaluation) : Evaluation := { r with reasonCodes := [] }

theorem clean_initial (subject : Option String) : (initial p subject).clean = initial p subject := rfl

/-- What was found wrong before has no part in whether an event is valid. -/
theorem accepts_clean : Accepts p r.clean e e' ↔ Accepts p r e e' := Iff.rfl

theorem acceptEvent_clean (h : acceptEvent p r e = .ok r') : acceptEvent p r.clean e = .ok r'.clean := by
  obtain ⟨s, hash, hs, hhash, rfl⟩ := acceptEvent_eq_ok.mp h
  exact acceptEvent_eq_ok.mpr ⟨s, hash, hs, hhash, rfl⟩

/-- An accepted event does the same where nothing was found wrong; a refused one does nothing there. -/
theorem evaluateStep_clean (he : Normalized e) (h : evaluateStep p r e = .ok r') :
    ∃ v, validateAuthorityEvent p e.toJson (some r.knownEventIds) (some r.currentStateHash) = .ok v ∧
      (if v.ok then evaluateStep p r.clean e = .ok r'.clean else r'.clean = r.clean) := by
  refine ⟨_, validateAuthorityEvent_again he, ?_⟩
  by_cases hcodes : codesAt p r (e.again p) = []
  · have haccepts : Accepts p r e (e.again p) := (accepts_iff he).mpr ⟨rfl, hcodes⟩
    rw [if_pos (List.isEmpty_iff.mpr hcodes), evaluateStep_of_accepts (accepts_clean.mpr haccepts)]
    rw [evaluateStep_of_accepts haccepts] at h
    exact acceptEvent_clean h
  · have hrefused : Refused p r e := fun e' haccepts => by
      obtain ⟨rfl, hnil⟩ := (accepts_iff he).mp haccepts
      exact hcodes hnil
    obtain ⟨codes, -, heq⟩ := evaluateStep_of_refused he hrefused
    rw [if_neg (by simpa using hcodes)]
    rw [heq] at h
    cases h
    rfl

/-- The accepted events are evaluated alone as they are among the others, with nothing found wrong. -/
theorem run_accepted {pairs : List (Json × AuthorityEvent)}
    (hread : ∀ x ∈ pairs, normalizeAuthorityEvent p x.1 = .ok x.2)
    (hrun : Runs.run (evaluateStep p) r (pairs.map Prod.snd) = .ok t) :
    ∃ accepted normalized, acceptedFrom p r pairs = .ok accepted ∧
      accepted.mapM (normalizeAuthorityEvent p) = .ok normalized ∧
      Runs.run (evaluateStep p) r.clean normalized = .ok t.clean := by
  induction pairs generalizing r with
  | nil =>
    cases hrun
    exact ⟨[], [], rfl, rfl, rfl⟩
  | cons x pairs ih =>
    obtain ⟨input, e⟩ := x
    obtain ⟨r', hstep, hrun⟩ := bind_eq_ok.mp hrun
    have hinput : normalizeAuthorityEvent p input = .ok e := hread _ List.mem_cons_self
    obtain ⟨v, hv, hclean⟩ := evaluateStep_clean (normalized_of_normalize hinput) hstep
    obtain ⟨accepted, normalized, haccepted, hnormalized, hrest⟩ :=
      ih (fun y hy => hread y (List.mem_cons_of_mem _ hy)) hrun
    have hfrom : acceptedFrom p r ((input, e) :: pairs)
        = .ok (if v.ok then input :: accepted else accepted) := by
      rw [acceptedFrom, hv, ok_bind, hstep, ok_bind, haccepted]
      rfl
    cases hok : v.ok with
    | true =>
      rw [hok, if_pos rfl] at hclean hfrom
      refine ⟨input :: accepted, e :: normalized, hfrom,
        Runs.mapM_cons_eq_ok.mpr ⟨e, normalized, hinput, hnormalized, rfl⟩, ?_⟩
      exact bind_eq_ok.mpr ⟨r'.clean, hclean, hrest⟩
    | false =>
      rw [hok, if_neg Bool.false_ne_true] at hclean hfrom
      rw [hclean] at hrest
      exact ⟨accepted, normalized, hfrom, hnormalized, hrest⟩

/-! ## The selected subject -/

theorem subject_nextState {s next : SubjectState} (h : nextState s e = .ok next) :
    next.subject = s.subject := by
  unfold nextState at h
  split at h
  · next a _ =>
    cases a with
    | grant_capability | revoke_capability =>
      obtain ⟨d, -, h⟩ := bind_eq_ok.mp h
      cases h
      rfl
    | _ =>
      cases h
      rfl
  · cases h
    rfl

theorem subject_step (he : Normalized e) (h : evaluateStep p r e = .ok r') :
    r'.currentState.subject = r.currentState.subject := by
  by_cases haccepts : ∃ e', Accepts p r e e'
  · obtain ⟨e', haccepts⟩ := haccepts
    rw [evaluateStep_of_accepts haccepts] at h
    obtain ⟨s, hash, hs, -, rfl⟩ := acceptEvent_eq_ok.mp h
    obtain ⟨next, hnext, hcanonical⟩ := bind_eq_ok.mp hs
    obtain ⟨ids, -, rfl⟩ := map_eq_ok.mp hcanonical
    show next.subject = _
    exact subject_nextState hnext
  · obtain ⟨codes, -, heq⟩ := evaluateStep_of_refused he fun e' h => haccepts ⟨e', h⟩
    rw [heq] at h
    cases h
    rfl

/-- The state is that of the subject the evaluation started for. -/
theorem subject_of_run {subject : Option String} {events : List AuthorityEvent}
    (hevents : ∀ e ∈ events, Normalized e) (hrun : runEvents p subject events = .ok t) :
    t.currentState.subject = subject :=
  (Runs.invariant (I := fun r => r.currentState.subject = subject) rfl fun _ e _ he h hstep =>
    (subject_step (hevents e he) hstep).trans h).last hrun

theorem selectSubject_given {given : String} (hgiven : given ≠ "") (events : List AuthorityEvent) :
    selectSubject (some given) events = some given := by
  simp [selectSubject, hgiven]

/-! ## Whole histories -/

/-- Each input stands beside what it is normalised to. -/
theorem forall_zip_of_mapM {events : List Json} {read : List AuthorityEvent}
    (h : events.mapM (normalizeAuthorityEvent p) = .ok read) :
    ∀ x ∈ events.zip read, normalizeAuthorityEvent p x.1 = .ok x.2 := by
  induction events generalizing read with
  | nil =>
    intro x hx
    cases hx
  | cons event events ih =>
    obtain ⟨e, rest, he, hrest, rfl⟩ := Runs.mapM_cons_eq_ok.mp h
    intro x hx
    rcases List.mem_cons.mp hx with rfl | hx
    · exact he
    · exact ih hrest x hx

/-- The accepted events are accepted again without the others, all of them, and come to the state of the
whole history with its hash, just when the same subject is selected for them. It is when a subject is
given. -/
theorem rejected_leave_no_trace (p : Platform) {events : List Json} {subject : Option String}
    {outcome : HistoryOutcome} (houtcome : evaluateAuthorityHistory p (.arr events) subject = .ok outcome) :
    ∃ accepted, acceptedEvents p events subject = .ok accepted ∧
      (∀ again, evaluateAuthorityHistory p (.arr accepted) again
          = .ok ⟨true, [], outcome.canonical_subject_state, outcome.state_hash⟩ ↔
        selectedSubject p accepted again = selectedSubject p events subject) ∧
      ∀ given, subject = some given → given ≠ "" →
        selectedSubject p accepted subject = selectedSubject p events subject := by
  obtain ⟨t, ht, houtcome⟩ := bind_eq_ok.mp houtcome
  cases houtcome
  obtain ⟨read, hread, -⟩ := bind_eq_ok.mp ht
  rw [evaluateEvents_eq hread] at ht
  have hpairs : ∀ x ∈ events.zip read, normalizeAuthorityEvent p x.1 = .ok x.2 :=
    forall_zip_of_mapM hread
  have hsnd : (events.zip read).map Prod.snd = read :=
    List.map_snd_zip (Nat.le_of_eq (Runs.length_mapM hread))
  obtain ⟨accepted, normalized, haccepted, hnormalized, hrun⟩ :=
    run_accepted hpairs (show Runs.run (evaluateStep p) (initial p (selectSubject subject read)) _ = .ok t by
      rw [hsnd]; exact ht)
  have hselected : ∀ again, selectedSubject p accepted again = selectSubject again normalized :=
    fun again => by rw [selectedSubject, hnormalized]
  have hselected' : selectedSubject p events subject = selectSubject subject read := by
    rw [selectedSubject, hread]
  refine ⟨accepted, ?_, ?_, ?_⟩
  · rw [acceptedEvents, hread, ok_bind, startEvaluation_eq, ok_bind]
    exact haccepted
  · intro again
    rw [hselected, hselected', evaluateAuthorityHistory, evaluateEvents_eq hnormalized]
    constructor
    · intro h
      obtain ⟨t', ht', h⟩ := bind_eq_ok.mp h
      have hstate : some t'.currentState = some t.currentState :=
        congrArg HistoryOutcome.canonical_subject_state (Except.ok.inj h)
      rw [← subject_of_run (fun e he => normalized_of_mapM hnormalized he) ht', Option.some.inj hstate]
      exact subject_of_run (fun e he => normalized_of_mapM hread he) ht
    · intro hsame
      rw [hsame]
      exact bind_eq_ok.mpr ⟨t.clean, hrun, rfl⟩
  · rintro given rfl hgiven
    rw [hselected, hselected', selectSubject_given hgiven, selectSubject_given hgiven]

/-- Alice's history with an event of Mallory that is not in order. -/
def malloryRejected : Json :=
  signedEvent "ae_2" "sl1:id:mallory" "device" "genesis" "sl1:id:mallory" []

theorem malloryRejected_leaves_no_trace : ∃ outcome accepted,
    evaluateAuthorityHistory plainPlatform (.arr [malloryRejected, aliceStarts]) (some "sl1:id:alice")
      = .ok outcome ∧
    evaluateAuthorityHistory plainPlatform (.arr accepted) (some "sl1:id:alice")
      = .ok ⟨true, [], outcome.canonical_subject_state, outcome.state_hash⟩ := by
  have hok : (evaluateAuthorityHistory plainPlatform (.arr [malloryRejected, aliceStarts])
      (some "sl1:id:alice")).map HistoryOutcome.ok = .ok false := by
    decide +kernel
  obtain ⟨outcome, houtcome, -⟩ := map_eq_ok.mp hok
  obtain ⟨accepted, -, hagain, hgiven⟩ := rejected_leave_no_trace plainPlatform houtcome
  exact ⟨outcome, accepted, houtcome,
    (hagain (some "sl1:id:alice")).mpr (hgiven "sl1:id:alice" rfl (by decide))⟩

/-- The subject in the state that the history is evaluated to. -/
def evaluatedSubject (p : Platform) (events : List Json) (subject : Option String) : Option String :=
  match deriveCanonicalSubjectState p (.arr events) subject with
  | .ok (some s) => s.subject
  | _ => none

/-- With no subject given, the rejected event of Mallory puts its subject on the state of the history. -/
theorem rejected_event_selects :
    acceptedEvents plainPlatform [malloryRejected, aliceStarts] none = .ok [aliceStarts] ∧
    deriveCanonicalSubjectState plainPlatform (.arr [malloryRejected, aliceStarts]) none ≠
      deriveCanonicalSubjectState plainPlatform (.arr [aliceStarts]) none := by
  constructor
  · rfl
  · intro h
    have hsubject : evaluatedSubject plainPlatform [malloryRejected, aliceStarts] none
        = evaluatedSubject plainPlatform [aliceStarts] none := by
      unfold evaluatedSubject
      rw [h]
    revert hsubject
    decide +kernel

end SimpleL1.Subject
