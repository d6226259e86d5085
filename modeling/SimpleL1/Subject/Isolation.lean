import SimpleL1.Subject.Evaluation

/-!
# The events of other subjects

The evaluator applies every valid event to the state of the selected subject. A
history shows the same as its events of that subject alone, up to every place in
it, just when the valid events of other subjects are idle where they come.
-/

namespace SimpleL1.Subject

open SimpleL1.Js SimpleL1.Lib

variable {p : Platform} {s s' : SubjectState} {e e' : AuthorityEvent} {r r' t u : Evaluation}

/-- The subject of the event, normalised, is the subject. -/
def ofSubject (p : Platform) (subject : Option String) (event : Json) : Bool :=
  match normalizeAuthorityEvent p event with
  | .ok e => decide (some e.subject = subject)
  | .error _ => false

/-- The subject whose state is evaluated. -/
def selectedSubject (p : Platform) (events : List Json) (subject : Option String) : Option String :=
  match events.mapM (normalizeAuthorityEvent p) with
  | .ok normalized => selectSubject subject normalized
  | .error _ => none

/-! ## Ids that are known -/

/-- The ids in the state are ids of accepted events. -/
def AppliedKnown (r : Evaluation) : Prop := ∀ id ∈ r.currentState.applied_events, id ∈ r.knownEventIds

theorem applied_next {next : SubjectState} (h : nextState s e = .ok next) :
    next.applied_events = s.applied_events ++ [e.event_id] := by
  unfold nextState at h
  split at h
  · next a _ =>
    cases a with
    | grant_capability | revoke_capability =>
      obtain ⟨d, -, h⟩ := bind_eq_ok.mp h
      cases h
      rfl
    | _ =>
      cases h
      rfl
  · cases h
    rfl

/-- An event adds its id to the state, and no other. -/
theorem mem_applied (h : applyAuthorityEvent p s e = .ok s') {id : Json} (hid : id ∈ s'.applied_events) :
    id ∈ s.applied_events ∨ id = e.event_id := by
  obtain ⟨next, hnext, hcanonical⟩ := bind_eq_ok.mp h
  obtain ⟨ids, hids, rfl⟩ := map_eq_ok.mp hcanonical
  have hmem := mem_of_mem_firstOfEach ((perm_sortByString hids).mem_iff.mp hid)
  rw [applied_next hnext] at hmem
  simpa using (List.mem_filter.mp hmem).1

theorem AppliedKnown.accept (h : AppliedKnown r) (hstep : acceptEvent p r e = .ok r') : AppliedKnown r' := by
  obtain ⟨s, hash, hs, -, rfl⟩ := acceptEvent_eq_ok.mp hstep
  intro id hid
  rcases mem_applied hs hid with hid | rfl
  · exact List.mem_append_left _ (h id hid)
  · exact List.mem_append_right _ (.head [])

theorem mem_of_listed {ids : List Json} {id : Json} (h : Listed ids id = true) : id ∈ ids := by
  obtain ⟨k, hk, hsame⟩ := List.any_eq_true.mp h
  rwa [← Option.some.inj (eq_of_strictEq hsame)]

theorem isKnown_congr {ids ids' : List Json} (h : ∀ id, id ∈ ids ↔ id ∈ ids') (parent : String) :
    isKnown ids parent = isKnown ids' parent := by
  have hswap : ∀ {ids ids' : List Json}, (∀ id, id ∈ ids ↔ id ∈ ids') → isKnown ids parent = true →
      isKnown ids' parent = true := by
    intro ids ids' h hknown
    obtain ⟨id, hid, hsame⟩ := List.any_eq_true.mp hknown
    exact List.any_eq_true.mpr ⟨id, (h id).mp hid, hsame⟩
  exact Bool.eq_iff_iff.mpr ⟨hswap h, hswap fun id => (h id).symm⟩

/-! ## The run without the others -/

/-- The two evaluations stand alike. -/
structure Alike (p : Platform) (t u : Evaluation) : Prop where
  state : t.currentState = u.currentState
  hash : t.currentStateHash = u.currentStateHash
  known : ∀ id, id ∈ t.knownEventIds ↔ id ∈ u.knownEventIds
  coherent : Coherent p t
  applied : AppliedKnown t

theorem Alike.codesAt_eq (h : Alike p t u) (e : AuthorityEvent) : codesAt p t e = codesAt p u e := by
  have hknown : isKnown t.knownEventIds = isKnown u.knownEventIds := funext (isKnown_congr h.known)
  rw [codesAt, codesAt, h.hash, orderCodes, orderCodes, hknown]

theorem Alike.accepts_iff (he : Normalized e) (h : Alike p t u) : Accepts p t e e' ↔ Accepts p u e e' := by
  rw [Subject.accepts_iff he, Subject.accepts_iff he, h.codesAt_eq]

/-- An event given to both. -/
theorem Alike.step (he : Normalized e) (h : Alike p t u) :
    Runs.Both (Alike p) (evaluateStep p t e) (evaluateStep p u e) := by
  by_cases haccepts : ∃ e', Accepts p t e e'
  · obtain ⟨e', haccepts⟩ := haccepts
    rw [evaluateStep_of_accepts haccepts, evaluateStep_of_accepts ((h.accepts_iff he).mp haccepts)]
    cases hs : applyAuthorityEvent p t.currentState e' with
    | error x =>
      rw [acceptEvent, acceptEvent, ← h.state, hs]
      rfl
    | ok s =>
      have hcanonical := canonical_applyAuthorityEvent hs
      obtain ⟨hash, hhash⟩ := hash_of_canonical hcanonical
      have ht := acceptEvent_eq_ok.mpr ⟨s, hash, hs, hhash, rfl⟩
      rw [h.state] at hs
      rw [ht, acceptEvent_eq_ok.mpr ⟨s, hash, hs, hhash, rfl⟩]
      refine ⟨rfl, rfl, fun id => ?_, ⟨hcanonical, hhash⟩, h.applied.accept ht⟩
      rw [List.mem_append, List.mem_append, h.known]
  · obtain ⟨codes, -, ht⟩ := evaluateStep_of_refused he fun e' h => haccepts ⟨e', h⟩
    obtain ⟨codes', -, hu⟩ := evaluateStep_of_refused he fun e' hu =>
      haccepts ⟨e', (h.accepts_iff he).mpr hu⟩
    rw [ht, hu]
    exact ⟨h.state, h.hash, h.known, ⟨h.coherent.canonical, h.coherent.hash⟩, h.applied⟩

theorem Accepts.event_id (he : Normalized e) (h : Accepts p r e e') : e'.event_id = e.event_id := by
  obtain ⟨rfl, -⟩ := (Subject.accepts_iff he).mp h
  rfl

/-- Accepting an event leaves the state as it is just when the event is idle. -/
theorem acceptEvent_keeps_iff (he : Normalized e) (hcoherent : Coherent p t) (h : Accepts p t e e') :
    (∃ t', acceptEvent p t e' = .ok t' ∧ t'.currentState = t.currentState) ↔ Idle t.currentState e' := by
  have hshape := h.shaped he
  obtain ⟨_, a, -, ha, -⟩ := hshape.action
  have hid : e'.event_id.truthy = true := by
    rw [h.event_id he]
    exact he.event_id
  rw [← applyAuthorityEvent_eq_self_iff hcoherent.canonical hshape.target hid ha]
  constructor
  · rintro ⟨t', ht', heq⟩
    obtain ⟨s, hash, hs, -, rfl⟩ := acceptEvent_eq_ok.mp ht'
    rw [hs]
    exact congrArg Except.ok heq
  · intro hs
    exact ⟨_, acceptEvent_eq_ok.mpr ⟨_, _, hs, hcoherent.hash, rfl⟩, rfl⟩

/-- An idle event given to one of the two. -/
theorem Alike.idle (he : Normalized e) (h : Alike p t u)
    (hidle : ∀ e', Accepts p t e e' → Idle t.currentState e') :
    ∃ t', evaluateStep p t e = .ok t' ∧ Alike p t' u := by
  by_cases haccepts : ∃ e', Accepts p t e e'
  · obtain ⟨e', haccepts⟩ := haccepts
    have hidle := hidle e' haccepts
    obtain ⟨t', ht', hstate⟩ := (acceptEvent_keeps_iff he h.coherent haccepts).mpr hidle
    refine ⟨t', (evaluateStep_of_accepts haccepts).trans ht', ?_⟩
    have happlied := h.applied.accept ht'
    obtain ⟨s, hash, -, hhash, rfl⟩ := acceptEvent_eq_ok.mp ht'
    replace hstate : s = t.currentState := hstate
    subst hstate
    have hsame : hash = t.currentStateHash := Except.ok.inj (hhash.symm.trans h.coherent.hash)
    refine ⟨h.state, hsame.trans h.hash, fun id => ?_, ⟨h.coherent.canonical, hhash⟩, happlied⟩
    -- the id is that of an event accepted before
    have hid := h.applied _ (mem_of_listed hidle.1)
    rw [← h.known, List.mem_append, List.mem_singleton, or_iff_left_iff_imp]
    rintro rfl
    exact hid
  · obtain ⟨codes, -, ht⟩ := evaluateStep_of_refused he fun e' h => haccepts ⟨e', h⟩
    exact ⟨_, ht, h.state, h.hash, h.known, ⟨h.coherent.canonical, h.coherent.hash⟩, h.applied⟩

theorem moves_of_not_idle (he : Normalized e) (hcoherent : Coherent p t)
    (hidle : ¬ ∀ e', Accepts p t e e' → Idle t.currentState e') :
    (evaluateStep p t e).map Evaluation.currentState ≠ .ok t.currentState := by
  push Not at hidle
  obtain ⟨e', haccepts, hidle⟩ := hidle
  rw [evaluateStep_of_accepts haccepts]
  intro hsame
  obtain ⟨t', ht', heq⟩ := map_eq_ok.mp hsame
  exact hidle ((acceptEvent_keeps_iff he hcoherent haccepts).mp ⟨t', ht', heq⟩)

theorem alike_initial (subject : Option String) : Alike p (initial p subject) (initial p subject) :=
  ⟨rfl, rfl, fun _ => Iff.rfl, coherent_initial subject, fun _ h => (nomatch h)⟩

theorem purge (subject : Option String) {events : List AuthorityEvent}
    (hevents : ∀ e ∈ events, Normalized e) (keep : AuthorityEvent → Bool) :
    Runs.Purge (evaluateStep p) (initial p subject) events keep Evaluation.currentState (Alike p)
      fun t e => ∀ e', Accepts p t e e' → Idle t.currentState e' where
  init := alike_initial subject
  obs_eq h := h.state
  kept he _ h := h.step (hevents _ he)
  idle_step he _ h hidle := h.idle (hevents _ he) hidle
  moves he _ h hidle := moves_of_not_idle (hevents _ he) h.coherent hidle

/-! ## Whole histories -/

/-- Leaving out the others leaves the selection as it is. -/
theorem selectSubject_filter {subject selected : Option String} {events : List AuthorityEvent}
    (h : selectSubject subject events = selected) :
    selectSubject subject (events.filter fun e => decide (some e.subject = selected)) = selected := by
  unfold selectSubject at h ⊢
  cases hgiven : subject.filter (· ≠ "") with
  | some given =>
    rw [hgiven] at h
    exact h
  | none =>
    rw [hgiven, Option.none_or] at h
    rw [Option.none_or]
    cases events with
    | nil => exact h
    | cons e events =>
      by_cases he : e.subject = ""
      · -- no subject is selected, so every event is left out
        have hnone : selected = none := by simp [← h, he]
        subst hnone
        simp
      · have hsome : selected = some e.subject := by simp [← h, he]
        subst hsome
        simp [he]

theorem map_some_inj {x y : JsM Evaluation} :
    (x.map fun r => some r.currentState) = (y.map fun r => some r.currentState) ↔
      x.map Evaluation.currentState = y.map Evaluation.currentState := by
  cases x <;> cases y <;> simp [Except.map]

theorem derive_filter_iff {events : List Json} {subject : Option String}
    {normalized q : List AuthorityEvent} {history : List Json}
    (hnormalized : events.mapM (normalizeAuthorityEvent p) = .ok normalized) (hq : q <+: normalized)
    (hhistory : history.mapM (normalizeAuthorityEvent p) = .ok q) :
    deriveCanonicalSubjectState p (.arr history) subject = deriveCanonicalSubjectState p
        (.arr (history.filter (ofSubject p (selectSubject subject normalized)))) subject ↔
      (runEvents p (selectSubject subject normalized) q).map Evaluation.currentState =
        (runEvents p (selectSubject subject normalized)
          (q.filter fun e => decide (some e.subject = selectSubject subject normalized))).map
          Evaluation.currentState := by
  have hkept : (history.filter (ofSubject p (selectSubject subject normalized))).mapM
      (normalizeAuthorityEvent p) = .ok (q.filter fun e =>
        decide (some e.subject = selectSubject subject normalized)) :=
    Runs.mapM_filter hhistory fun input e he => by rw [ofSubject, he]
  rw [derive_eq hhistory, derive_eq hkept]
  by_cases hne : q = []
  · subst hne
    exact iff_of_true rfl rfl
  · have hselect := @selectSubject_extends subject _ _ hq hne
    rw [selectSubject_filter hselect, hselect, map_some_inj]

/-- A history shows the same without the events of other subjects, up to every place in it, just
when the valid ones among these are idle where they come. -/
theorem others_left_out_iff (p : Platform) {events : List Json} {subject : Option String}
    (hread : ∀ event ∈ events, ∃ e, normalizeAuthorityEvent p event = .ok e) :
    (∀ history, history <+: events →
        deriveCanonicalSubjectState p (.arr history) subject = deriveCanonicalSubjectState p
          (.arr (history.filter (ofSubject p (selectedSubject p events subject)))) subject) ↔
      ∀ history, history <+: events → ∀ e r, BeforeLast p history subject e r →
        some e.subject ≠ selectedSubject p events subject → ∀ e', Accepts p r e e' →
        Idle r.currentState e' := by
  obtain ⟨normalized, hnormalized⟩ := exists_mapM.mpr hread
  have hselected : selectedSubject p events subject = selectSubject subject normalized := by
    rw [selectedSubject, hnormalized]
  have hevents : ∀ e ∈ normalized, Normalized e := fun e he => normalized_of_mapM hnormalized he
  have hsame := (purge (p := p) (selectSubject subject normalized) hevents
    fun e => decide (some e.subject = selectSubject subject normalized)).same_iff
  rw [hselected]
  constructor
  · intro h history hprefix e r hbefore hother e' haccepts
    obtain ⟨earlier, hhistory, hrun⟩ := beforeLast_iff.mp hbefore
    obtain ⟨q, hq, hqprefix⟩ := Runs.mapM_prefix hnormalized hprefix
    rw [hhistory] at hq
    cases hq
    rw [selectSubject_extends hqprefix (by simp)] at hrun
    refine hsame.mp (fun q hq => ?_) earlier e hqprefix (by simpa using hother) r hrun e' haccepts
    obtain ⟨history', hprefix', hhistory'⟩ := Runs.exists_prefix_of_mapM hnormalized hq
    exact (derive_filter_iff hnormalized hq hhistory').mp (h history' hprefix')
  · intro h history hprefix
    obtain ⟨q, hhistory, hq⟩ := Runs.mapM_prefix hnormalized hprefix
    refine (derive_filter_iff hnormalized hq hhistory).mpr (hsame.mpr ?_ q hq)
    intro earlier e hearlier hother t ht e' haccepts
    obtain ⟨history', hprefix', hhistory'⟩ := Runs.exists_prefix_of_mapM hnormalized hearlier
    refine h history' hprefix' e t (beforeLast_iff.mpr ⟨earlier, hhistory', ?_⟩)
      (by simpa using hother) e' haccepts
    rw [selectSubject_extends hearlier (by simp)]
    exact ht

def aliceStarts : Json := signedEvent "ae_1" "sl1:id:alice" "identity" "genesis" "sl1:id:alice" []

def malloryBinds : Json :=
  signedEvent "ae_2" "sl1:id:mallory" "identity" "bind_controller" "sl1:agent:mallory" []

theorem malloryBinds_left_out_iff :
    (∀ history, history <+: [aliceStarts, malloryBinds] →
        deriveCanonicalSubjectState plainPlatform (.arr history) none =
          deriveCanonicalSubjectState plainPlatform (.arr (history.filter (ofSubject plainPlatform
            (selectedSubject plainPlatform [aliceStarts, malloryBinds] none)))) none) ↔
      ∀ history, history <+: [aliceStarts, malloryBinds] → ∀ e r,
        BeforeLast plainPlatform history none e r →
        some e.subject ≠ selectedSubject plainPlatform [aliceStarts, malloryBinds] none → ∀ e',
        Accepts plainPlatform r e e' → Idle r.currentState e' := by
  refine others_left_out_iff plainPlatform fun event hevent => ?_
  have hread : ∀ event ∈ [aliceStarts, malloryBinds],
      (normalizeAuthorityEvent plainPlatform event).toOption.isSome = true := by
    decide +kernel
  have hsome := hread event hevent
  cases he : normalizeAuthorityEvent plainPlatform event with
  | ok e => exact ⟨e, rfl⟩
  | error x =>
    rw [he] at hsome
    cases hsome

/-- An event of another subject makes its target a controller of this one. -/
theorem malloryBinds_controls_alice :
    deriveCanonicalSubjectState plainPlatform (.arr [aliceStarts, malloryBinds]) (some "sl1:id:alice") ≠
      deriveCanonicalSubjectState plainPlatform (.arr ([aliceStarts, malloryBinds].filter
        (ofSubject plainPlatform (some "sl1:id:alice")))) (some "sl1:id:alice") := by
  intro h
  have hcontrollers := congrArg (Except.map (Option.map fun s => s.identity_continuity.controllers)) h
  revert hcontrollers
  decide +kernel

end SimpleL1.Subject
