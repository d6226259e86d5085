import SimpleL1.Subject.Isolation

/-!
# Events that are delivered again

A copy of an event that was accepted is accepted again, as the ids that are known
are not compared with its own. It does nothing just when it is idle in the state
the history left.
-/

namespace SimpleL1.Subject

open SimpleL1.Js SimpleL1.Lib

variable {p : Platform} {s s' : SubjectState} {e e' : AuthorityEvent} {r r' t u : Evaluation}

/-- A copy of the event that refers to no earlier state. -/
def redelivered : Json → Json
  | .obj fs => .obj (Fields.set fs "previous_state_reference" .null)
  | v => v

theorem prop_redelivered (v : Json) {k : String} (hk : k ≠ "previous_state_reference") :
    (redelivered v).prop k = v.prop k := by
  cases v with
  | obj fs =>
    show (Fields.set fs "previous_state_reference" .null).get k = Fields.get fs k
    rw [Fields.get_set, if_neg hk]
  | _ => rfl

theorem redelivered_previous (v : Json) :
    normalizeNullableString ((redelivered v).prop "previous_state_reference") = .ok none := by
  cases v with
  | obj fs =>
    show normalizeNullableString ((Fields.set fs "previous_state_reference" .null).get _) = _
    rw [Fields.get_set, if_pos rfl]
    rfl
  | _ => rfl

theorem basisOf_redelivered {input : Json} {b : AuthorityBasis} (h : BasisOf p input b) :
    BasisOf p (redelivered input) { b with previous_state_reference := none } := by
  have hprop := fun k (hk : k ≠ "previous_state_reference") => prop_redelivered input hk
  refine ⟨?_, ?_, ?_, ?_, ?_, ?_, ?_, ?_, ?_, ?_, ?_, ?_, ?_, redelivered_previous input, ?_, ?_⟩
  · intro hnull
    have hinput := h.input_ne
    cases input with
    | null => exact hinput rfl
    | _ => cases hnull
  all_goals rw [hprop _ (by decide)]
  · exact h.schema_version
  · exact h.type
  · exact h.subject
  · exact h.authority_domain
  · exact h.action
  · exact h.target
  · exact h.recipient
  · exact h.capability
  · exact h.scope
  · exact h.expires_at
  · exact h.proof
  · exact h.timestamp
  · exact h.causal_parents
  · exact h.metadata

/-- The copy says what the event says, but for the reference. -/
theorem normalize_redelivered {input : Json} (h : normalizeAuthorityEvent p input = .ok e) :
    ∃ copy, normalizeAuthorityEvent p (redelivered input) = .ok copy ∧
      copy.toAuthorityBasis = { e.toAuthorityBasis with previous_state_reference := none } := by
  obtain ⟨hbasis, -⟩ := normalizeAuthorityEvent_eq_ok.mp h
  let basis := { e.toAuthorityBasis with previous_state_reference := none }
  let derived := Json.str (authorityEventId p (.obj basis.fields))
  exact ⟨⟨basis, Node.orElse ((redelivered input).prop "event_id") derived⟩,
    normalizeAuthorityEvent_eq_ok.mpr ⟨basisOf_redelivered hbasis, rfl⟩, rfl⟩

/-! ## What was accepted once -/

theorem known_step (he : Normalized e) (h : evaluateStep p r e = .ok r') :
    ∀ id ∈ r.knownEventIds, id ∈ r'.knownEventIds := by
  by_cases haccepts : ∃ e', Accepts p r e e'
  · obtain ⟨e', haccepts⟩ := haccepts
    rw [evaluateStep_of_accepts haccepts] at h
    obtain ⟨s, hash, -, -, rfl⟩ := acceptEvent_eq_ok.mp h
    exact fun id hid => List.mem_append_left _ hid
  · obtain ⟨codes, -, heq⟩ := evaluateStep_of_refused he fun e' h => haccepts ⟨e', h⟩
    rw [heq] at h
    cases h
    exact fun id hid => hid

/-- An evaluation that has found nothing wrong has accepted the last event, and stood well before. -/
theorem accepts_of_codes (he : Normalized e) (h : evaluateStep p r e = .ok r')
    (hcodes : r'.reasonCodes = []) : (∃ e', Accepts p r e e') ∧ r.reasonCodes = [] := by
  by_cases haccepts : ∃ e', Accepts p r e e'
  · obtain ⟨e', hacc⟩ := haccepts
    rw [evaluateStep_of_accepts hacc] at h
    obtain ⟨s, hash, -, -, rfl⟩ := acceptEvent_eq_ok.mp h
    exact ⟨⟨e', hacc⟩, hcodes⟩
  · obtain ⟨codes, hne, heq⟩ := evaluateStep_of_refused he fun e' h => haccepts ⟨e', h⟩
    rw [heq] at h
    cases h
    exact absurd (List.append_eq_nil_iff.mp hcodes).2 hne

/-- Every event of a history in which nothing is wrong was accepted where it came. -/
theorem accepted_in_run {subject : Option String} {events : List AuthorityEvent}
    (hevents : ∀ e ∈ events, Normalized e) (hrun : runEvents p subject events = .ok t)
    (hcodes : t.reasonCodes = []) (he : e ∈ events) :
    ∃ r e', Accepts p r e e' ∧ ∀ id ∈ r.knownEventIds, id ∈ t.knownEventIds := by
  induction events using List.reverseRecOn generalizing t with
  | nil => cases he
  | append_singleton events last ih =>
    obtain ⟨r, hr, hstep⟩ := Runs.run_snoc_eq_ok.mp hrun
    have hlast := hevents last (List.mem_append_right _ (.head []))
    obtain ⟨⟨last', haccepts⟩, hr'⟩ := accepts_of_codes hlast hstep hcodes
    rcases List.mem_append.mp he with he | he
    · obtain ⟨r₀, e', hacc, hknown⟩ :=
        ih (fun e he => hevents e (List.mem_append_left _ he)) hr hr' he
      exact ⟨r₀, e', hacc, fun id hid => known_step hlast hstep id (hknown id hid)⟩
    · cases List.mem_singleton.mp he
      exact ⟨r, last', haccepts, known_step hlast hstep⟩

theorem isKnown_mono {ids ids' : List Json} (h : ∀ id ∈ ids, id ∈ ids') {parent : String}
    (hknown : isKnown ids parent = true) : isKnown ids' parent = true := by
  obtain ⟨id, hid, hsame⟩ := List.any_eq_true.mp hknown
  exact List.any_eq_true.mpr ⟨id, h id hid, hsame⟩

/-- What was accepted is accepted again when it refers to no state. -/
theorem accepts_copy {copy : AuthorityEvent} (he : Normalized e) (hcopy : Normalized copy)
    (hstated : copy.toAuthorityBasis = { e.toAuthorityBasis with previous_state_reference := none })
    (haccepts : Accepts p r e e') (hknown : ∀ id ∈ r.knownEventIds, id ∈ t.knownEventIds) :
    Accepts p t copy (copy.again p) := by
  obtain ⟨rfl, hcodes⟩ := (accepts_iff he).mp haccepts
  obtain ⟨hshape, horder⟩ := List.append_eq_nil_iff.mp hcodes
  have hagain : (copy.again p).toAuthorityBasis =
      { (e.again p).toAuthorityBasis with previous_state_reference := none } := by
    show copy.toAuthorityBasis.again p = _
    rw [hstated]
    rfl
  refine (accepts_iff hcopy).mpr ⟨rfl, ?_⟩
  rw [codesAt, hagain, List.append_eq_nil_iff]
  exact ⟨hshape, orderCodes_eq_nil.mpr ⟨fun parent hparent =>
    isKnown_mono hknown ((orderCodes_eq_nil.mp horder).1 parent hparent), .inl rfl⟩⟩

/-! ## Whole histories -/

/-- A copy of an event of an accepted history changes nothing just when it is idle at the end. -/
theorem redelivered_changes_nothing_iff (p : Platform) {events : List Json} {subject : Option String}
    {outcome : HistoryOutcome} (houtcome : evaluateAuthorityHistory p (.arr events) subject = .ok outcome)
    (hok : outcome.ok = true) {event : Json} (hevent : event ∈ events) :
    ∃ s copy e', outcome.canonical_subject_state = some s ∧
      normalizeAuthorityEvent p (redelivered event) = .ok copy ∧
      normalizeAuthorityEvent p copy.toJson = .ok e' ∧
      (deriveCanonicalSubjectState p (.arr (events ++ [redelivered event])) subject = .ok (some s) ↔
        Idle s e') := by
  obtain ⟨t, ht, houtcome⟩ := bind_eq_ok.mp houtcome
  cases houtcome
  obtain ⟨normalized, hnormalized, -⟩ := bind_eq_ok.mp ht
  rw [evaluateEvents_eq hnormalized] at ht
  obtain ⟨e, he, hread⟩ : ∃ e ∈ normalized, normalizeAuthorityEvent p event = .ok e := by
    obtain ⟨e, hread⟩ := exists_mapM.mp ⟨normalized, hnormalized⟩ event hevent
    exact ⟨e, (mem_mapM hnormalized).mpr ⟨event, hevent, hread⟩, hread⟩
  have hevents : ∀ e ∈ normalized, Normalized e := fun e he => normalized_of_mapM hnormalized he
  obtain ⟨copy, hcopy, hstated⟩ := normalize_redelivered hread
  have hcopied := normalized_of_normalize hcopy
  obtain ⟨r, e', haccepts, hknown⟩ := accepted_in_run hevents ht (List.isEmpty_iff.mp hok) he
  have hagain : Accepts p t copy (copy.again p) :=
    accepts_copy (hevents e he) hcopied hstated haccepts hknown
  have hnew : (events ++ [redelivered event]).mapM (normalizeAuthorityEvent p) =
      .ok (normalized ++ [copy]) :=
    Runs.mapM_append_eq_ok.mpr ⟨_, _, hnormalized,
      Runs.mapM_cons_eq_ok.mpr ⟨copy, [], hcopy, rfl, rfl⟩, rfl⟩
  refine ⟨t.currentState, copy, copy.again p, rfl, hcopy, normalizeAuthorityEvent_again hcopied, ?_⟩
  rw [← acceptEvent_keeps_iff hcopied (coherent_of_run hevents ht) hagain, derive_eq hnew,
    ← selectSubject_extends (List.prefix_append normalized [copy]) (List.ne_nil_of_mem he), runEvents,
    Runs.run_snoc_of_ok ht, evaluateStep_of_accepts hagain]
  constructor
  · intro h
    obtain ⟨t', ht', hstate⟩ := map_eq_ok.mp h
    exact ⟨t', ht', Option.some.inj hstate⟩
  · rintro ⟨t', ht', hstate⟩
    exact map_eq_ok.mpr ⟨t', ht', congrArg some hstate⟩

theorem aliceStarts_again : ∃ outcome s copy e',
    evaluateAuthorityHistory plainPlatform (.arr [aliceStarts]) none = .ok outcome ∧
    outcome.canonical_subject_state = some s ∧
    normalizeAuthorityEvent plainPlatform (redelivered aliceStarts) = .ok copy ∧
    normalizeAuthorityEvent plainPlatform copy.toJson = .ok e' ∧
    (deriveCanonicalSubjectState plainPlatform (.arr ([aliceStarts] ++ [redelivered aliceStarts])) none =
      .ok (some s) ↔ Idle s e') := by
  have hok : (evaluateAuthorityHistory plainPlatform (.arr [aliceStarts]) none).map HistoryOutcome.ok =
      .ok true := by
    decide +kernel
  obtain ⟨outcome, houtcome, hok⟩ := map_eq_ok.mp hok
  obtain ⟨s, copy, e', h⟩ :=
    redelivered_changes_nothing_iff plainPlatform houtcome hok (List.mem_singleton.mpr rfl)
  exact ⟨outcome, s, copy, e', houtcome, h⟩

def aliceBindsPixel : Json :=
  signedEvent "ae_2" "sl1:id:alice" "device" "bind_device" "sl1:device:pixel" []

/-- Bound once, the device is related once; its event delivered again relates it twice. -/
theorem aliceBindsPixel_again :
    (evaluateAuthorityHistory plainPlatform (.arr [aliceBindsPixel]) none).map HistoryOutcome.ok = .ok true ∧
    deriveCanonicalSubjectState plainPlatform (.arr ([aliceBindsPixel] ++ [redelivered aliceBindsPixel])) none ≠
      deriveCanonicalSubjectState plainPlatform (.arr [aliceBindsPixel]) none := by
  refine ⟨by decide +kernel, fun h => ?_⟩
  have hrelationships := congrArg (Except.map (Option.map fun s => s.relationships.length)) h
  revert hrelationships
  decide +kernel

end SimpleL1.Subject
