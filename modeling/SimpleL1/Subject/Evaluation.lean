import SimpleL1.Subject.CanonicalState
import SimpleL1.Lib.Runs

/-!
# Evaluating a history

What the evaluator validates is normalised already, and normalising it again only
trims its texts once more. A history is a run of one step for each of its events,
and a shorter history is evaluated as the longer one is up to there.
-/

namespace SimpleL1.Subject

open SimpleL1.Js SimpleL1.Lib

variable {p : Platform} {e e' : AuthorityEvent} {r r' : Evaluation}

/-! ## What normalising returns -/

/-- The basis says what the input says. -/
structure BasisOf (p : Platform) (input : Json) (b : AuthorityBasis) : Prop where
  input_ne : input ≠ .null
  schema_version : b.schema_version =
    Node.orElse (input.prop "schema_version") (.str AUTHORITY_EVENT_SCHEMA_VERSION)
  type : b.type = Node.orElse (input.prop "type") (.str AUTHORITY_EVENT_TYPE)
  subject : addressOrText p (input.prop "subject") = .ok b.subject
  authority_domain : loweredText p (input.prop "authority_domain") = .ok b.authority_domain
  action : loweredText p (input.prop "action") = .ok b.action
  target : loweredText p (input.prop "target") = .ok b.target
  recipient : b.recipient = normalizeSubjectAddress p (input.prop "recipient")
  capability : normalizeNullableString (input.prop "capability") = .ok b.capability
  scope : normalizeNullableString (input.prop "scope") = .ok b.scope
  expires_at : normalizeNullableString (input.prop "expires_at") = .ok b.expires_at
  proof : normalizeProof p (objectOrEmpty (input.prop "proof")) = .ok b.proof
  timestamp : normalizeNullableString (input.prop "timestamp") = .ok b.timestamp
  previous_state_reference : normalizeNullableString (input.prop "previous_state_reference") =
    .ok b.previous_state_reference
  causal_parents : textsOrEmpty (input.prop "causal_parents") = .ok b.causal_parents
  metadata : b.metadata = fieldsOrEmpty (input.prop "metadata")

theorem normalizeBasis_eq_ok {input : Json} {b : AuthorityBasis} :
    normalizeBasis p input = .ok b ↔ BasisOf p input b := by
  unfold normalizeBasis
  simp only [bind_eq_ok, Node.member_eq_ok]
  constructor
  · rintro ⟨_, ⟨hinput, rfl⟩, subject, hsubject, domain, hdomain, action, haction, target, htarget,
      capability, hcapability, scope, hscope, expires, hexpires, proof, hproof, timestamp, htimestamp,
      previous, hprevious, parents, hparents, h⟩
    cases h
    exact ⟨hinput, rfl, rfl, hsubject, hdomain, haction, htarget, rfl, hcapability, hscope, hexpires,
      hproof, htimestamp, hprevious, hparents, rfl⟩
  · intro h
    refine ⟨_, ⟨h.input_ne, rfl⟩, _, h.subject, _, h.authority_domain, _, h.action, _, h.target,
      _, h.capability, _, h.scope, _, h.expires_at, _, h.proof, _, h.timestamp,
      _, h.previous_state_reference, _, h.causal_parents, ?_⟩
    rw [← h.schema_version, ← h.type, ← h.recipient, ← h.metadata]
    rfl

theorem normalizeAuthorityEvent_eq_ok {input : Json} :
    normalizeAuthorityEvent p input = .ok e ↔ BasisOf p input e.toAuthorityBasis ∧
      e.event_id = Node.orElse (input.prop "event_id")
        (.str (authorityEventId p (.obj e.toAuthorityBasis.fields))) := by
  unfold normalizeAuthorityEvent
  rw [bind_eq_ok]
  constructor
  · rintro ⟨basis, hbasis, h⟩
    cases h
    exact ⟨normalizeBasis_eq_ok.mp hbasis, rfl⟩
  · rintro ⟨hbasis, hid⟩
    refine ⟨_, normalizeBasis_eq_ok.mpr hbasis, ?_⟩
    show Except.ok (AuthorityEvent.mk e.toAuthorityBasis (Node.orElse (input.prop "event_id") _)) = _
    rw [← hid]

/-- The parts of a normalised event that are never empty. -/
structure Normalized (e : AuthorityEvent) : Prop where
  event_id : e.event_id.truthy = true
  schema_version : e.schema_version.truthy = true
  type : e.type.truthy = true

theorem normalized_of_normalize {input : Json} (h : normalizeAuthorityEvent p input = .ok e) :
    Normalized e := by
  obtain ⟨hbasis, hid⟩ := normalizeAuthorityEvent_eq_ok.mp h
  refine ⟨?_, ?_, ?_⟩
  · rw [hid]
    exact Node.orElse_truthy (by simp [Json.truthy, authorityEventId])
  · rw [hbasis.schema_version]
    exact Node.orElse_truthy rfl
  · rw [hbasis.type]
    exact Node.orElse_truthy rfl

theorem normalized_of_mapM {history : List Json} {events : List AuthorityEvent}
    (h : history.mapM (normalizeAuthorityEvent p) = .ok events) (he : e ∈ events) : Normalized e := by
  obtain ⟨input, -, hinput⟩ := (mem_mapM h).mp he
  exact normalized_of_normalize hinput

/-! ## Normalising again -/

def AuthorityProof.again (p : Platform) (proof : AuthorityProof) : AuthorityProof where
  type := lowerTrim p proof.type
  controller := lowerTrim p proof.controller
  signature := proof.signature.filter (· ≠ "")
  legacy_event_id := proof.legacy_event_id.filter (· ≠ "")
  evidence_hash := proof.evidence_hash.filter (· ≠ "")

def AuthorityBasis.again (p : Platform) (e : AuthorityBasis) : AuthorityBasis :=
  { e with
    subject := lowerTrim p e.subject
    authority_domain := lowerTrim p e.authority_domain
    action := lowerTrim p e.action
    target := lowerTrim p e.target
    recipient := e.recipient.bind fun s => normalizeSubjectAddress p (some (.str s))
    capability := e.capability.filter (· ≠ "")
    scope := e.scope.filter (· ≠ "")
    expires_at := e.expires_at.filter (· ≠ "")
    proof := e.proof.again p
    timestamp := e.timestamp.filter (· ≠ "")
    previous_state_reference := e.previous_state_reference.filter (· ≠ "")
    causal_parents := e.causal_parents.insertionSort (keyLe · · = true) }

/-- What normalising makes of a normalised event. -/
def AuthorityEvent.again (p : Platform) (e : AuthorityEvent) : AuthorityEvent :=
  { e.toAuthorityBasis.again p with event_id := e.event_id }

@[simp] theorem loweredText_str (s : String) : loweredText p (some (.str s)) = .ok (lowerTrim p s) := by
  rw [loweredText, strOrEmpty_str]
  rfl

@[simp] theorem addressOrText_str (s : String) : addressOrText p (some (.str s)) = .ok (lowerTrim p s) := by
  unfold addressOrText normalizeSubjectAddress
  by_cases h : SUBJECT_ADDRESS_PATTERN (lowerTrim p s) = true
  · simp only [if_pos h]
    rfl
  · simp only [if_neg h]
    exact loweredText_str s

@[simp] theorem normalizeNullableString_text (s : Option String) :
    normalizeNullableString (some (nullableText s)) = .ok (s.filter (· ≠ "")) := by
  cases s with
  | none => rfl
  | some s =>
    by_cases h : s = ""
    · subst h
      rfl
    · have hfilter : (some s).filter (· ≠ "") = some s := by simp [h]
      rw [hfilter]
      show normalizeNullableString (some (.str s)) = _
      unfold normalizeNullableString
      split
      · next heq => cases heq
      · next heq => cases heq
      · next heq =>
        cases heq
        exact absurd rfl h
      · next heq =>
        cases heq
        rfl

theorem normalizeSubjectAddress_text (s : Option String) :
    normalizeSubjectAddress p (some (nullableText s)) =
      s.bind fun s => normalizeSubjectAddress p (some (.str s)) := by
  cases s <;> rfl

theorem textsOrEmpty_texts (xs : List String) :
    textsOrEmpty (some (.arr (xs.map .str))) = .ok (xs.insertionSort (keyLe · · = true)) := by
  have hmap : (xs.map Json.str).mapM Json.toStr = .ok xs := by
    induction xs with
    | nil => rfl
    | cons x xs ih => exact mapM_cons_eq_ok.mpr ⟨x, xs, by rw [Json.toStr], ih, rfl⟩
  rw [textsOrEmpty, hmap]
  rfl

theorem normalizeProof_again (proof : AuthorityProof) :
    normalizeProof p proof.toJson = .ok (proof.again p) := by
  simp [normalizeProof, AuthorityProof.toJson, AuthorityProof.again]

theorem orElse_self {v : Json} (h : v.truthy = true) (fallback : Json) :
    Node.orElse (some v) fallback = v := by
  rw [Node.orElse, or_of_truthy (by exact h)]
  rfl

theorem basisOf_again (he : Normalized e) : BasisOf p e.toJson (e.toAuthorityBasis.again p) where
  input_ne := nofun
  schema_version := (orElse_self he.schema_version _).symm
  type := (orElse_self he.type _).symm
  subject := addressOrText_str e.subject
  authority_domain := loweredText_str e.authority_domain
  action := loweredText_str e.action
  target := loweredText_str e.target
  recipient := (normalizeSubjectAddress_text e.recipient).symm
  capability := normalizeNullableString_text e.capability
  scope := normalizeNullableString_text e.scope
  expires_at := normalizeNullableString_text e.expires_at
  proof := normalizeProof_again e.proof
  timestamp := normalizeNullableString_text e.timestamp
  previous_state_reference := normalizeNullableString_text e.previous_state_reference
  causal_parents := textsOrEmpty_texts e.causal_parents
  metadata := rfl

theorem normalizeAuthorityEvent_again (he : Normalized e) :
    normalizeAuthorityEvent p e.toJson = .ok (e.again p) :=
  normalizeAuthorityEvent_eq_ok.mpr ⟨basisOf_again he, (orElse_self he.event_id _).symm⟩

/-! ## Valid events -/

/-- The event is valid where the evaluation stands, and `e'` is applied for it. -/
def Accepts (p : Platform) (r : Evaluation) (e e' : AuthorityEvent) : Prop :=
  ∃ v, validateAuthorityEvent p e.toJson (some r.knownEventIds) (some r.currentStateHash) = .ok v ∧
    v.ok = true ∧ v.event = e'

def Refused (p : Platform) (r : Evaluation) (e : AuthorityEvent) : Prop := ∀ e', ¬ Accepts p r e e'

/-- What is found wrong with the event where the evaluation stands. -/
def codesAt (p : Platform) (r : Evaluation) (e : AuthorityEvent) : List String :=
  shapeCodes p e.toAuthorityBasis
    ++ orderCodes (some r.knownEventIds) (some r.currentStateHash) e.toAuthorityBasis

theorem validateAuthorityEvent_again (he : Normalized e) :
    validateAuthorityEvent p e.toJson (some r.knownEventIds) (some r.currentStateHash) =
      .ok ⟨(codesAt p r (e.again p)).isEmpty, e.again p, (codesAt p r (e.again p)).eraseDups⟩ := by
  rw [validateAuthorityEvent, normalizeAuthorityEvent_again he]
  rfl

theorem accepts_iff (he : Normalized e) :
    Accepts p r e e' ↔ e' = e.again p ∧ codesAt p r e' = [] := by
  rw [Accepts, validateAuthorityEvent_again he]
  constructor
  · rintro ⟨v, hv, hok, rfl⟩
    cases hv
    exact ⟨rfl, List.isEmpty_iff.mp hok⟩
  · rintro ⟨rfl, hcodes⟩
    exact ⟨_, rfl, List.isEmpty_iff.mpr hcodes, rfl⟩

theorem evaluateStep_of_accepts (h : Accepts p r e e') : evaluateStep p r e = acceptEvent p r e' := by
  obtain ⟨v, hv, hok, rfl⟩ := h
  rw [evaluateStep, hv, ok_bind, hok]
  rfl

theorem evaluateStep_of_refused (he : Normalized e) (h : Refused p r e) :
    ∃ codes, codes ≠ [] ∧ evaluateStep p r e = .ok { r with reasonCodes := r.reasonCodes ++ codes } := by
  have hcodes : codesAt p r (e.again p) ≠ [] := fun hnil => h _ ((accepts_iff he).mpr ⟨rfl, hnil⟩)
  refine ⟨(codesAt p r (e.again p)).eraseDups, ?_, ?_⟩
  · obtain ⟨code, codes, hcons⟩ := List.exists_cons_of_ne_nil hcodes
    rw [hcons, List.eraseDups_cons]
    exact List.cons_ne_nil _ _
  · rw [evaluateStep, validateAuthorityEvent_again he, ok_bind,
      show (codesAt p r (e.again p)).isEmpty = false by simpa using hcodes]
    rfl

@[simp] theorem failing_eq_nil {holds : Bool} {code : String} : failing holds code = [] ↔ holds = true := by
  cases holds <;> simp [failing]

/-- A valid event has a target, and an action of its domain. -/
structure Shaped (e : AuthorityBasis) : Prop where
  target : e.target ≠ ""
  action : ∃ d a, AuthorityDomain.ofName e.authority_domain = some d ∧ Action.ofName e.action = some a ∧
    a ∈ DOMAIN_ACTIONS d

theorem shaped_of_shapeCodes {b : AuthorityBasis} (h : shapeCodes p b = []) : Shaped b := by
  simp only [shapeCodes, List.append_eq_nil_iff, failing_eq_nil] at h
  obtain ⟨⟨⟨⟨⟨⟨⟨-, haction⟩, htarget⟩, -⟩, -⟩, -⟩, -⟩, -⟩ := h
  refine ⟨of_decide_eq_true htarget, ?_⟩
  cases hd : AuthorityDomain.ofName b.authority_domain with
  | none =>
    rw [hd] at haction
    cases haction
  | some d =>
    rw [hd, failing_eq_nil, List.any_eq_true] at haction
    obtain ⟨a, ha, hname⟩ := haction
    exact ⟨d, a, rfl, Action.ofName_eq_some.mpr (of_decide_eq_true hname).symm, ha⟩

theorem orderCodes_eq_nil {known : List Json} {hash : String} {b : AuthorityBasis} :
    orderCodes (some known) (some hash) b = [] ↔ (∀ parent ∈ b.causal_parents, isKnown known parent = true) ∧
      (b.previous_state_reference = none ∨ b.previous_state_reference = some hash) := by
  simp [orderCodes]

theorem Accepts.shaped (he : Normalized e) (h : Accepts p r e e') : Shaped e'.toAuthorityBasis := by
  obtain ⟨-, hcodes⟩ := (accepts_iff he).mp h
  exact shaped_of_shapeCodes (List.append_eq_nil_iff.mp hcodes).1

/-! ## The evaluation as a run -/

/-- Where the evaluation starts. -/
def initial (p : Platform) (subject : Option String) : Evaluation :=
  ⟨emptySubjectState subject,
    "sha256:" ++ p.sha256 (Node.stableStringify (emptySubjectState subject).toJson), [], []⟩

theorem canonical_empty (subject : Option String) : Canonical p (emptySubjectState subject) :=
  ⟨rfl, rfl, fun _ => rfl, rfl, rfl, rfl, ⟨List.Pairwise.nil, fun _ h => (nomatch h), rfl⟩⟩

theorem startEvaluation_eq (subject : Option String) :
    startEvaluation p subject = .ok (initial p subject) := by
  have hcanonical := (canonical_empty (p := p) subject).canonicalSubjectState
  rw [startEvaluation, hcanonical, ok_bind, hashCanonicalSubjectState, hcanonical]
  rfl

/-- The state is canonical, and the reference kept with it is its hash. -/
structure Coherent (p : Platform) (r : Evaluation) : Prop where
  canonical : Canonical p r.currentState
  hash : hashCanonicalSubjectState p r.currentState = .ok r.currentStateHash

theorem coherent_initial (subject : Option String) : Coherent p (initial p subject) := by
  have hcanonical := canonical_empty (p := p) subject
  refine ⟨hcanonical, ?_⟩
  show hashCanonicalSubjectState p (emptySubjectState subject) = _
  rw [hashCanonicalSubjectState, hcanonical.canonicalSubjectState]
  rfl

theorem acceptEvent_eq_ok : acceptEvent p r e = .ok r' ↔ ∃ s hash,
    applyAuthorityEvent p r.currentState e = .ok s ∧ hashCanonicalSubjectState p s = .ok hash ∧
      r' = ⟨s, hash, r.knownEventIds ++ [e.event_id], r.reasonCodes⟩ := by
  rw [acceptEvent, bind_eq_ok]
  refine exists_congr fun s => ?_
  rw [bind_eq_ok, ← exists_and_left]
  refine exists_congr fun hash => and_congr_right fun _ => and_congr_right fun _ => ?_
  rw [pure_eq_ok, Except.ok.injEq, eq_comm]

theorem Coherent.step (he : Normalized e) (h : Coherent p r) (hstep : evaluateStep p r e = .ok r') :
    Coherent p r' := by
  by_cases haccepts : ∃ e', Accepts p r e e'
  · obtain ⟨e', haccepts⟩ := haccepts
    rw [evaluateStep_of_accepts haccepts] at hstep
    obtain ⟨s, hash, hs, hhash, rfl⟩ := acceptEvent_eq_ok.mp hstep
    exact ⟨canonical_applyAuthorityEvent hs, hhash⟩
  · obtain ⟨codes, -, heq⟩ := evaluateStep_of_refused he fun e' h => haccepts ⟨e', h⟩
    rw [heq] at hstep
    cases hstep
    exact ⟨h.canonical, h.hash⟩

/-- The evaluation of the events given. -/
abbrev runEvents (p : Platform) (subject : Option String) (events : List AuthorityEvent) : JsM Evaluation :=
  Runs.run (evaluateStep p) (initial p subject) events

theorem coherent_always {subject : Option String} {events : List AuthorityEvent}
    (hevents : ∀ e ∈ events, Normalized e) :
    Runs.Always (evaluateStep p) (initial p subject) events (Coherent p) :=
  Runs.invariant (coherent_initial subject) fun _ e _ he h hstep => h.step (hevents e he) hstep

theorem coherent_of_run {subject : Option String} {events : List AuthorityEvent}
    (hevents : ∀ e ∈ events, Normalized e) (hrun : runEvents p subject events = .ok r) : Coherent p r :=
  (coherent_always hevents).last hrun

theorem hash_of_canonical {s : SubjectState} (hs : Canonical p s) :
    ∃ hash, hashCanonicalSubjectState p s = .ok hash := by
  rw [hashCanonicalSubjectState, hs.canonicalSubjectState]
  exact ⟨_, rfl⟩

theorem evaluateEvents_eq {events : List Json} {subject : Option String}
    {normalized : List AuthorityEvent} (h : events.mapM (normalizeAuthorityEvent p) = .ok normalized) :
    evaluateEvents p events subject = runEvents p (selectSubject subject normalized) normalized := by
  rw [evaluateEvents, h, ok_bind, startEvaluation_eq, ok_bind]
  rfl

theorem derive_eq {events : List Json} {subject : Option String}
    {normalized : List AuthorityEvent} (h : events.mapM (normalizeAuthorityEvent p) = .ok normalized) :
    deriveCanonicalSubjectState p (.arr events) subject =
      (runEvents p (selectSubject subject normalized) normalized).map fun r => some r.currentState := by
  rw [deriveCanonicalSubjectState, evaluateAuthorityHistory, evaluateEvents_eq h]
  cases runEvents p (selectSubject subject normalized) normalized <;> rfl

theorem derive_eq_ok {events : List Json} {subject : Option String} {s : SubjectState} :
    deriveCanonicalSubjectState p (.arr events) subject = .ok (some s) ↔
      ∃ normalized r, events.mapM (normalizeAuthorityEvent p) = .ok normalized ∧
        runEvents p (selectSubject subject normalized) normalized = .ok r ∧ r.currentState = s := by
  cases h : events.mapM (normalizeAuthorityEvent p) with
  | error e =>
    rw [deriveCanonicalSubjectState, evaluateAuthorityHistory, evaluateEvents, h]
    exact ⟨fun h => (nomatch h), fun ⟨_, _, h, _⟩ => (nomatch h)⟩
  | ok normalized =>
    rw [derive_eq h]
    constructor
    · intro hs
      obtain ⟨r, hr, hs⟩ := map_eq_ok.mp hs
      exact ⟨normalized, r, rfl, hr, Option.some.inj hs⟩
    · rintro ⟨_, r, hnormalized, hr, rfl⟩
      cases hnormalized
      exact map_eq_ok.mpr ⟨r, hr, rfl⟩

/-- Evaluating the history, this is where it stands before its last event. -/
def BeforeLast (p : Platform) (history : List Json) (subject : Option String) (e : AuthorityEvent)
    (r : Evaluation) : Prop :=
  ∃ earlier start, history.mapM (normalizeAuthorityEvent p) = .ok (earlier ++ [e]) ∧
    startEvaluation p (selectSubject subject (earlier ++ [e])) = .ok start ∧
    earlier.foldlM (evaluateStep p) start = .ok r

theorem selectSubject_extends {subject : Option String} {xs ys : List AuthorityEvent} (h : xs <+: ys)
    (hne : xs ≠ []) : selectSubject subject xs = selectSubject subject ys := by
  obtain ⟨zs, rfl⟩ := h
  rw [selectSubject, selectSubject, List.head?_append_of_ne_nil _ hne]

theorem beforeLast_iff {history : List Json} {subject : Option String} :
    BeforeLast p history subject e r ↔
      ∃ earlier, history.mapM (normalizeAuthorityEvent p) = .ok (earlier ++ [e]) ∧
        runEvents p (selectSubject subject (earlier ++ [e])) earlier = .ok r := by
  constructor
  · rintro ⟨earlier, start, hnormalized, hstart, hrun⟩
    rw [startEvaluation_eq] at hstart
    cases hstart
    exact ⟨earlier, hnormalized, hrun⟩
  · rintro ⟨earlier, hnormalized, hrun⟩
    exact ⟨earlier, _, hnormalized, startEvaluation_eq _, hrun⟩

/-! ## A platform and events to run -/

/-- Collation in the order of the code units. -/
def compareTexts (a b : String) : Int := if keyLe a b then if keyLe b a then 0 else -1 else 1

theorem compareTexts_le_iff {a b : String} : compareTexts a b ≤ 0 ↔ keyLe a b = true := by
  unfold compareTexts
  split
  · split <;> simp_all
  · simp_all

theorem epoch_ne_empty : "1970-01-01T00:00:00.000Z" ≠ "" := by decide

def plainPlatform : Platform where
  toHost := .ofTable [] [] Realm.Host.no_digests
  lower s := s
  upper s := s
  nfc s := s
  parseDate _ := .int 0
  isoDate _ := "1970-01-01T00:00:00.000Z"
  lower_lower _ := rfl
  isoDate_ne_empty _ := epoch_ne_empty
  localeCompare := compareTexts
  localeCompare_total a b := by
    rw [compareTexts_le_iff, compareTexts_le_iff]
    exact lexLe_total _ _
  localeCompare_trans a b c hab hbc := by
    rw [compareTexts_le_iff] at hab hbc ⊢
    exact lexLe_trans hab hbc

/-- An event signed by its subject. -/
def signedEvent (id subject authorityDomain action target : String) (extra : Fields) : Json :=
  .obj ([("event_id", .str id), ("subject", .str subject), ("authority_domain", .str authorityDomain),
    ("action", .str action), ("target", .str target), ("timestamp", .str "2026-06-26T12:00:00Z"),
    ("proof", .obj [("type", .str "signed_intent"), ("controller", .str subject)])] ++ extra)

end SimpleL1.Subject
