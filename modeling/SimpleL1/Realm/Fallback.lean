import SimpleL1.Realm.Snapshot

/-!
# Validation without a cached projection

The validator reads a ledger's projection in three places. The authority checks replay the
log where no projection is stored and the previous hash comes from the log in any case, but
the sequence check takes a missing projection for an empty one and expects sequence 1.
-/

namespace SimpleL1.Realm

open SimpleL1.Js

/-- The ledger with the projection of its log stored beside it. -/
def cachedLedger (eventLog : List Json) (state : AuthorityState) : Ledger where
  event_log := eventLog
  current_authority_state := some state
  realm_canonical_sequence := some state.lastSequence

def bareLedger (eventLog : List Json) : Ledger where
  event_log := eventLog
  current_authority_state := none
  realm_canonical_sequence := none

/-- `ok` and `reason_codes`; an accepted proposal has no codes. -/
def Validation.verdict : Validation → Bool × List String
  | rejected codes _ => (false, codes)
  | accepted .. => (true, [])

/-- What the ledger checks of a proposal come after. -/
def PassesContract (now : String) (proposal : Json) : Prop :=
  ∃ n, normalizeRealmEventProposal now proposal = .ok n
    ∧ validateEnvelope n.envelope ++ validatePayload n.envelope.type n.payload = []

def SameVerdict (host : Host) (clock : Clock) (eventLog : List Json) (state : AuthorityState)
    (proposal : Json) (skip : Bool) : Prop :=
  Validation.verdict <$> validateRealmEventProposal host clock (cachedLedger eventLog state) proposal skip
    = Validation.verdict <$> validateRealmEventProposal host clock (bareLedger eventLog) proposal skip

/-! ## The codes of the later checks -/

/-- A code of the sequence check; no other code of the validator begins with this letter. -/
def SequenceCode (code : String) : Prop := code.toList.head? = some 'S'

instance (code : String) : Decidable (SequenceCode code) := by unfold SequenceCode; infer_instance

def NoSequenceCode (codes : List String) : Prop := ∀ code ∈ codes, ¬ SequenceCode code

instance (codes : List String) : Decidable (NoSequenceCode codes) := by
  unfold NoSequenceCode
  infer_instance

theorem noSequenceCode_nil : NoSequenceCode [] := nofun

theorem noSequenceCode_singleton {code : String} (h : ¬ SequenceCode code) : NoSequenceCode [code] := by
  intro c hc
  rwa [List.mem_singleton.mp hc]

/-- A code is told by its first letter. -/
theorem noSequenceCode_letter {c : Char} {l : List Char} (hc : c ≠ 'S') :
    NoSequenceCode [String.ofList (c :: l)] := by
  refine noSequenceCode_singleton fun h => hc ?_
  rw [SequenceCode, String.toList_ofList] at h
  exact Option.some.inj h

theorem noSequenceCode_append {xs ys : List String} (hx : NoSequenceCode xs) (hy : NoSequenceCode ys) :
    NoSequenceCode (xs ++ ys) := fun code h => (List.mem_append.mp h).elim (hx code) (hy code)

theorem sequenceCode_mismatch (text : String) :
    SequenceCode ("SEQUENCE_MISMATCH:expected_" ++ text) := by
  simp [SequenceCode]

theorem noSequenceCode_of_ok {xs codes : List String} (h : (.ok xs : JsM (List String)) = .ok codes)
    (hxs : NoSequenceCode xs := by
      first
      | exact noSequenceCode_nil
      | exact noSequenceCode_letter (by decide)) : NoSequenceCode codes := Except.ok.inj h ▸ hxs

theorem noSequenceCode_ite {c : Prop} [Decidable c] {xs ys : List String} (hx : NoSequenceCode xs)
    (hy : NoSequenceCode ys) : NoSequenceCode (if c then xs else ys) := by
  split
  · exact hx
  · exact hy

/-- A rule that gives no code of the sequence check. -/
def Unsequenced (rule : JsM (List String)) : Prop := ∀ codes, rule = .ok codes → NoSequenceCode codes

theorem unsequenced_return {xs : List String} (hxs : NoSequenceCode xs) : Unsequenced (return xs) :=
  fun _ h => noSequenceCode_of_ok h hxs

theorem unsequenced_nil : Unsequenced (return []) := unsequenced_return noSequenceCode_nil

theorem unsequenced_letter {c : Char} {l : List Char} (hc : c ≠ 'S') :
    Unsequenced (return [String.ofList (c :: l)]) := unsequenced_return (noSequenceCode_letter hc)

theorem unsequenced_ite {c : Prop} [Decidable c] {a b : JsM (List String)} (ha : Unsequenced a)
    (hb : Unsequenced b) : Unsequenced (if c then a else b) := by
  split
  · exact ha
  · exact hb

theorem unsequenced_bind {α : Type} {x : JsM α} {f : α → JsM (List String)} (hf : ∀ a, Unsequenced (f a)) :
    Unsequenced (x >>= f) := by
  intro codes h
  obtain ⟨a, -, h⟩ := bind_eq_ok.mp h
  exact hf a codes h

section
variable {state : AuthorityState} {envelope : Envelope} {payload : Fields} {codes : List String}

theorem codes_deviceKeyIssued : Unsequenced (validateDeviceKeyIssued state envelope payload) := by
  refine unsequenced_return (noSequenceCode_ite noSequenceCode_nil ?_)
  cases state.lastRecovery with
  | none => exact noSequenceCode_letter (by decide)
  | some recovery =>
    refine noSequenceCode_ite (noSequenceCode_letter (by decide)) ?_
    refine noSequenceCode_ite (noSequenceCode_letter (by decide)) ?_
    exact noSequenceCode_ite (noSequenceCode_letter (by decide)) noSequenceCode_nil

theorem codes_deviceKeyRevoked : Unsequenced (validateDeviceKeyRevoked state envelope payload) := by
  refine unsequenced_bind fun target => ?_
  cases findDevice state target with
  | none => exact unsequenced_letter (by decide)
  | some device =>
    refine unsequenced_ite (unsequenced_letter (by decide)) ?_
    refine unsequenced_ite (unsequenced_letter (by decide)) ?_
    refine unsequenced_ite ?_ unsequenced_nil
    cases state.lastRecovery with
    | none => exact unsequenced_letter (by decide)
    | some recovery =>
      refine unsequenced_ite (unsequenced_letter (by decide)) ?_
      refine unsequenced_ite (unsequenced_letter (by decide)) ?_
      exact unsequenced_ite (unsequenced_letter (by decide)) unsequenced_nil

theorem codes_recoveryAuthorityIssued :
    Unsequenced (validateRecoveryAuthorityIssued state envelope payload) := by
  refine unsequenced_bind fun target => ?_
  cases findRecoveryAuthority state target with
  | none => exact unsequenced_nil
  | some existing =>
    exact unsequenced_return (noSequenceCode_ite (noSequenceCode_letter (by decide)) noSequenceCode_nil)

theorem codes_recoveryAuthorityRevoked :
    Unsequenced (validateRecoveryAuthorityRevoked state envelope payload) := by
  refine unsequenced_bind fun target => ?_
  cases findRecoveryAuthority state target with
  | none => exact unsequenced_letter (by decide)
  | some authority =>
    exact unsequenced_return (noSequenceCode_ite (noSequenceCode_letter (by decide)) noSequenceCode_nil)

theorem codes_recoveryExecuted : Unsequenced (validateRecoveryExecuted state payload) := by
  refine unsequenced_bind fun old => ?_
  cases findDevice state old with
  | none => exact unsequenced_letter (by decide)
  | some oldDevice =>
    refine unsequenced_ite (unsequenced_letter (by decide)) (unsequenced_bind fun new => ?_)
    cases findDevice state new with
    | none => exact unsequenced_nil
    | some replacement =>
      exact unsequenced_return (noSequenceCode_ite (noSequenceCode_letter (by decide)) noSequenceCode_nil)

/-- No transition rule speaks of the sequence. -/
theorem validateTransition_codes (t : EventType)
    (h : (realmEventRegistry t).validateTransition state envelope payload = .ok codes) :
    NoSequenceCode codes := by
  cases t with
  | rootAuthorityCreated =>
    exact unsequenced_return
      (noSequenceCode_ite (noSequenceCode_letter (by decide)) noSequenceCode_nil) codes h
  | deviceKeyIssued => exact codes_deviceKeyIssued codes h
  | deviceKeyRevoked => exact codes_deviceKeyRevoked codes h
  | recoveryAuthorityIssued => exact codes_recoveryAuthorityIssued codes h
  | recoveryAuthorityRevoked => exact codes_recoveryAuthorityRevoked codes h
  | recoveryExecuted => exact codes_recoveryExecuted codes h
  | sessionAuthorityIssued | sessionAuthorityExpired | authorityRotated
  | federationTrustEstablished | federationTrustUpdated | federationTrustRevoked =>
    exact noSequenceCode_of_ok h

theorem validateAuthorityTransition_codes
    (h : validateAuthorityTransition state envelope payload = .ok codes) : NoSequenceCode codes := by
  unfold validateAuthorityTransition at h
  split at h
  · exact noSequenceCode_of_ok h
  have hdenied : NoSequenceCode (if canAuthorityIssueEvent state envelope.signer envelope.type then []
      else ["AUTHORITY_TRANSITION_DENIED"]) := by
    split
    · exact noSequenceCode_nil
    · exact noSequenceCode_letter (by decide)
  dsimp only at h
  generalize (if canAuthorityIssueEvent state envelope.signer envelope.type then []
      else ["AUTHORITY_TRANSITION_DENIED"]) = denied at h hdenied
  split at h
  · obtain ⟨rule, hrule, h⟩ := bind_eq_ok.mp h
    exact noSequenceCode_of_ok h (noSequenceCode_append hdenied (validateTransition_codes _ hrule))
  · exact noSequenceCode_of_ok h hdenied

theorem validatePreviousEventHash_codes {ledger : Ledger} {previous : Json}
    (h : validatePreviousEventHash ledger previous = .ok codes) : NoSequenceCode codes := by
  unfold validatePreviousEventHash at h
  split at h
  · exact noSequenceCode_of_ok h
  obtain ⟨expected, -, h⟩ := bind_eq_ok.mp h
  split at h
  · exact noSequenceCode_of_ok h
  simp only [bind_eq_ok, pure_eq_ok] at h
  obtain ⟨e, -, got, -, h⟩ := h
  refine noSequenceCode_of_ok h (noSequenceCode_singleton ?_)
  simp [SequenceCode]

end

/-! ## Comparing the two ledgers -/

/-- What a normalised proposal goes through after its contract: the sequence check gives `codes`. -/
def afterSequence (host : Host) (ledger : Ledger) (n : NormalizedProposal) (codes : List String) :
    JsM (List String) := do
  if codes ≠ [] then return codes
  let previous ← validatePreviousEventHash ledger n.envelope.previous_event_hash
  if previous ≠ [] then return previous
  let state ← currentAuthorityStateForLedger host ledger
  validateAuthorityTransition state n.envelope n.payload

section
variable {host : Host} {clock : Clock} {eventLog : List Json} {state : AuthorityState}

/-- Behind the sequence check the two ledgers are one. -/
theorem afterSequence_bare (h : buildCurrentAuthorityState host eventLog = .ok state)
    (n : NormalizedProposal) (codes : List String) :
    afterSequence host (bareLedger eventLog) n codes =
      afterSequence host (cachedLedger eventLog state) n codes := by
  have hcurrent : currentAuthorityStateForLedger host (bareLedger eventLog) =
      currentAuthorityStateForLedger host (cachedLedger eventLog state) := h
  unfold afterSequence
  rw [hcurrent]
  rfl

theorem afterSequence_codes {ledger : Ledger} {n : NormalizedProposal} {codes : List String}
    (h : afterSequence host ledger n [] = .ok codes) : NoSequenceCode codes := by
  unfold afterSequence at h
  rw [if_neg (not_not_intro rfl)] at h
  obtain ⟨previous, hprevious, h⟩ := bind_eq_ok.mp h
  split at h
  · exact noSequenceCode_of_ok h (validatePreviousEventHash_codes hprevious)
  · obtain ⟨s, -, h⟩ := bind_eq_ok.mp h
    exact validateAuthorityTransition_codes h

theorem proposalReasonCodes_eq {ledger : Ledger} {n : NormalizedProposal} {skip : Bool}
    (h : validateEnvelope n.envelope ++ validatePayload n.envelope.type n.payload = []) :
    proposalReasonCodes host ledger n skip =
      afterSequence host ledger n
        (if skip then [] else validateSequence ledger n.envelope.sequence) := by
  unfold proposalReasonCodes afterSequence
  dsimp only
  rw [h, if_neg (not_not_intro rfl)]

/-- The verdict on a normalised proposal is given by its codes, as long as the accepted event
can be built. -/
def verdictOf (host : Host) (clock : Clock) (ledger : Ledger) (n : NormalizedProposal)
    (codes : List String) : JsM (Bool × List String) :=
  if codes ≠ [] then return (false, codes)
  else (fun _ => (true, [])) <$> buildAcceptedRealmEvent host clock n ledger

/-- The accepted event is built from the log alone. -/
theorem verdictOf_bare (eventLog : List Json) (state : AuthorityState) (n : NormalizedProposal)
    (codes : List String) :
    verdictOf host clock (cachedLedger eventLog state) n codes =
      verdictOf host clock (bareLedger eventLog) n codes := by
  unfold verdictOf buildAcceptedRealmEvent cachedLedger bareLedger
  rfl

theorem proposalReasonCodes_of_failed {ledger : Ledger} {n : NormalizedProposal} {skip : Bool}
    (h : validateEnvelope n.envelope ++ validatePayload n.envelope.type n.payload ≠ []) :
    proposalReasonCodes host ledger n skip =
      .ok (validateEnvelope n.envelope ++ validatePayload n.envelope.type n.payload) := by
  unfold proposalReasonCodes
  dsimp only
  rw [if_pos h]
  rfl

theorem verdict_validate (ledger : Ledger) (proposal : Json) (skip : Bool) :
    Validation.verdict <$> validateRealmEventProposal host clock ledger proposal skip = (do
      let n ← normalizeRealmEventProposal clock.now proposal
      let codes ← proposalReasonCodes host ledger n skip
      verdictOf host clock ledger n codes) := by
  unfold validateRealmEventProposal verdictOf
  cases normalizeRealmEventProposal clock.now proposal with
  | error e => rfl
  | ok n =>
    rw [ok_bind, ok_bind]
    cases proposalReasonCodes host ledger n skip with
    | error e => rfl
    | ok codes =>
      rw [ok_bind, ok_bind]
      split
      · rfl
      · cases buildAcceptedRealmEvent host clock n ledger <;> rfl

/-- The verdict on a proposal whose contract holds. -/
theorem verdict_of_passes {ledger : Ledger} {proposal : Json} {n : NormalizedProposal} {skip : Bool}
    (hn : normalizeRealmEventProposal clock.now proposal = .ok n)
    (hc : validateEnvelope n.envelope ++ validatePayload n.envelope.type n.payload = []) :
    Validation.verdict <$> validateRealmEventProposal host clock ledger proposal skip =
      afterSequence host ledger n (if skip then [] else validateSequence ledger n.envelope.sequence)
        >>= verdictOf host clock ledger n := by
  rw [verdict_validate, hn, ok_bind, proposalReasonCodes_eq hc]

theorem verdict_of_mismatch {ledger : Ledger} (n : NormalizedProposal) (code : String) :
    afterSequence host ledger n [code] >>= verdictOf host clock ledger n = .ok (false, [code]) := by
  have hne : [code] ≠ [] := List.cons_ne_nil code []
  unfold afterSequence
  rw [if_pos hne]
  show verdictOf host clock ledger n [code] = _
  unfold verdictOf
  rw [if_pos hne]
  rfl

/-- A proposal in sequence is not refused with a code of the sequence check. -/
theorem no_mismatch {ledger : Ledger} {n : NormalizedProposal} {code : String}
    (hcode : SequenceCode code) :
    afterSequence host ledger n [] >>= verdictOf host clock ledger n ≠ .ok (false, [code]) := by
  intro h
  obtain ⟨codes, hcodes, h⟩ := bind_eq_ok.mp h
  unfold verdictOf at h
  split at h
  · have heq : codes = [code] := (Prod.mk.inj (Except.ok.inj h)).2
    exact afterSequence_codes hcodes code (heq ▸ List.mem_singleton_self code) hcode
  · obtain ⟨event, -, h⟩ := map_eq_ok.mp h
    cases (Prod.mk.inj h).1

theorem nextExpectedSequence_cached (eventLog : List Json) (state : AuthorityState) :
    nextExpectedSequence (cachedLedger eventLog state) = (numOr state.lastSequence (.int 0)).succ := by
  show (numOr state.lastSequence (numOr state.lastSequence (.int 0))).succ = _
  unfold numOr
  split <;> rfl

theorem text_eq_one {x : Number} (h : x.toString = "1") : x = .int 1 := by
  have hchars : x.chars = (Number.int 1).chars := String.ofList_injective h
  cases x with
  | nan => exact absurd hchars (by decide)
  | infinity neg => cases neg <;> exact absurd hchars (by decide)
  | int n => exact Number.chars_injective rfl rfl hchars
  | dec m k => exact Number.chars_injective rfl rfl hchars

theorem next_eq_one {x : Number} (h : (numOr x (.int 0)).succ = .int 1) : x.truthy = false := by
  unfold numOr at h
  split at h
  · cases x with
    | int n =>
      have hzero : n = 0 := by
        have := Number.int.inj h
        omega
      subst hzero
      rfl
    | nan | infinity neg | dec m k => cases h
  · exact Bool.eq_false_iff.mpr ‹_›

theorem validateSequence_of_ne {ledger : Ledger} {sequence : Number}
    (h : sequence ≠ nextExpectedSequence ledger) :
    validateSequence ledger sequence = ["SEQUENCE_MISMATCH:expected_"
      ++ (nextExpectedSequence ledger).toString ++ "_got_" ++ sequence.toString] := by
  unfold validateSequence
  dsimp only
  rw [if_neg]
  simp [strictEq, h]

/-- The two ledgers give one verdict exactly where the counter stands at its start, or the
sequence check is skipped or not reached. -/
theorem sameVerdict_iff_of (h : buildCurrentAuthorityState host eventLog = .ok state)
    (proposal : Json) (skip : Bool) :
    SameVerdict host clock eventLog state proposal skip ↔
      skip = true ∨ state.lastSequence.truthy = false ∨ ¬ PassesContract clock.now proposal := by
  unfold SameVerdict
  constructor
  · intro hsame
    by_contra hcond
    rw [not_or, not_or, not_not] at hcond
    obtain ⟨hskip, htruthy, n, hn, hc⟩ := hcond
    rw [Bool.not_eq_true] at hskip
    subst hskip
    rw [verdict_of_passes hn hc, verdict_of_passes hn hc] at hsame
    simp only [Bool.false_eq_true, if_false] at hsame
    have hint : n.envelope.sequence.isInteger = true := by
      rw [List.append_eq_nil_iff] at hc
      obtain ⟨t, ht⟩ := registered_of_validatePayload hc.2
      exact ((validateEnvelope_eq_nil ht).mp hc.1).2.2.1
    have hnext : nextExpectedSequence (cachedLedger eventLog state) ≠ .int 1 := by
      rw [nextExpectedSequence_cached]
      exact fun hone => htruthy (next_eq_one hone)
    by_cases hcached : n.envelope.sequence = nextExpectedSequence (cachedLedger eventLog state)
    · have hbare : n.envelope.sequence ≠ nextExpectedSequence (bareLedger eventLog) :=
        hcached ▸ hnext
      rw [(validateSequence_eq_nil hint).mpr hcached, validateSequence_of_ne hbare,
        verdict_of_mismatch] at hsame
      refine no_mismatch ?_ hsame
      rw [String.append_assoc, String.append_assoc]
      exact sequenceCode_mismatch _
    · rw [validateSequence_of_ne hcached, verdict_of_mismatch] at hsame
      by_cases hbare : n.envelope.sequence = nextExpectedSequence (bareLedger eventLog)
      · rw [(validateSequence_eq_nil hint).mpr hbare] at hsame
        refine no_mismatch ?_ hsame.symm
        rw [String.append_assoc, String.append_assoc]
        exact sequenceCode_mismatch _
      · rw [validateSequence_of_ne hbare, verdict_of_mismatch] at hsame
        -- the two texts differ in the expected number
        have htext := (List.cons.inj (Prod.mk.inj (Except.ok.inj hsame)).2).1
        rw [String.append_left_inj, String.append_left_inj, String.append_right_inj] at htext
        exact hnext (text_eq_one htext)
  · intro hcond
    rw [verdict_validate, verdict_validate]
    cases hn : normalizeRealmEventProposal clock.now proposal with
    | error e => rw [error_bind, error_bind]
    | ok n =>
      rw [ok_bind, ok_bind]
      by_cases hc : validateEnvelope n.envelope ++ validatePayload n.envelope.type n.payload = []
      · have hsequence : (if skip then [] else
              validateSequence (cachedLedger eventLog state) n.envelope.sequence) =
            (if skip then [] else validateSequence (bareLedger eventLog) n.envelope.sequence) := by
          rcases hcond with rfl | hzero | hfails
          · rfl
          · have hnext : nextExpectedSequence (cachedLedger eventLog state) =
                nextExpectedSequence (bareLedger eventLog) := by
              rw [nextExpectedSequence_cached, numOr, hzero]
              rfl
            unfold validateSequence
            rw [hnext]
          · exact absurd ⟨n, hn, hc⟩ hfails
        rw [proposalReasonCodes_eq hc, proposalReasonCodes_eq hc, hsequence, afterSequence_bare h]
        exact congrArg _ (funext fun codes => verdictOf_bare eventLog state n codes)
      · rw [proposalReasonCodes_of_failed hc, proposalReasonCodes_of_failed hc, ok_bind, ok_bind]
        exact verdictOf_bare eventLog state n _

/-- With the projection beside the log and without it, a proposal gets the same verdict exactly
when no event has moved the counter, the sequence check is skipped, or the proposal breaks its
contract before. -/
theorem sameVerdict_iff (h : buildCurrentAuthorityState host eventLog = .ok state)
    (proposal : Json) (skip : Bool) :
    SameVerdict host clock eventLog state proposal skip ↔
      skip = true ∨ state.lastSequence.truthy = false ∨ ¬ PassesContract clock.now proposal :=
  sameVerdict_iff_of h proposal skip

end

/-- Alice trusts Bob's realm, as the second event of her log. -/
def bobTrusted : Json :=
  .obj [("envelope", .obj [("type", .str "FEDERATION_TRUST_ESTABLISHED"),
      ("signer", .str "root:alice"), ("authority_reference", .str "root:alice"),
      ("sequence", .num (.int 2)), ("timestamp", .str "2026-01-01T00:00:00.000Z")]),
    ("payload", .obj [("remote_realm_id", .str "bob")])]

/-- A realm without events. -/
theorem empty_log_same_verdict :
    SameVerdict plainHost ⟨"", ""⟩ [] emptyAuthorityState bobTrusted false ↔
      false = true ∨ emptyAuthorityState.lastSequence.truthy = false ∨ ¬ PassesContract "" bobTrusted :=
  sameVerdict_iff rfl bobTrusted false

theorem bobTrusted_passes : PassesContract "" bobTrusted :=
  ⟨_, rfl, by decide⟩

/-- Without the projection the second event of Alice's log is refused: sequence 1 is expected. -/
theorem second_event_refused :
    ¬ ∀ (host : Host) (clock : Clock) (eventLog : List Json) (state : AuthorityState)
      (proposal : Json), buildCurrentAuthorityState host eventLog = .ok state →
      SameVerdict host clock eventLog state proposal false := by
  intro hclaim
  obtain ⟨ledger, s, created, -, hlive, rfl, -⟩ := exists_alice_created plainHost
  have hsame := hclaim plainHost ⟨"", ""⟩ ledger.event_log _ bobTrusted hlive.build
  rcases (sameVerdict_iff_of hlive.build bobTrusted false).mp hsame with hskip | hzero | hfails
  · cases hskip
  · cases hzero
  · exact hfails bobTrusted_passes

end SimpleL1.Realm
