import SimpleL1.Settlement.IntentCreation

/-!
# Finished intents

FULFILLED and REJECTED are final to `fulfill` and to `reject`. EXPIRED is final to `fulfill` as long
as the clock does not go back, and not to `reject`. And `fulfill` writes its state before it reads
the proof: without a proof it throws, and leaves an intent that is FULFILLED by none.
-/

namespace SimpleL1.Settlement.IntentResolution

open SimpleL1.Js SimpleL1.Lib SimpleL1.Lib.Steps

def Intent.Finished (intent : Intent) : Prop :=
  intent.state = .FULFILLED ∨ intent.state = .REJECTED ∨ intent.state = .EXPIRED

/-- The state and what is on record for it are the same. -/
def Intent.SameEnd (intent intent' : Intent) : Prop :=
  intent'.state = intent.state ∧ intent'.fulfillment = intent.fulfillment ∧ intent'.rejection = intent.rejection

/-- What is finished in `r` is so in `r'`, in the same way. -/
def StayFinished (r r' : Registry) : Prop :=
  ∀ i intent, Assoc.find i r = some intent → intent.Finished →
    ∃ intent', Assoc.find i r' = some intent' ∧ intent.SameEnd intent'

def threw {α : Type} (result : JsM α) : Bool := result.toOption.isNone

/-- The call throws. -/
def throws (p : Platform) (r : Registry) (c : Int × Call) : Bool :=
  match c.2 with
  | .createDepositIntent q amount => threw (createDepositIntent p c.1 q amount r).2
  | .createWithdrawalIntent accounts q amount external_recipient =>
    threw (createWithdrawalIntent p c.1 accounts q amount external_recipient r).2
  | .observe intent_id settlementEvent => threw (observe p c.1 intent_id settlementEvent r).2
  | .fulfill intent_id proof => threw (fulfill p c.1 intent_id proof r).2
  | .reject intent_id reason evidence => threw (reject p c.1 intent_id reason evidence r).2
  | .expireStale => false

/-- A call that throws leaves every intent that is not past its expiry as it was. -/
def LeavesOpen (p : Platform) (r : Registry) (c : Int × Call) : Prop :=
  throws p r c = true → ∀ i intent, Assoc.find i r = some intent → expired p c.1 intent = false →
    Assoc.find i (step p r c) = some intent

/-- The call rejects no expired intent, and fulfills no open one without a proof. -/
def Proper (p : Platform) (r : Registry) (c : Int × Call) : Prop :=
  match c.2 with
  | .fulfill intent_id proof => ∀ intent, Assoc.find intent_id r = some intent →
      intent.state ≠ .FULFILLED → intent.state ≠ .REJECTED → expired p c.1 intent = false →
      proof ≠ none ∧ proof ≠ some .null
  | .reject intent_id _ _ => ∀ intent, Assoc.find intent_id r = some intent → intent.state ≠ .EXPIRED
  | _ => True

/-- What is EXPIRED is past its expiry. -/
def Aged (p : Platform) (now : Int) (r : Registry) : Prop :=
  ∀ i intent, Assoc.find i r = some intent → intent.state = .EXPIRED → expired p now intent = true

variable {p : Platform} {now : Int} {r r' : Registry} {i : String} {intent old : Intent} {proof : Option Json}

/-! ## What stays -/

theorem StayFinished.refl (r : Registry) : StayFinished r r := fun _ intent h _ => ⟨intent, h, rfl, rfl, rfl⟩

theorem StayFinished.trans {r'' : Registry} (h : StayFinished r r') (h' : StayFinished r' r'') :
    StayFinished r r'' := by
  intro i intent hfind hfinished
  obtain ⟨intent', hfind', hstate, hfulfillment, hrejection⟩ := h i intent hfind hfinished
  obtain ⟨intent'', hfind'', hstate', hfulfillment', hrejection'⟩ :=
    h' i intent' hfind' (by unfold Intent.Finished; rwa [hstate])
  exact ⟨intent'', hfind'', hstate'.trans hstate, hfulfillment'.trans hfulfillment, hrejection'.trans hrejection⟩

/-- Every intent is there still, unchanged. -/
def Grows (r r' : Registry) : Prop := ∀ i intent, Assoc.find i r = some intent → Assoc.find i r' = some intent

theorem Grows.stayFinished (h : Grows r r') : StayFinished r r' :=
  fun i intent hfind _ => ⟨intent, h i intent hfind, rfl, rfl, rfl⟩

theorem grows_create (p : Platform) (now : Int) (q : Request) (r : Registry) : Grows r (q.create p now r).1 := by
  have hcreated := created p now q r
  cases hout : q.create p now r with
  | mk r' result =>
    rw [hout] at hcreated
    cases hcreated with
    | refused e => exact fun _ _ h => h
    | met hseed hfind => exact fun _ _ h => h
    | made hseed hnone hfresh hanswers =>
      intro i intent hfind
      rw [Assoc.find_insert]
      split
      · rename_i hid
        subst hid
        cases hnone.symm.trans hfind
      · exact hfind

theorem stayFinished_insert (hold : Assoc.find i r = some old) (h : old.Finished → old.SameEnd intent) :
    StayFinished r (Assoc.insert i intent r) := by
  intro j found hfind hfinished
  rw [Assoc.find_insert]
  split
  · rename_i hij
    subst hij
    cases hold.symm.trans hfind
    exact ⟨intent, rfl, h hfinished⟩
  · exact ⟨found, hfind, rfl, rfl, rfl⟩

theorem stayFinished_observe {event : Option Json} : StayFinished r (observe p now i event r).1 := by
  unfold observe
  split
  · exact .refl r
  · rename_i old hold
    dsimp only
    split
    · exact .refl r
    · refine stayFinished_insert hold fun hfinished => ⟨?_, rfl, rfl⟩
      dsimp only
      rw [if_neg]
      unfold Intent.Finished at hfinished
      rintro hpending
      rw [hpending] at hfinished
      rcases hfinished with h | h | h <;> cases h

theorem observe_of_threw {event : Option Json} (h : threw (observe p now i event r).2 = true) :
    (observe p now i event r).1 = r := by
  unfold observe at h ⊢
  split
  · rfl
  · rename_i old hold
    rw [hold] at h
    dsimp only at h ⊢
    split
    · rfl
    · rename_i hobservation
      rw [hobservation] at h
      cases h

theorem stayFinished_expireStale : StayFinished r (expireStale p now r) := by
  intro i intent hfind hfinished
  refine ⟨expire p now intent, ?_, ?_⟩
  · rw [find_expireStale, hfind]
    rfl
  · unfold expire
    rw [if_neg]
    · exact ⟨rfl, rfl, rfl⟩
    · rintro ⟨hopen | hopen, -⟩ <;> rcases hfinished with h | h | h <;> cases h.symm.trans hopen

/-! ## `fulfill` and `reject` -/

theorem fulfillmentOf_isOk : (∃ f, fulfillmentOf p now proof = .ok f) ↔ proof ≠ none ∧ proof ≠ some .null := by
  constructor
  · rintro ⟨f, h⟩
    refine ⟨?_, ?_⟩
    · rintro rfl
      cases h
    · rintro rfl
      cases h
  · rintro ⟨hnone, hnull⟩
    cases proof with
    | none => exact absurd rfl hnone
    | some v =>
      cases v with
      | null => exact absurd rfl hnull
      | _ => exact ⟨_, rfl⟩

/-- An intent that is not past its expiry is not EXPIRED. -/
theorem Aged.not_finished (haged : Aged p now r) (hold : Assoc.find i r = some old)
    (hfulfilled : old.state ≠ .FULFILLED) (hrejected : old.state ≠ .REJECTED)
    (hfresh : expired p now old = false) : ¬ old.Finished := by
  rintro (h | h | h)
  · exact hfulfilled h
  · exact hrejected h
  · rw [haged i old hold h] at hfresh
    cases hfresh

theorem fulfill_iff (haged : Aged p now r) :
    StayFinished r (fulfill p now i proof r).1 ∧ LeavesOpen p r (now, .fulfill i proof) ↔
      Proper p r (now, .fulfill i proof) := by
  unfold LeavesOpen Proper throws step
  dsimp only
  unfold fulfill
  cases hfind : Assoc.find i r with
  | none => exact ⟨fun _ intent h => (nomatch h), fun _ => ⟨.refl r, fun _ _ _ h _ => h⟩⟩
  | some old =>
    dsimp only
    by_cases hfulfilled : old.state = .FULFILLED
    · rw [if_pos hfulfilled]
      refine ⟨fun _ intent h hno => ?_, fun _ => ⟨.refl r, fun _ _ _ h _ => h⟩⟩
      cases h
      exact absurd hfulfilled hno
    rw [if_neg hfulfilled]
    by_cases hrejected : old.state = .REJECTED
    · rw [if_pos hrejected]
      refine ⟨fun _ intent h _ hno => ?_, fun _ => ⟨.refl r, fun _ _ _ h _ => h⟩⟩
      cases h
      exact absurd hrejected hno
    rw [if_neg hrejected]
    cases hexpired : expired p now old with
    | true =>
      rw [if_pos rfl]
      constructor
      · intro _ intent h _ _ hno
        cases h
        cases hexpired.symm.trans hno
      · intro _
        refine ⟨stayFinished_insert hfind fun hfinished => ⟨?_, rfl, rfl⟩, fun _ j found hj hno => ?_⟩
        · rcases hfinished with h | h | h
          · exact absurd h hfulfilled
          · exact absurd h hrejected
          · exact h.symm
        · rw [Assoc.find_insert, if_neg]
          · exact hj
          · rintro rfl
            cases hfind.symm.trans hj
            cases hexpired.symm.trans hno
    | false =>
      rw [if_neg (by decide)]
      have hopen := haged.not_finished hfind hfulfilled hrejected hexpired
      cases hproof : fulfillmentOf p now proof with
      | error e =>
        constructor
        · rintro ⟨-, hleaves⟩
          have hsame := hleaves rfl i old hfind hexpired
          rw [Assoc.find_insert, if_pos rfl] at hsame
          exact absurd (congrArg Intent.state (Option.some.inj hsame)).symm hfulfilled
        · intro hproper
          obtain ⟨f, hf⟩ := fulfillmentOf_isOk.mpr (hproper old rfl hfulfilled hrejected hexpired)
          cases hproof.symm.trans hf
      | ok f =>
        refine ⟨fun _ _ _ _ _ _ => fulfillmentOf_isOk.mp ⟨f, hproof⟩, fun _ => ⟨?_, fun h => (nomatch h)⟩⟩
        exact stayFinished_insert hfind fun hfinished => absurd hfinished hopen

theorem reject_iff {reason evidence : Option Json} :
    StayFinished r (reject p now i reason evidence r).1 ∧ LeavesOpen p r (now, .reject i reason evidence) ↔
      Proper p r (now, .reject i reason evidence) := by
  unfold LeavesOpen Proper throws step
  dsimp only
  unfold reject
  cases hfind : Assoc.find i r with
  | none => exact ⟨fun _ intent h => (nomatch h), fun _ => ⟨.refl r, fun _ _ _ h _ => h⟩⟩
  | some old =>
    dsimp only
    by_cases hfinal : old.state = .FULFILLED ∨ old.state = .REJECTED
    · rw [if_pos hfinal]
      refine ⟨fun _ intent h hexpired => ?_, fun _ => ⟨.refl r, fun _ _ _ h _ => h⟩⟩
      cases h
      rcases hfinal with h | h <;> cases h.symm.trans hexpired
    rw [if_neg hfinal]
    constructor
    · rintro ⟨hstay, -⟩ intent h hexpired
      cases h
      obtain ⟨intent', hfind', hstate, -⟩ := hstay i old hfind (.inr (.inr hexpired))
      rw [Assoc.find_insert, if_pos rfl] at hfind'
      cases hfind'
      cases hstate.trans hexpired
    · intro hproper
      refine ⟨stayFinished_insert hfind fun hfinished => ?_, fun h => (nomatch h)⟩
      rcases hfinished with h | h | h
      · exact absurd (.inl h) hfinal
      · exact absurd (.inr h) hfinal
      · exact absurd h (hproper old rfl)

/-! ## Runs -/

theorem step_iff (c : Int × Call) (haged : Aged p c.1 r) :
    StayFinished r (step p r c) ∧ LeavesOpen p r c ↔ Proper p r c := by
  obtain ⟨now, call⟩ := c
  cases call with
  | createDepositIntent q amount =>
    have hgrows := grows_create p now (.deposit q amount) r
    exact ⟨fun _ => trivial, fun _ => ⟨hgrows.stayFinished, fun _ i intent h _ => hgrows i intent h⟩⟩
  | createWithdrawalIntent accounts q amount external_recipient =>
    have hgrows := grows_create p now (.withdrawal accounts q amount external_recipient) r
    exact ⟨fun _ => trivial, fun _ => ⟨hgrows.stayFinished, fun _ i intent h _ => hgrows i intent h⟩⟩
  | observe intent_id settlementEvent =>
    refine ⟨fun _ => trivial, fun _ => ⟨stayFinished_observe, fun hthrows i intent h _ => ?_⟩⟩
    show Assoc.find i (observe p now intent_id settlementEvent r).1 = _
    rw [observe_of_threw hthrows]
    exact h
  | fulfill intent_id proof => exact fulfill_iff haged
  | reject intent_id reason evidence => exact reject_iff
  | expireStale => exact ⟨fun _ => trivial, fun _ => ⟨stayFinished_expireStale, fun h => (nomatch h)⟩⟩

theorem timeClip_cases (n : Number) : Node.timeClip n = .nan ∨ ∃ t, Node.timeClip n = .int t := by
  unfold Node.timeClip
  split
  · split
    · exact .inr ⟨_, rfl⟩
    · exact .inl rfl
  · split
    · exact .inr ⟨_, rfl⟩
    · exact .inl rfl
  · exact .inl rfl

theorem expired_mono {now' : Int} (hle : now ≤ now') (h : expired p now intent = true) :
    expired p now' intent = true := by
  unfold expired at h ⊢
  rcases timeClip_cases (p.parseDate intent.expires_at) with hdate | ⟨t, hdate⟩
  · rw [hdate] at h
    cases h
  · rw [hdate] at h ⊢
    have hlt : t * 10 ^ 0 < now * 10 ^ 0 := of_decide_eq_true h
    exact decide_eq_true (show t * 10 ^ 0 < now' * 10 ^ 0 by omega)

theorem aged_insert (haged : Aged p now r) (h : intent.state = .EXPIRED → expired p now intent = true) :
    Aged p now (Assoc.insert i intent r) := by
  intro j found hfind
  rw [Assoc.find_insert] at hfind
  split at hfind
  · cases hfind
    exact h
  · exact haged j found hfind

theorem aged_create {now' : Int} (q : Request) (haged : Aged p now' r) : Aged p now' (q.create p now r).1 := by
  have hcreated := created p now q r
  cases hout : q.create p now r with
  | mk r' result =>
    rw [hout] at hcreated
    cases hcreated with
    | refused e => exact haged
    | met hseed hfind => exact haged
    | made hseed hnone hfresh hanswers =>
      refine aged_insert haged fun h => ?_
      rw [hfresh.1] at h
      cases h

/-- What a call makes EXPIRED is past its expiry then, and so ever after. -/
theorem aged_step {now' : Int} (c : Int × Call) (hle : c.1 ≤ now') (haged : Aged p now' r) :
    Aged p now' (step p r c) := by
  obtain ⟨now, call⟩ := c
  cases call with
  | createDepositIntent q amount => exact aged_create (.deposit q amount) haged
  | createWithdrawalIntent accounts q amount external_recipient =>
    exact aged_create (.withdrawal accounts q amount external_recipient) haged
  | observe intent_id settlementEvent =>
    show Aged p now' (observe p now intent_id settlementEvent r).1
    unfold observe
    split
    · exact haged
    · rename_i old hold
      dsimp only
      split
      · exact haged
      · refine aged_insert haged fun h => ?_
        dsimp only at h
        split at h
        · cases h
        · exact haged intent_id old hold h
  | fulfill intent_id proof =>
    show Aged p now' (fulfill p now intent_id proof r).1
    unfold fulfill
    split
    · exact haged
    · rename_i old hold
      split
      · exact haged
      · split
        · exact haged
        · split
          · rename_i hexpired
            have hlater : expired p now' old = true := expired_mono hle hexpired
            exact aged_insert haged fun _ => hlater
          · split
            · exact aged_insert haged fun h => (nomatch h)
            · exact aged_insert haged fun h => (nomatch h)
  | reject intent_id reason evidence =>
    show Aged p now' (reject p now intent_id reason evidence r).1
    unfold reject
    split
    · exact haged
    · split
      · exact haged
      · exact aged_insert haged fun h => (nomatch h)
  | expireStale =>
    intro i intent hfind
    change Assoc.find i (expireStale p now r) = some intent at hfind
    rw [find_expireStale] at hfind
    obtain ⟨old, hold, rfl⟩ := Option.map_eq_some_iff.mp hfind
    unfold expire
    split
    · rename_i hstale
      have hlater : expired p now' old = true := expired_mono hle hstale.2
      exact fun _ => hlater
    · exact haged i old hold

theorem every_step_iff {calls : List (Int × Call)} (hclock : calls.Pairwise fun a b => a.1 ≤ b.1)
    (haged : ∀ c ∈ calls, Aged p c.1 r) :
    EveryStep (step p) (fun r c => StayFinished r (step p r c) ∧ LeavesOpen p r c) r calls ↔
      EveryStep (step p) (Proper p) r calls := by
  induction calls generalizing r with
  | nil => exact Iff.rfl
  | cons c calls ih =>
    obtain ⟨hfirst, hclock⟩ := List.pairwise_cons.mp hclock
    unfold EveryStep
    rw [step_iff c (haged c List.mem_cons_self), ih hclock fun c' hc' =>
      aged_step c (hfirst c' hc') (haged c' (List.mem_cons_of_mem _ hc'))]

/-- Finished intents stay as they are, and calls that throw leave the open ones, just when every call
of the run is proper. -/
theorem finished_stay_iff (p : Platform) (calls : List (Int × Call))
    (hclock : calls.Pairwise fun a b => a.1 ≤ b.1) :
    Onward (step p) StayFinished [] calls ∧ EveryStep (step p) (LeavesOpen p) [] calls ↔
      EveryStep (step p) (Proper p) [] calls := by
  rw [onward_iff StayFinished.refl (fun _ _ _ => StayFinished.trans), everyStep_and]
  exact every_step_iff hclock fun _ _ _ _ h => nomatch h

section Example

/-- The intents of the two deposits are fulfilled, and stay so. -/
theorem oneTransferTwice_stays :
    Onward (step plain) StayFinished [] oneTransferTwice ∧
      EveryStep (step plain) (LeavesOpen plain) [] oneTransferTwice := by
  refine (finished_stay_iff plain oneTransferTwice (by simp [oneTransferTwice])).mpr ?_
  exact ⟨trivial, trivial, fun _ _ _ _ _ => ⟨nofun, nofun⟩, fun _ _ _ _ _ => ⟨nofun, nofun⟩, trivial⟩

/-- Intents expire after a day. -/
def oneDay : Platform where
  toPlatform := { GovernanceEngine.plainPlatform with parseDate := fun _ => .int INTENT_TTL_MS }
  getAddress _ := none

/-- An expired deposit is rejected, a minute after it was found expired. -/
def rejectedLate : List (Int × Call) :=
  [(0, depositOf "USDC"), (INTENT_TTL_MS + 1, .expireStale), (INTENT_TTL_MS + 60000, rejection)]

/-- A deposit is fulfilled without a proof. -/
def fulfilledByNone : List (Int × Call) :=
  [(0, depositOf "USDC"), (0, .fulfill "~sl1e_alice:key:base:USDC:0" none)]

theorem expired_rejected_and_open_lost :
    (¬ ∀ p calls, List.Pairwise (fun a b => a.1 ≤ b.1) calls → Onward (step p) StayFinished [] calls) ∧
      ¬ ∀ p calls, List.Pairwise (fun a b => a.1 ≤ b.1) calls →
        EveryStep (step p) (LeavesOpen p) [] calls := by
  constructor
  · intro h
    have hrun := h oneDay rejectedLate (by simp [rejectedLate, INTENT_TTL_MS])
    obtain ⟨intent', hfind, hstate, -⟩ := hrun [(0, depositOf "USDC"), (INTENT_TTL_MS + 1, .expireStale)]
      [(INTENT_TTL_MS + 60000, rejection)] List.prefix_rfl "~sl1e_alice:key:base:USDC:0" _ rfl (.inr (.inr rfl))
    cases hfind
    cases hstate
  · intro h
    obtain ⟨-, hfulfill, -⟩ := h plain fulfilledByNone (by simp [fulfilledByNone])
    cases hfulfill rfl "~sl1e_alice:key:base:USDC:0" _ rfl rfl

end Example

end SimpleL1.Settlement.IntentResolution
