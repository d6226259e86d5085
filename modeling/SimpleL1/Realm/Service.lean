import SimpleL1.Lib.Growth
import SimpleL1.Realm.Surfaces

/-!
# The realm behind its surfaces

Behind the surfaces stands a ledger, which commands reach through the callback only. Whatever comes in,
the ledger grows by events it accepted, and an event id that a response lists is the id of an event in
the log. The callback is what has to be honest; the ceremonies, the other runtimes and the execution
store pass on what it reports.
-/

namespace SimpleL1.Realm.Commands.Surfaces

open SimpleL1.Js SimpleL1.Node SimpleL1.Lib SimpleL1.Lib.Effect
open SimpleL1.Realm.Recovery

/-! ## The ledger -/

/-- The ledger accepts one event. -/
def Appends (host : Host) (ledger ledger' : Ledger) : Prop :=
  ∃ clock proposal event n,
    acceptAndApplyRealmEvent host clock ledger proposal = (.ok (.accepted event n), ledger')

/-- The ledger grows by events it accepts. -/
abbrev Grows (host : Host) : Ledger → Ledger → Prop := Relation.ReflTransGen (Appends host)

section
variable {host : Host} {ledger ledger' : Ledger}

theorem Appends.step (h : Appends host ledger ledger') : ∃ event, Step host ledger event ledger' := by
  obtain ⟨clock, proposal, event, n, hcall⟩ := h
  exact ⟨event, .accept hcall⟩

theorem Grows.reachable (h : Grows host ledger ledger') (hr : Reachable host ledger) :
    Reachable host ledger' := by
  induction h with
  | refl => exact hr
  | tail _ hstep ih =>
    obtain ⟨event, hstep⟩ := hstep.step
    exact ih.step hstep

theorem Grows.event_log (h : Grows host ledger ledger') (hr : Reachable host ledger) :
    ledger.event_log <+: ledger'.event_log := by
  induction h with
  | refl => exact List.prefix_rfl
  | tail hgrows hstep ih =>
    obtain ⟨event, hstep⟩ := hstep.step
    rw [hstep.event_log (Grows.reachable hgrows hr)]
    exact ih.trans (List.prefix_append _ _)

theorem applyEvent_error {event : Json} {e : Error} (hstores : ensureAuthorityStateStores ledger = ledger)
    (h : applyEvent ledger event = (.error e, ledger')) : ledger' = ledger := by
  unfold applyEvent applyCanonicalAuthorityProjection at h
  dsimp only at h
  rw [hstores] at h
  revert h
  cases isCanonicalRealmEvent event with
  | error _ => intro h; cases h; rfl
  | ok canonical =>
    cases canonical with
    | false => intro h; cases h
    | true =>
      dsimp only
      cases applyAuthorityEvent (ledger.current_authority_state.getD emptyAuthorityState) event with
      | error _ => intro h; cases h; rfl
      | ok next => intro h; cases h

/-- A call that does not accept its proposal leaves the ledger as it is. -/
theorem accepted_or_same (hr : Reachable host ledger) (clock : Clock) (proposal : Json) :
    (∃ event n, (acceptAndApplyRealmEvent host clock ledger proposal).1 = .ok (.accepted event n))
      ∨ (acceptAndApplyRealmEvent host clock ledger proposal).2 = ledger
        ∧ ∀ event n, (acceptAndApplyRealmEvent host clock ledger proposal).1 ≠ .ok (.accepted event n) := by
  obtain ⟨s, fs, hlive⟩ := hr.live
  unfold acceptAndApplyRealmEvent
  cases validateRealmEventProposal host clock ledger proposal with
  | error e => exact .inr ⟨rfl, nofun⟩
  | ok validation =>
    cases validation with
    | rejected codes n => exact .inr ⟨rfl, nofun⟩
    | accepted event n =>
      dsimp only
      cases happly : applyEvent ledger event with
      | mk result ledger' =>
        cases result with
        | ok _ => exact .inl ⟨event, n, rfl⟩
        | error e =>
          refine .inr ⟨?_, nofun⟩
          exact applyEvent_error hlive.stores happly

end

/-! ## What is reported -/

/-- The id is the id of an event in the log. -/
def Logged (ledger : Ledger) (id : Json) : Prop := ∃ event ∈ ledger.event_log, eventId (some event) = id

/-- What is shown as an event shows an id in the log, if it shows any. -/
def Shown (ledger : Ledger) (event : Option Json) : Prop :=
  (eventId event).truthy = true → Logged ledger (eventId event)

/-- A result shows no event that is not in the log. -/
structure Reports (ledger : Ledger) (result : Option Json) : Prop where
  event : Shown ledger (read result "event")
  acceptedEvents : ∀ {events}, read result "acceptedEvents" = some (.arr events) →
    ∀ event ∈ events, Shown ledger (some event)

section
variable {host : Host} {ledger ledger' : Ledger}

theorem Logged.lasts {id : Json} (hr : Reachable host ledger) (hgrows : Grows host ledger ledger')
    (h : Logged ledger id) : Logged ledger' id := by
  obtain ⟨event, hevent, hid⟩ := h
  exact ⟨event, (Grows.event_log hgrows hr).subset hevent, hid⟩

theorem Shown.lasts {event : Option Json} (hr : Reachable host ledger) (hgrows : Grows host ledger ledger')
    (h : Shown ledger event) : Shown ledger' event := fun hid => (h hid).lasts hr hgrows

theorem shown_none : Shown ledger none := fun h => by cases h

theorem shown_getD {event : Option Json} (h : Shown ledger event) :
    Shown ledger (some (event.getD .null)) := by
  cases event with
  | none => exact fun h => by cases h
  | some event => exact h

/-- A result without these two fields reports nothing. -/
theorem reports_nothing {result : Option Json} (hevent : read result "event" = none)
    (hevents : read result "acceptedEvents" = none) : Reports ledger result where
  event := hevent ▸ shown_none
  acceptedEvents h := by rw [hevents] at h; cases h

/-- The ids that are collected are ids of what is shown. -/
theorem Reports.logged {result : Option Json} {ids : List Json} (h : Reports ledger result)
    (hids : collectAcceptedEventIds result = .ok ids) : ∀ id ∈ ids, Logged ledger id := by
  cases result with
  | none =>
    cases hids
    exact fun id hid => absurd hid List.not_mem_nil
  | some result =>
    have hcollected : eventIdsOf result = ids := by
      cases result with
      | null => cases hids
      | _ => exact Except.ok.inj hids
    have hadded : ∀ {listed : List Json}, (∀ id ∈ listed, Logged ledger id) →
        ∀ id ∈ (if (eventId (result.prop "event")).truthy && !listed.any (fun known =>
            strictEq (some known) (some (eventId (result.prop "event"))))
          then listed ++ [eventId (result.prop "event")] else listed), Logged ledger id := by
      intro listed hlisted id hid
      split at hid
      · next hnew =>
        rcases List.mem_append.mp hid with hid | hid
        · exact hlisted id hid
        · rw [List.mem_singleton.mp hid]
          exact h.event (Bool.and_eq_true_iff.mp hnew).1
      · exact hlisted id hid
    subst hcollected
    refine hadded ?_
    split
    · next events hevents =>
      intro id hid
      obtain ⟨hmem, htruthy⟩ := List.mem_filter.mp hid
      obtain ⟨event, hevent, rfl⟩ := List.mem_map.mp hmem
      exact h.acceptedEvents hevents event hevent htruthy
    · exact fun id hid => absurd hid List.not_mem_nil

end

/-! ## The callback and what calls it -/

section
variable {σ : Type} (host : Host) (ledgerOf : σ → Ledger)

/-- The ledger behind the state grows. -/
def Forward (world world' : σ) : Prop := Grows host (ledgerOf world) (ledgerOf world')

/-- The ledger behind the state has grown by accepting. -/
def Sound (world : σ) : Prop := Reachable host (ledgerOf world)

/-- The callback accepts events and reports no others. -/
def Honest (acceptRealmEvent : Json → EStateM Error σ (Option Json)) : Prop :=
  ∀ proposal, Advances (Forward host ledgerOf) (Sound host ledgerOf) (acceptRealmEvent proposal)
    fun result world => Reports (ledgerOf world) result

instance : Std.Refl (Forward host ledgerOf) := ⟨fun _ => .refl⟩

instance : IsTrans σ (Forward host ledgerOf) := ⟨fun _ _ _ h h' => Relation.ReflTransGen.trans h h'⟩

end

section
variable {σ : Type} {host : Host} {ledgerOf : σ → Ledger}
  {acceptRealmEvent : Json → EStateM Error σ (Option Json)}

/-- Facts about the ledger that survive its growth go along with a call. -/
theorem Honest.call (h : Honest host ledgerOf acceptRealmEvent) (proposal : Json) {F : Ledger → Prop}
    (hF : ∀ {ledger ledger'}, Reachable host ledger → Grows host ledger ledger' → F ledger → F ledger') :
    Advances (Forward host ledgerOf) (fun world => Sound host ledgerOf world ∧ F (ledgerOf world))
      (acceptRealmEvent proposal)
      fun result world => Reports (ledgerOf world) result
        ∧ Sound host ledgerOf world ∧ F (ledgerOf world) := by
  have hlasting : Persistent (Forward host ledgerOf)
      fun world => Sound host ledgerOf world ∧ F (ledgerOf world) :=
    fun hforward ⟨hsound, hfact⟩ => ⟨Grows.reachable hforward hsound, hF hsound hforward hfact⟩
  exact ((h proposal).carry hlasting).weaken (fun world hworld => ⟨hworld.1, hworld⟩) fun _ _ => id

theorem reports_ceremony {ledger : Ledger} {result : CeremonyResult}
    (h : ∀ event ∈ result.acceptedEvents, Shown ledger event) :
    Reports ledger (some (ceremonyJson result)) := by
  have hshown : ∀ {events : List (Option Json)}, (∀ event ∈ events, Shown ledger event) →
      ∀ event ∈ events.map (·.getD .null), Shown ledger (some event) := by
    intro events hevents event hevent
    obtain ⟨event, hmem, rfl⟩ := List.mem_map.mp hevent
    exact shown_getD (hevents event hmem)
  cases result with
  | stopped failedProposal reason_codes events proposals =>
    exact ⟨shown_none, fun hread => by cases hread; exact hshown h⟩
  | executed events proposals => exact ⟨shown_none, fun hread => by cases hread; exact hshown h⟩

/-- The events a ceremony lists are those its calls have shown. -/
theorem acceptProposals_reports (h : Honest host ledgerOf acceptRealmEvent) (proposals rest : List Json)
    (events : List (Option Json)) :
    Advances (Forward host ledgerOf)
      (fun world => Sound host ledgerOf world ∧ ∀ event ∈ events, Shown (ledgerOf world) event)
      (acceptProposals acceptRealmEvent proposals rest events)
      fun result world => Reports (ledgerOf world) (some (ceremonyJson result)) := by
  induction rest generalizing events with
  | nil => exact advances_pure fun world hworld => reports_ceremony hworld.2
  | cons proposal rest ih =>
    unfold acceptProposals
    refine (h.call proposal (F := fun ledger => ∀ event ∈ events, Shown ledger event)
      fun hr hgrows hshown event hevent => (hshown event hevent).lasts hr hgrows).bind fun result => ?_
    refine advances_lift.bind fun ok => ?_
    refine advances_ite (fun _ => ?_) fun _ => advances_pure fun world hworld => reports_ceremony hworld.2.2.2
    refine (ih _).weaken ?_ fun _ _ => id
    rintro world ⟨-, hreports, hsound, hshown⟩
    refine ⟨hsound, fun event hevent => ?_⟩
    rcases List.mem_append.mp hevent with hevent | hevent
    · exact hshown event hevent
    · rw [List.mem_singleton.mp hevent]
      exact hreports.event

section
variable {context : Context σ} (h : Honest host ledgerOf context.acceptRealmEvent) (now : String)

include h

theorem ceremony_reports (input : Option Json) :
    Advances (Forward host ledgerOf) (Sound host ledgerOf)
      (executeRecoveryCeremony context.acceptRealmEvent now input)
      fun result world => Reports (ledgerOf world) (some (ceremonyJson result)) := by
  unfold executeRecoveryCeremony
  refine advances_lift.bind fun proposals => ?_
  exact (acceptProposals_reports h proposals proposals []).weaken
    (fun world hworld => ⟨hworld.2, fun event hevent => absurd hevent List.not_mem_nil⟩) fun _ _ => id

theorem submitDeviceEvent_reports (signedProposal : Json) :
    Advances (Forward host ledgerOf) (Sound host ledgerOf) (submitDeviceEvent context now signedProposal)
      fun result world => Reports (ledgerOf world) result := by
  unfold submitDeviceEvent
  refine advances_get.bind fun world => ?_
  cases context.ledger world with
  | none => exact advances_throw
  | some ledger =>
    dsimp only
    refine advances_lift.bind fun verification => ?_
    cases verification with
    | refused codes n => exact advances_pure fun _ _ => reports_nothing rfl rfl
    | verified n device => exact (h n.toJson).weaken (fun _ hworld => hworld.2.2) fun _ _ => id

omit h in
theorem silent_of_ite {c : Prop} [Decidable c] {v w result : Json} {p : Json → Prop}
    (h : (if c then pure v else pure w : JsM Json) = .ok result) (hv : p v) (hw : p w) : p result := by
  split at h
  · exact Except.ok.inj h ▸ hv
  · exact Except.ok.inj h ▸ hw

omit h in
/-- A recognition that is refused shows no event. -/
theorem refused_silent {input result : Json}
    (hr : prepareRecognition now host input = .ok (.refused result)) :
    result.prop "event" = none ∧ result.prop "acceptedEvents" = none := by
  unfold prepareRecognition at hr
  obtain ⟨verification, -, hr⟩ := bind_eq_ok.mp hr
  dsimp only at hr
  split at hr
  · cases Except.ok.inj hr
    cases verification <;> exact ⟨rfl, rfl⟩
  obtain ⟨policy, hpolicy, hr⟩ := bind_eq_ok.mp hr
  split at hr
  · cases Except.ok.inj hr
    unfold evaluateFederationPolicy at hpolicy
    obtain ⟨_, -, hpolicy⟩ := bind_eq_ok.mp hpolicy
    obtain ⟨_, -, hpolicy⟩ := bind_eq_ok.mp hpolicy
    obtain ⟨_, -, hpolicy⟩ := bind_eq_ok.mp hpolicy
    exact silent_of_ite (p := fun v => v.prop "event" = none ∧ v.prop "acceptedEvents" = none) hpolicy
      ⟨rfl, rfl⟩ ⟨rfl, rfl⟩
  · obtain ⟨_, -, hr⟩ := bind_eq_ok.mp hr
    cases Except.ok.inj hr

theorem recognizeRemoteRealm_reports (input : Json) :
    Advances (Forward host ledgerOf) (Sound host ledgerOf) (recognizeRemoteRealm context now input)
      fun result world => Reports (ledgerOf world) (some result) := by
  unfold recognizeRemoteRealm
  refine advances_lift.bind fun recognition => ?_
  refine advances_of_pure fun hrecognition => ?_
  cases recognition with
  | refused result =>
    obtain ⟨hevent, hevents⟩ := refused_silent now hrecognition
    exact advances_pure fun _ _ => reports_nothing hevent hevents
  | proposed proposal remoteVerification policyEvaluation =>
    dsimp only
    refine (h proposal).bind fun accepted => ?_
    refine advances_lift.bind fun ok => ?_
    have hread : ∀ (fs : Fields) (key : String), Recovery.read (some (.obj fs)) key = fs.get key :=
      fun _ _ => rfl
    refine advances_pure fun world hworld => ⟨?_, ?_⟩
    · rw [hread]
      by_cases hok : truthy ok = true
      · simpa [hok] using hworld.2.event
      · simpa [hok] using shown_none
    · intro events hevents
      rw [hread] at hevents
      by_cases hok : truthy ok = true <;> simp [hok] at hevents

theorem executeRealmCommand_reports (command : Option Json) :
    Advances (Forward host ledgerOf) (Sound host ledgerOf) (executeRealmCommand context now command)
      fun result world => Reports (ledgerOf world) result := by
  unfold executeRealmCommand
  refine advances_lift.bind fun normalized => ?_
  refine advances_of_pure fun _ => ?_
  refine advances_ite (fun _ => (ceremony_reports h now _).map) fun _ => ?_
  refine advances_ite (fun _ => submitDeviceEvent_reports h now _) fun _ => ?_
  refine advances_ite (fun _ => (recognizeRemoteRealm_reports h now _).map) fun _ => ?_
  refine advances_ite (fun _ => h _) fun _ => ?_
  exact advances_pure fun _ _ => reports_nothing rfl rfl

end

end

/-! ## The execution store -/

/-- The ids in the records are ids in the log. -/
def Recorded (ledger : Ledger) (store : ExecutionStore) : Prop :=
  ∀ {name record}, Assoc.find name store = some record →
    ∀ id ∈ record.accepted_event_ids, Logged ledger id

section
variable {σ : Type} (host : Host) (ledgerOf : σ → Ledger)

/-- The ledger grows, and the records stay true of it. -/
def ForwardBoth (st st' : σ × ExecutionStore) : Prop :=
  Forward host ledgerOf st.1 st'.1
    ∧ (Sound host ledgerOf st.1 → Recorded (ledgerOf st.1) st.2 → Recorded (ledgerOf st'.1) st'.2)

def SoundBoth (st : σ × ExecutionStore) : Prop := Sound host ledgerOf st.1 ∧ Recorded (ledgerOf st.1) st.2

instance : Std.Refl (ForwardBoth host ledgerOf) := ⟨fun _ => ⟨.refl, fun _ => id⟩⟩

instance : IsTrans (σ × ExecutionStore) (ForwardBoth host ledgerOf) where
  trans _ _ _ h h' := ⟨Relation.ReflTransGen.trans h.1 h'.1, fun hsound hrecorded =>
    h'.2 (Grows.reachable h.1 hsound) (h.2 hsound hrecorded)⟩

end

section
variable {σ : Type} {host : Host} {ledgerOf : σ → Ledger}

theorem soundBoth_lasts : Persistent (ForwardBoth host ledgerOf) (SoundBoth host ledgerOf) :=
  fun h hsound => ⟨Grows.reachable h.1 hsound.1, h.2 hsound.1 hsound.2⟩

theorem Recorded.lasts {ledger ledger' : Ledger} {store : ExecutionStore} (hr : Reachable host ledger)
    (hgrows : Grows host ledger ledger') (h : Recorded ledger store) : Recorded ledger' store :=
  fun hfind event hevent => (h hfind event hevent).lasts hr hgrows

/-- What runs beside the store leaves the records true. -/
theorem besideStore_reports {α : Type} {m : EStateM Error σ α} {Q : α → Ledger → Prop}
    (h : Advances (Forward host ledgerOf) (Sound host ledgerOf) m fun a world => Q a (ledgerOf world)) :
    Advances (ForwardBoth host ledgerOf) (SoundBoth host ledgerOf) (besideStore m)
      fun a st => Q a (ledgerOf st.1) ∧ SoundBoth host ledgerOf st := by
  have hbeside : Advances (ForwardBoth host ledgerOf) (SoundBoth host ledgerOf) (besideStore m)
      fun a st => Q a (ledgerOf st.1) := by
    rintro ⟨world, store⟩ ⟨hsound, hrecorded⟩
    obtain ⟨hforward, hq⟩ := h world hsound
    unfold besideStore after outcome at *
    dsimp only at *
    cases hrun : m world with
    | ok a world' =>
      rw [hrun] at hforward hq
      exact ⟨⟨hforward, fun _ _ => hrecorded.lasts hsound hforward⟩, hq⟩
    | error e world' =>
      rw [hrun] at hforward
      exact ⟨⟨hforward, fun _ _ => hrecorded.lasts hsound hforward⟩, fun a ha => by cases ha⟩
  exact (hbeside.carry soundBoth_lasts).weaken (fun st hst => ⟨hst, hst⟩) fun _ _ => id

theorem executeCommand_reports {context : Context σ} (h : Honest host ledgerOf context.acceptRealmEvent)
    (now : String) (command : Option Json) :
    Advances (ForwardBoth host ledgerOf) (SoundBoth host ledgerOf) (executeCommand context now command)
      fun result st => ∀ id ∈ result.accepted_event_ids, Logged (ledgerOf st.1) id := by
  have hrun := besideStore_reports (Q := fun result ledger => Reports ledger result)
    (executeRealmCommand_reports h now command)
  unfold executeCommand
  refine advances_lift.bind fun name => advances_of_pure fun _ => ?_
  refine advances_ite (fun _ => ?_) fun _ => ?_
  · refine hrun.bind fun result => ?_
    refine advances_lift.bind fun ids => advances_of_pure fun hids => ?_
    exact advances_pure fun st hst => hst.1.logged hids
  · refine advances_lift.bind fun print => advances_of_pure fun _ => ?_
    refine advances_get.bind fun st => ?_
    cases hfind : Assoc.find name st.2 with
    | some existing =>
      dsimp only
      refine advances_ite (fun _ => advances_pure fun _ _ id hid => absurd hid List.not_mem_nil) fun _ => ?_
      refine advances_pure ?_
      rintro st' ⟨rfl, -, hrecorded⟩
      exact hrecorded hfind
    | none =>
      dsimp only
      refine (hrun.weaken (fun st' (h : st = st' ∧ SoundBoth host ledgerOf st') => h.2)
        fun _ _ => id).bind fun result => ?_
      refine advances_lift.bind fun ids => advances_of_pure fun hids => ?_
      refine (advances_modify (Q := fun _ (st : σ × ExecutionStore) =>
        ∀ id ∈ ids, Logged (ledgerOf st.1) id) ?_).bind fun _ => advances_pure fun _ h => h
      rintro ⟨world, store⟩ ⟨hreports, hsound, hrecorded⟩
      have hlogged := hreports.logged hids
      refine ⟨⟨.refl, fun _ _ => ?_⟩, hlogged⟩
      intro id' record hfind' event hevent
      rw [Assoc.find_insert] at hfind'
      split at hfind'
      · cases hfind'
        exact hlogged event hevent
      · exact hrecorded hfind' event hevent

end

/-! ## Runs -/

/-- A request without a command lists nothing. -/
theorem ids_of_reading {σ : Type} {surface : Surface σ} {now : String} {st : σ × ExecutionStore}
    {request : Request} {response : Response} (hnone : request.command = none)
    (hserved : outcome (serve surface now request) st = .ok response) :
    response.execution.accepted_event_ids = .arr [] := by
  cases request with
  | api route body context =>
    unfold Request.command at hnone
    unfold serve handleApiRequest at hserved
    dsimp only at hnone hserved
    rw [outcome_map, outcome_bind, outcome_lift, after_lift] at hserved
    obtain ⟨a, ha, rfl⟩ := map_eq_ok.mp hserved
    obtain ⟨validation, hvalidation, ha⟩ := bind_eq_ok.mp ha
    rw [hvalidation] at hnone
    cases validation with
    | error refusal =>
      cases Except.ok.inj ha
      cases refusal <;> rfl
    | ok valid => cases hnone
  | admin request =>
    unfold Request.command at hnone
    unfold serve executeAdminRequest at hserved
    dsimp only at hnone hserved
    rw [outcome_map, outcome_bind, outcome_lift, after_lift] at hserved
    obtain ⟨a, ha, rfl⟩ := map_eq_ok.mp hserved
    obtain ⟨normalization, hnormal, ha⟩ := bind_eq_ok.mp ha
    rw [hnormal] at hnone
    cases normalization with
    | error refusal =>
      cases Except.ok.inj ha
      cases refusal <;> rfl
    | ok normalized =>
      dsimp only at hnone ha
      cases haction : normalized.action with
      | read action =>
        rw [haction] at ha
        dsimp only at ha
        rw [outcome_bind] at ha
        obtain ⟨readResult, -, ha⟩ := bind_eq_ok.mp ha
        cases Except.ok.inj ha
        cases readResult <;> rfl
      | mutate action =>
        rw [haction] at hnone
        cases hnone

section
variable {σ : Type} {host : Host} {ledgerOf : σ → Ledger}

theorem Honest.counted {context : Context σ} (h : Honest host ledgerOf context.acceptRealmEvent) :
    Honest host (fun st => ledgerOf st.1) context.counted.acceptRealmEvent := by
  rintro proposal ⟨world, count⟩ hsound
  obtain ⟨hforward, hreports⟩ := h proposal world hsound
  unfold Context.counted after outcome at *
  dsimp only at *
  cases hrun : context.acceptRealmEvent proposal world with
  | ok result world' =>
    rw [hrun] at hforward hreports
    exact ⟨hforward, hreports⟩
  | error e world' =>
    rw [hrun] at hforward
    exact ⟨hforward, fun a ha => by cases ha⟩

variable {surface : Surface σ} (h : Honest host ledgerOf surface.acceptRealmEvent) (requests : List Arrival)
  (world : σ)

include h

theorem surfaceAt_forward {k l : Nat} (hkl : k ≤ l)
    (hsound : SoundBoth host (fun st => ledgerOf st.1) (surfaceAt surface requests world k)) :
    ForwardBoth host (fun st => ledgerOf st.1) (surfaceAt surface requests world k)
      (surfaceAt surface requests world l) := by
  induction l, hkl using Nat.le_induction with
  | base => exact Std.Refl.refl _
  | succ l _ ih =>
    refine IsTrans.trans _ _ _ ih ?_
    cases hl : (commands requests)[l]? with
    | none =>
      rw [surfaceAt_eq, surfaceAt_eq, stateAt_succ_of_none hl]
      exact Std.Refl.refl _
    | some call =>
      have hnow := soundBoth_lasts ih hsound
      rw [surfaceAt_eq] at hnow
      rw [surfaceAt_eq, surfaceAt_eq, stateAt_succ hl]
      exact (executeCommand_reports h.counted call.1 call.2 _ hnow).1

/-- What a response lists was in the log when it was given. -/
theorem responds_logged {k : Nat} {response : Response}
    (hsound : SoundBoth host (fun st => ledgerOf st.1) (surfaceAt surface requests world k))
    (hresponds : Responds surface requests world k response) :
    ∃ ids, response.execution.accepted_event_ids = .arr ids
      ∧ ∀ id ∈ ids, Logged (ledgerOf (surfaceAt surface requests world (k + 1)).1.1) id := by
  obtain ⟨⟨clock, request⟩, hrequest, hserved⟩ := hresponds
  cases hcommand : request.command with
  | none => exact ⟨[], ids_of_reading hcommand hserved, fun id hid => absurd hid List.not_mem_nil⟩
  | some command =>
    obtain ⟨result, hresult, hexecution⟩ := execution_of_served hcommand hserved
    refine ⟨result.accepted_event_ids, ?_, ?_⟩
    · rw [hexecution]
      unfold Execution.of
      rw [result.prop_toJson.1]
      rfl
    · have hlogged := (executeCommand_reports h.counted clock (some command) _ hsound).2 result hresult
      rw [surfaceAt_eq, stateAt_succ (commands_get hrequest), hcommand, ← surfaceAt_eq]
      exact hlogged

end

/-! ## The realm's own ledger -/

theorem ledgerAccept_honest (host : Host) : Honest host Prod.fst (ledgerAccept host) := by
  rintro proposal ⟨ledger, clocks⟩ hsound
  unfold ledgerAccept after outcome Forward
  dsimp only
  have hcases := accepted_or_same hsound (clocks 0) proposal
  cases hcall : acceptAndApplyRealmEvent host (clocks 0) ledger proposal with
  | mk result ledger' =>
    rw [hcall] at hcases
    dsimp only at hcases ⊢
    rcases hcases with ⟨event, n, rfl⟩ | ⟨rfl, hrefused⟩
    · have happends : Appends host ledger ledger' := ⟨clocks 0, proposal, event, n, hcall⟩
      refine ⟨.single happends, fun a ha => ?_⟩
      cases ha
      have hlog := Step.event_log hsound (.accept hcall)
      have hevent : event ∈ ledger'.event_log := hlog ▸ List.mem_append_right _ List.mem_cons_self
      exact ⟨fun _ => ⟨event, hevent, rfl⟩, fun hread => by cases hread⟩
    · cases result with
      | error e => exact ⟨.refl, fun a ha => by cases ha⟩
      | ok validation =>
        refine ⟨.refl, fun a ha => ?_⟩
        cases ha
        cases validation with
        | accepted event n => exact absurd rfl (hrefused event n)
        | rejected codes n => exact reports_nothing rfl rfl

/-- The ledger before request number `k`. -/
def ledgerAt (surface : Surface Timed) (requests : List Arrival) (world : Timed) (k : Nat) : Ledger :=
  (surfaceAt surface requests world k).1.1.1

/-- Whatever comes in through the surfaces of a realm, its ledger grows by events it accepted and stays
what replay makes of its log, and a response lists ids of events that are in the log and stay in it. -/
theorem surfaces_report_log (surface : Surface Timed)
    (haccept : surface.acceptRealmEvent = ledgerAccept surface.host) (requests : List Arrival)
    (ledger : Ledger) (clocks : Nat → Clock) (hr : Reachable surface.host ledger) (k l : Nat) (hkl : k ≤ l) :
    Grows surface.host (ledgerAt surface requests (ledger, clocks) k)
        (ledgerAt surface requests (ledger, clocks) l)
      ∧ (∃ s, (ledgerAt surface requests (ledger, clocks) l).current_authority_state = some s
        ∧ buildCurrentAuthorityState surface.host
          (ledgerAt surface requests (ledger, clocks) l).event_log = .ok s)
      ∧ ∀ response, k < l → Responds surface requests (ledger, clocks) k response →
        ∃ ids, response.execution.accepted_event_ids = .arr ids
          ∧ ∀ id ∈ ids, Logged (ledgerAt surface requests (ledger, clocks) l) id := by
  have h : Honest surface.host Prod.fst surface.acceptRealmEvent := haccept ▸ ledgerAccept_honest _
  have hstart : SoundBoth surface.host (fun st => st.1.1) (surfaceAt surface requests (ledger, clocks) 0) :=
    ⟨hr, fun hfind => by cases hfind⟩
  have hsound := soundBoth_lasts (surfaceAt_forward h requests (ledger, clocks) k.zero_le hstart) hstart
  have hforward := surfaceAt_forward h requests (ledger, clocks) hkl hsound
  refine ⟨hforward.1, ?_, fun response hlt hresponds => ?_⟩
  · obtain ⟨s, fs, hlive⟩ := Reachable.live (Grows.reachable hforward.1 hsound.1)
    exact ⟨s, hlive.state, hlive.build⟩
  · obtain ⟨ids, hids, hlogged⟩ := responds_logged h requests (ledger, clocks) hsound hresponds
    have hnext := soundBoth_lasts
      (surfaceAt_forward h requests (ledger, clocks) (Nat.le_succ k) hsound) hsound
    have hlater := surfaceAt_forward h requests (ledger, clocks) (k := k + 1) hlt hnext
    exact ⟨ids, hids, fun id hid => (hlogged id hid).lasts hnext.1 hlater.1⟩

def plainSurface : Surface Timed where
  host := plainHost
  acceptRealmEvent := ledgerAccept plainHost
  ledger := fun world => some world.1

/-- Alice submits the creation of her root through the API. -/
def rootSubmission : Request :=
  .api (some (.str "POST /realm/events/submit"))
    (some (.obj [("command_id", .str "cmd-1"), ("payload", .obj [("proposal", .obj [
      ("envelope", .obj [("type", .str "ROOT_AUTHORITY_CREATED"), ("signer", .str "root:alice"),
        ("authority_reference", .str "root:alice"), ("sequence", .num (.int 1)),
        ("timestamp", .str "09:00")]),
      ("payload", .obj [("root_id", .str "alice")])])])])) {}

/-- The ledger accepts the submission. -/
theorem root_submission_reported :
    (∃ s, (ledgerAt plainSurface [("", rootSubmission)]
          (Ledger.empty, fun _ => ⟨"09:00", "09:00"⟩) 1).current_authority_state = some s
        ∧ buildCurrentAuthorityState plainHost (ledgerAt plainSurface [("", rootSubmission)]
          (Ledger.empty, fun _ => ⟨"09:00", "09:00"⟩) 1).event_log = .ok s)
      ∧ (ledgerAt plainSurface [("", rootSubmission)]
        (Ledger.empty, fun _ => ⟨"09:00", "09:00"⟩) 1).event_log.length = 1 :=
  ⟨(surfaces_report_log plainSurface rfl [("", rootSubmission)] Ledger.empty
    (fun _ => ⟨"09:00", "09:00"⟩) .empty 0 1 (by decide)).2.1, by decide +kernel⟩

end SimpleL1.Realm.Commands.Surfaces
