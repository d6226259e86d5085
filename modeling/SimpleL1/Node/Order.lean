import SimpleL1.Lib.Reorder
import SimpleL1.Node.Gossip

/-!
# The order of gossip

Two nodes that start from one ledger and end with the same events have taken
them in two orders. They hold the same state when every two events that stand in
opposite orders touch different cells, and no refused event left anything behind.
-/

namespace SimpleL1.Node

open SimpleL1.Js SimpleL1.Lib SimpleL1.Lib.Effect

/-! ## The cells an event carries from node to node -/

/-- Everything but the log, the root and the files around it. -/
@[simp] def Cell.carried : Cell → Bool
  | account _ | store _ | keys _ | projection | governance | deposits => true
  | log | root | birthday | disk => false

def carried : Set Cell := { c | c.carried = true }

@[simp] theorem mem_carried (c : Cell) : c ∈ carried ↔ c.carried = true := Iff.rfl

/-- An event that is no realm event touches the cells of its handler, if it has one. -/
def touched (p : Platform) (event : Json) : Set Cell :=
  match ledgerEventType event with
  | some t => footprint p event t
  | none => ∅

def NonRealm (event : Json) : Prop := Realm.isCanonicalRealmEvent event ≠ .ok true

section
variable {p : Platform} {config : RealmConfig} {ledger l l' : Ledger} {event : Json}

theorem local_handle_nonRealm (h : NonRealm event) : LocalTo (touched p event) (handleEvent p event) := by
  unfold touched handleEvent
  cases ledgerEventType event with
  | some t => exact local_applyTyped p event t
  | none =>
    refine Local.lift_bind fun canonical hcanonical => ?_
    cases canonical with
    | true => exact absurd hcanonical h
    | false => exact .of_pure _

theorem touched_subset_carried : touched p event ⊆ carried := by
  intro c hc
  unfold touched at hc
  cases htype : ledgerEventType event with
  | none => rw [htype] at hc; cases hc
  | some t =>
    rw [htype] at hc
    cases c with
    | account _ | store _ | keys _ | projection | governance | deposits => rfl
    | log | root | birthday | disk => cases t <;> simp [footprint, entityCells] at hc

theorem handle_related (h : NonRealm event) (hag : Agree view carried l l') :
    Agree view carried (after (handleEvent p event) l) (after (handleEvent p event) l') :=
  ((local_handle_nonRealm h).mono touched_subset_carried).agree l l' hag

/-- The commit of an event writes the log, the root and the files. -/
theorem agree_commit (hrole : config.role = .primary) :
    Agree view carried (after (commitEvent p config event) ledger) ledger := by
  have hroot : calculateStateRoot p (ledger.append event) = calculateStateRoot p ledger := rfl
  intro c hc
  unfold commitEvent updateStateRoot saveLedger
  simp only [outcome_bind, after_bind, outcome_lift, after_lift, assertWritable_primary hrole,
    outcome_modify, after_modify, outcome_reading, after_reading, hroot]
  cases calculateStateRoot p ledger <;> cases c <;> first | rfl | cases hc

theorem agree_handle_born_carried :
    Agree view carried (after (handleEvent p event) (ledger.born event))
      (after (handleEvent p event) ledger) :=
  ((local_handleEvent_birthday.agree _ _ (agree_born event)).mono fun c hc heq => by
    rw [show c = .birthday from heq] at hc
    cases hc).symm

theorem event_log_commit (hrole : config.role = .primary) :
    (after (commitEvent p config event) ledger).event_log = ledger.event_log ++ [event] := by
  have hroot : calculateStateRoot p (ledger.append event) = calculateStateRoot p ledger := rfl
  unfold commitEvent updateStateRoot saveLedger
  simp only [outcome_bind, after_bind, outcome_lift, after_lift, assertWritable_primary hrole,
    outcome_modify, after_modify, outcome_reading, after_reading, hroot]
  cases calculateStateRoot p ledger <;> rfl

/-- A primary node does what the handler says, and appends the event. -/
theorem applyEvent_taken (hrole : config.role = .primary) (hlog : logLine event = .ok ())
    (hverdict : verdict p ledger event = .ok ()) :
    Agree view carried (after (applyEvent p config event) ledger) (after (handleEvent p event) ledger)
      ∧ (after (applyEvent p config event) ledger).event_log = ledger.event_log ++ [event] := by
  rw [after_applyEvent p ledger event config hlog, hverdict]
  dsimp only
  rw [event_log_commit hrole, event_log_handle_born]
  exact ⟨(agree_commit hrole).trans agree_handle_born_carried, rfl⟩

/-- A `GENESIS` event that is refused has not come to the deposits. -/
theorem deposits_refused {e : Error} (h : verdict p ledger event = .error e) :
    (after (handleEvent p event) ledger).btc_deposits = ledger.btc_deposits := by
  have hframe := (local_handleEvent p event).frame ledger .deposits
  unfold handleEvent eventFootprint at *
  unfold verdict at h
  cases htype : ledgerEventType event with
  | none =>
    rw [htype] at hframe
    exact hframe nofun
  | some t =>
    rw [htype] at hframe h
    cases t with
    | genesis =>
      show (after (applyGenesis p event) ledger).btc_deposits = _
      have houtcome : outcome (applyGenesis p event) ledger = .error e :=
        (outcome_applyGenesis p ledger event).trans h
      unfold applyGenesis at houtcome ⊢
      cases hgenesis : genesisOf p event with
      | error e => simp [after_bind]
      | ok genesis =>
        simp only [outcome_bind, after_bind, outcome_lift, after_lift, hgenesis, ok_bind,
          outcome_writeAccount, after_writeAccount, after_bindGenesis] at houtcome ⊢
        cases hbind : outcome (bindGenesis p event genesis)
            (ledger.setAccount genesis.entityAddress genesis.account) with
        | error e => rfl
        | ok _ => rw [hbind] at houtcome; cases houtcome
    | _ => exact hframe (by simp [footprint, entityCells])

/-! ## One broadcast -/

/-- The event is no realm event, its id can be recognised, and the node takes the event or would
write nothing new for it. -/
structure Clean (p : Platform) (config : RealmConfig) (ledger : Ledger) (event : Json) : Prop where
  nonRealm : NonRealm event
  known : strictEq (event.prop "id") (event.prop "id") = true
  refused : logLine event = .ok () →
    (config.role = .primary ∧ verdict p ledger event = .ok ()) ∨ AlreadyThere p ledger event

/-- What gossip has to make the same: the deposits are a record of the node. -/
def shared : Set Cell := carried \ {.deposits}

theorem shared_subset_carried : shared ⊆ carried := Set.sdiff_subset

theorem governance_handle_born :
    (after (handleEvent p event) (ledger.born event)).governance = ledger.governance :=
  ((local_handleEvent p event).frame _ .governance (not_mem_eventFootprint p event rfl)).trans
    (agree_born event .governance nofun).symm

/-- The handler finds everything there already. -/
theorem agree_handle_there (hthere : AlreadyThere p ledger event) :
    Agree view shared (after (handleEvent p event) (ledger.born event)) ledger := by
  have hcore := unchanged_handle_born.mpr hthere
  rintro c ⟨hc, hdeposits⟩
  cases c with
  | governance => exact governance_handle_born
  | deposits => exact absurd rfl hdeposits
  | account _ | store _ | keys _ | projection => exact (hcore _ rfl).symm
  | log | root | birthday | disk => cases hc

theorem applyEvent_refused (config : RealmConfig) {e : Error} (hlog : logLine event = .ok ())
    (hverdict : verdict p ledger event = .error e) (hthere : AlreadyThere p ledger event) :
    Agree view carried (after (applyEvent p config event) ledger) ledger
      ∧ (after (applyEvent p config event) ledger).event_log = ledger.event_log := by
  rw [after_applyEvent p ledger event config hlog, hverdict]
  refine ⟨fun c hc => ?_, event_log_handle_born⟩
  by_cases hdeposits : c = .deposits
  · subst hdeposits
    exact (agree_handle_born_carried .deposits rfl).trans (deposits_refused hverdict)
  · exact agree_handle_there hthere c ⟨hc, hdeposits⟩

theorem applyEvent_standby (hrole : config.role = .standby) (hlog : logLine event = .ok ())
    (hthere : AlreadyThere p ledger event) :
    Agree view shared (after (applyEvent p config event) ledger) ledger
      ∧ (after (applyEvent p config event) ledger).event_log = ledger.event_log := by
  have hafter : after (applyEvent p config event) ledger =
      after (handleEvent p event) (ledger.born event) := by
    rw [after_applyEvent p ledger event config hlog]
    cases verdict p ledger event with
    | error e => rfl
    | ok _ => exact after_of_error (commitEvent_standby p _ event hrole)
  rw [hafter]
  exact ⟨agree_handle_there hthere, event_log_handle_born⟩

theorem applyEvent_unlogged {replay : Bool} {e : Error} (hlog : logLine event = .error e) :
    after (applyEvent p config event replay) ledger = ledger := by
  unfold applyEvent
  simp [after_bind, hlog]

theorem member_some {v : Json} {k : String} {x : Option Json} (h : member (some v) k = .ok x) :
    x = v.prop k := by
  cases v <;> cases h <;> rfl

/-- An event the node does not know is not in its log. -/
theorem not_mem_of_unknown {log : List Json} (hid : strictEq (event.prop "id") (event.prop "id"))
    (h : isKnown (some event) log = .ok false) : event ∉ log := by
  induction log with
  | nil => exact List.not_mem_nil
  | cons e log ih =>
    unfold isKnown at h
    obtain ⟨known, hknown, h⟩ := bind_eq_ok.mp h
    obtain ⟨id, hmem, h⟩ := bind_eq_ok.mp h
    split at h
    · cases h
    · next hne =>
      rw [List.mem_cons, not_or]
      refine ⟨?_, ih h⟩
      rintro rfl
      rw [member_some hknown, member_some hmem] at hne
      exact hne hid

theorem not_mem_of_broadcast {body : Option Json}
    (h : broadcastEvent body ledger = .ok (some event))
    (hid : strictEq (event.prop "id") (event.prop "id")) : event ∉ ledger.event_log := by
  unfold broadcastEvent at h
  obtain ⟨type, -, h⟩ := bind_eq_ok.mp h
  obtain ⟨text, -, h⟩ := bind_eq_ok.mp h
  split at h
  · cases h
  · obtain ⟨known, hknown, h⟩ := bind_eq_ok.mp h
    cases known with
    | true => cases h
    | false =>
      cases hdata : optional body "data" with
      | none => rw [hdata] at h; cases h
      | some data =>
        rw [hdata] at h hknown
        cases h
        exact not_mem_of_unknown hid hknown

/-- What a broadcast comes to: nothing, or one new event on a primary node. -/
inductive Received (p : Platform) (config : RealmConfig) (l l' : Ledger) : Prop where
  | kept : l'.event_log = l.event_log → Agree view shared l' l →
      (config.role = .primary → Agree view carried l' l) → Received p config l l'
  | taken {event : Json} : config.role = .primary → NonRealm event → event ∉ l.event_log →
      l'.event_log = l.event_log ++ [event] →
      Agree view carried l' (after (handleEvent p event) l) → Received p config l l'

theorem received_of_eq (h : l' = ledger) : Received p config ledger l' := by
  subst h
  exact .kept rfl agree_refl fun _ => agree_refl

theorem received_applyEvent (hclean : Clean p config ledger event) (hnew : event ∉ ledger.event_log) :
    Received p config ledger (after (applyEvent p config event) ledger) := by
  cases hlog : logLine event with
  | error e => exact received_of_eq (applyEvent_unlogged hlog)
  | ok _ =>
    rcases hclean.refused hlog with ⟨hrole, hverdict⟩ | hthere
    · obtain ⟨hstate, happended⟩ := applyEvent_taken hrole hlog hverdict
      exact .taken hrole hclean.nonRealm hnew happended hstate
    · cases hrole : config.role with
      | standby =>
        obtain ⟨hstate, hkept⟩ := applyEvent_standby hrole hlog hthere
        exact .kept hkept hstate fun h => absurd (hrole.symm.trans h) nofun
      | primary =>
        cases hverdict : verdict p ledger event with
        | error e =>
          obtain ⟨hstate, hkept⟩ := applyEvent_refused config hlog hverdict hthere
          exact .kept hkept (hstate.mono shared_subset_carried) fun _ => hstate
        | ok _ =>
          obtain ⟨hstate, happended⟩ := applyEvent_taken hrole hlog hverdict
          exact .taken hrole hclean.nonRealm hnew happended hstate

theorem after_receive (body : Option Json) :
    after (receiveBroadcast p config body) ledger =
      match broadcastEvent body ledger with
      | .ok (some event) => after (applyEvent p config event) ledger
      | _ => ledger := by
  simp only [receiveBroadcast, after_bind, outcome_reading, after_reading]
  cases broadcastEvent body ledger with
  | error e => rfl
  | ok event => cases event <;> rfl

theorem received_broadcast {body : Option Json}
    (hclean : ∀ event, broadcastEvent body ledger = .ok (some event) → Clean p config ledger event) :
    Received p config ledger (after (receiveBroadcast p config body) ledger) := by
  rw [after_receive]
  cases hbody : broadcastEvent body ledger with
  | error e => exact received_of_eq rfl
  | ok applied =>
    cases applied with
    | none => exact received_of_eq rfl
    | some event =>
      have hevent := hclean event hbody
      exact received_applyEvent hevent (not_mem_of_broadcast hbody hevent.known)

end

/-! ## Every run -/

/-- The ledgers of a node that starts from `l₀` and receives broadcasts of events that `ok` admits,
in any order, with repeats and losses. -/
inductive GossipRun (p : Platform) (config : RealmConfig) (ok : Ledger → Json → Prop) (l₀ : Ledger) :
    Ledger → Prop where
  | start : GossipRun p config ok l₀ l₀
  | receive {l : Ledger} {body : Option Json} : GossipRun p config ok l₀ l →
      (∀ event, broadcastEvent body l = .ok (some event) → ok l event) →
      GossipRun p config ok l₀ (after (receiveBroadcast p config body) l)

/-- The ledger the handler of an event leaves. -/
def handled (p : Platform) (ledger : Ledger) (event : Json) : Ledger := after (handleEvent p event) ledger

/-- The ledger `l` is what the handlers of `events` make of `l₀`, in the cells of `C`. -/
structure Took (p : Platform) (C : Set Cell) (l₀ l : Ledger) (events : List Json) : Prop where
  log : l.event_log = l₀.event_log ++ events
  nodup : events.Nodup
  fresh : ∀ event ∈ events, event ∉ l₀.event_log
  nonRealm : ∀ event ∈ events, NonRealm event
  state : Agree view C l (events.foldl (handled p) l₀)

section
variable {p : Platform} {config : RealmConfig} {l₀ l l' : Ledger} {events : List Json}

theorem Took.mono {C D : Set Cell} (h : Took p D l₀ l events) (hsub : C ⊆ D) :
    Took p C l₀ l events :=
  { h with state := h.state.mono hsub }

theorem Took.kept {C : Set Cell} (h : Took p C l₀ l events) (hlog : l'.event_log = l.event_log)
    (hstate : Agree view C l' l) : Took p C l₀ l' events :=
  { h with log := hlog.trans h.log, state := hstate.trans h.state }

theorem Took.snoc {event : Json} (h : Took p carried l₀ l events) (hevent : NonRealm event)
    (hnew : event ∉ l.event_log) (hlog : l'.event_log = l.event_log ++ [event])
    (hstate : Agree view carried l' (after (handleEvent p event) l)) :
    Took p carried l₀ l' (events ++ [event]) := by
  rw [h.log, List.mem_append, not_or] at hnew
  constructor
  · rw [hlog, h.log, List.append_assoc]
  · exact h.nodup.append (List.nodup_singleton event) (by simpa using hnew.2)
  · intro e he
    rcases List.mem_append.mp he with he | he
    · exact h.fresh e he
    · rw [List.mem_singleton.mp he]
      exact hnew.1
  · intro e he
    rcases List.mem_append.mp he with he | he
    · exact h.nonRealm e he
    · rw [List.mem_singleton.mp he]
      exact hevent
  · rw [List.foldl_append]
    exact hstate.trans (handle_related hevent h.state)

/-- A node that receives clean broadcasts does what the handlers of its new events do. -/
theorem took_of_gossip (h : GossipRun p config (Clean p config) l₀ l) :
    ∃ events, Took p shared l₀ l events := by
  cases hrole : config.role with
  | primary =>
    suffices ∃ events, Took p carried l₀ l events from
      this.imp fun _ h => h.mono shared_subset_carried
    induction h with
    | start => exact ⟨[], by simp, .nil, nofun, nofun, agree_refl⟩
    | receive _ hclean ih =>
      obtain ⟨events, ih⟩ := ih
      cases received_broadcast hclean with
      | kept hlog _ hstate => exact ⟨events, ih.kept hlog (hstate hrole)⟩
      | taken _ hevent hnew hlog hstate => exact ⟨_, ih.snoc hevent hnew hlog hstate⟩
  | standby =>
    refine ⟨[], ?_⟩
    induction h with
    | start => exact ⟨by simp, .nil, nofun, nofun, agree_refl⟩
    | receive _ hclean ih =>
      cases received_broadcast hclean with
      | kept hlog hstate _ => exact ih.kept hlog hstate
      | taken h => rw [hrole] at h; cases h

end

/-! ## Two nodes -/

/-- The nodes hold the same accounts, bindings, grants, revocations and authorizations, and compute
the same state root. -/
structure SameState (p : Platform) (A B : Ledger) : Prop where
  accounts : ∀ a, A.account a = B.account a
  controller_bindings : A.stores .controller_bindings = B.stores .controller_bindings
  control_grants : A.stores .control_grants = B.stores .control_grants
  capability_grants : A.stores .capability_grants = B.stores .capability_grants
  revocations : A.stores .revocations = B.stores .revocations
  authorizations : A.stores .authorizations = B.stores .authorizations
  root : calculateStateRoot p A = calculateStateRoot p B

section
variable {p : Platform} {l₀ A B : Ledger}

/-- The state root reads the accounts in the order of their addresses. -/
theorem calculateStateRoot_congr (haccounts : ∀ a, A.account a = B.account a)
    (hgovernance : A.governance = B.governance) : calculateStateRoot p A = calculateStateRoot p B := by
  unfold calculateStateRoot stateText
  rw [sortFields_perm (OrderedMap.perm_of_find_eq haccounts) A.accounts.nodup, hgovernance]

theorem sameState_of_agree (h : Agree view shared A B) : SameState p A B where
  accounts a := h (.account a) ⟨rfl, nofun⟩
  controller_bindings := h (.store .controller_bindings) ⟨rfl, nofun⟩
  control_grants := h (.store .control_grants) ⟨rfl, nofun⟩
  capability_grants := h (.store .capability_grants) ⟨rfl, nofun⟩
  revocations := h (.store .revocations) ⟨rfl, nofun⟩
  authorizations := h (.store .authorizations) ⟨rfl, nofun⟩
  root := calculateStateRoot_congr (fun a => h (.account a) ⟨rfl, nofun⟩)
    (h .governance ⟨rfl, nofun⟩)

theorem equivalence_agree (C : Set Cell) : Equivalence (Agree view C) :=
  ⟨fun _ => agree_refl, .symm, .trans⟩

/-- The events the nodes took are the same ones, in two orders. -/
theorem Took.perm {xs ys : List Json} (hA : Took p shared l₀ A xs) (hB : Took p shared l₀ B ys)
    (hsame : ∀ event, event ∈ A.event_log ↔ event ∈ B.event_log) : xs.Perm ys := by
  rw [hA.log, hB.log] at hsame
  refine (List.perm_ext_iff_of_nodup hA.nodup hB.nodup).mpr fun event => ⟨fun h => ?_, fun h => ?_⟩
  · have hmem := (hsame event).mp (List.mem_append_right _ h)
    exact (List.mem_append.mp hmem).resolve_left (hA.fresh event h)
  · have hmem := (hsame event).mpr (List.mem_append_right _ h)
    exact (List.mem_append.mp hmem).resolve_left (hB.fresh event h)

/-- Every two new events that the nodes took in opposite orders touch different cells. -/
def OrdersApart (p : Platform) (l₀ A B : Ledger) : Prop :=
  ∀ a b, a ∉ l₀.event_log → b ∉ l₀.event_log →
    [a, b].Sublist A.event_log → [b, a].Sublist B.event_log → ∀ c ∈ touched p a, c ∉ touched p b

theorem gossip_agrees {configA configB : RealmConfig}
    (hA : GossipRun p configA (Clean p configA) l₀ A) (hB : GossipRun p configB (Clean p configB) l₀ B)
    (hsame : ∀ event, event ∈ A.event_log ↔ event ∈ B.event_log) (hapart : OrdersApart p l₀ A B) :
    SameState p A B := by
  obtain ⟨xs, hxs⟩ := took_of_gossip hA
  obtain ⟨ys, hys⟩ := took_of_gossip hB
  have hkeep : ∀ a ∈ xs, ∀ l l', Agree view carried l l' →
      Agree view carried (handled p l a) (handled p l' a) :=
    fun a ha _ _ h => handle_related (hxs.nonRealm a ha) h
  have hcomm : ∀ a b, [a, b].Sublist xs → [b, a].Sublist ys → ∀ l,
      Agree view carried (handled p (handled p l a) b) (handled p (handled p l b) a) := by
    intro a b hab hba l
    have ha : a ∈ xs := hab.subset (by simp)
    have hb : b ∈ xs := hab.subset (by simp)
    have hdisj : ∀ c ∈ touched p a, c ∉ touched p b := by
      refine hapart a b (hxs.fresh a ha) (hxs.fresh b hb) ?_ ?_
      · rw [hxs.log]
        exact hab.trans (List.sublist_append_right _ _)
      · rw [hys.log]
        exact hba.trans (List.sublist_append_right _ _)
    exact ((local_handle_nonRealm (hxs.nonRealm a ha)).comm
      (local_handle_nonRealm (hxs.nonRealm b hb)) hdisj l).mono fun _ _ => trivial
  have hfold : Agree view carried (xs.foldl (handled p) l₀) (ys.foldl (handled p) l₀) :=
    foldl_reorder (equivalence_agree carried) (hxs.perm hys hsame) hxs.nodup hkeep hcomm l₀
  exact sameState_of_agree
    ((hxs.state.trans (hfold.mono shared_subset_carried)).trans hys.state.symm)

end

/-! ## Two events in both orders -/

/-- The event comes in a broadcast of its own. -/
def received (p : Platform) (config : RealmConfig) (ledger : Ledger) (event : Json) : Ledger :=
  after (receiveBroadcast p config (some (broadcastOf event))) ledger

section
variable {p : Platform} {config : RealmConfig} {ledger : Ledger} {event : Json}

theorem broadcastEvent_broadcastOf (hknown : isKnown (some event) ledger.event_log = .ok false) :
    broadcastEvent (some (broadcastOf event)) ledger = .ok (some event) := by
  have hdata : optional (some (broadcastOf event)) "data" = some event := rfl
  have htype : member (some (broadcastOf event)) "type" = .ok (some (.str "EVENT")) := rfl
  unfold broadcastEvent
  rw [htype, hdata]
  simp [hknown, strictEq, toStr, Json.toStr]

theorem received_new (hrole : config.role = .primary)
    (hknown : isKnown (some event) ledger.event_log = .ok false) (hlog : logLine event = .ok ())
    (hverdict : verdict p ledger event = .ok ()) :
    Agree view carried (received p config ledger event) (handled p ledger event)
      ∧ (received p config ledger event).event_log = ledger.event_log ++ [event] := by
  unfold received
  rw [after_receive, broadcastEvent_broadcastOf hknown]
  exact applyEvent_taken hrole hlog hverdict

theorem eq_of_broadcastOf {e : Json}
    (h : broadcastEvent (some (broadcastOf event)) ledger = .ok (some e)) : e = event := by
  unfold broadcastEvent at h
  obtain ⟨type, -, h⟩ := bind_eq_ok.mp h
  obtain ⟨text, -, h⟩ := bind_eq_ok.mp h
  split at h
  · cases h
  · obtain ⟨known, -, h⟩ := bind_eq_ok.mp h
    cases known with
    | true => cases h
    | false => cases h; rfl

theorem GossipRun.received {ok : Ledger → Json → Prop} {l₀ : Ledger}
    (h : GossipRun p config ok l₀ ledger) (hok : ok ledger event) :
    GossipRun p config ok l₀ (received p config ledger event) :=
  h.receive fun e he => by rwa [eq_of_broadcastOf he]

variable {first second : Json}

/-- Two new events, one after the other. -/
theorem received_pair (p : Platform) (config : RealmConfig) (ledger : Ledger) (hrole : config.role = .primary) (hempty : ledger.event_log = [])
    (hknown : isKnown (some second) [first] = .ok false) (hsecond : NonRealm second)
    (hlog₁ : logLine first = .ok ()) (hlog₂ : logLine second = .ok ())
    (hverdict₁ : ∀ l, verdict p l first = .ok ()) (hverdict₂ : ∀ l, verdict p l second = .ok ()) :
    Agree view carried (received p config (received p config ledger first) second)
        (handled p (handled p ledger first) second)
      ∧ (received p config (received p config ledger first) second).event_log = [first, second] := by
  obtain ⟨hstate₁, happended₁⟩ :=
    received_new hrole (by rw [hempty]; rfl) hlog₁ (hverdict₁ ledger)
  rw [hempty, List.nil_append] at happended₁
  obtain ⟨hstate₂, happended₂⟩ :=
    received_new hrole (by rw [happended₁]; exact hknown) hlog₂ (hverdict₂ _)
  rw [happended₁] at happended₂
  exact ⟨hstate₂.trans (handle_related hsecond hstate₁), happended₂⟩

end

/-! ## Accounts that are admitted in both orders -/

def aliceAddress : String := "sl1e_aaaaaaaaaaaaaaaaaaaaaaaaaaaaaaaaaaaaaaa"

def bobAddress : String := "sl1e_bbbbbbbbbbbbbbbbbbbbbbbbbbbbbbbbbbbbbbb"

/-- An account is admitted as it stood elsewhere. -/
def admission (address id : String) (nonce : Nat) : Json :=
  .obj [("id", .str id), ("type", .str "ACCOUNT_PROVENANCE_ADMISSION"),
    ("payload", .obj [("account", .str address),
      ("account_state", .obj [("nonce", .num (.int nonce))])])]

def admitted (address : String) (nonce : Nat) : Fields :=
  [("nonce", .num (.int nonce)), ("entity_l1_address", .str address)]

/-- The address is a normal one. -/
def Admits (address : String) : Prop :=
  ∀ id nonce, admittedAccount plainPlatform (admission address id nonce) =
    .ok (address, admitted address nonce)

theorem alice_admits : Admits aliceAddress := fun _ _ => rfl

theorem bob_admits : Admits bobAddress := fun _ _ => rfl

section
variable {address : String} (id : String) (nonce : Nat) (ledger : Ledger)

theorem ledgerEventType_admission :
    ledgerEventType (admission address id nonce) = some .accountProvenanceAdmission :=
  ledgerEventType_of_name _ rfl

theorem nonRealm_admission : NonRealm (admission address id nonce) := by
  unfold NonRealm
  rw [show Realm.isCanonicalRealmEvent (admission address id nonce) = .ok false from rfl]
  nofun

theorem verdict_admission (haddress : Admits address) :
    verdict plainPlatform ledger (admission address id nonce) = .ok () := by
  unfold verdict
  rw [ledgerEventType_admission]
  show admissionVerdict _ _ = _
  unfold admissionVerdict
  rw [haddress]
  rfl

theorem handled_admission (haddress : Admits address) :
    (handled plainPlatform ledger (admission address id nonce)).account address =
      some ((ledger.account address).getD (admitted address nonce)) := by
  unfold handled handleEvent
  rw [ledgerEventType_admission]
  show (after (admitAccount _ _) _).account _ = _
  unfold admitAccount
  rw [haddress]
  cases h : ledger.account address <;> simp [after_bind, h]

theorem clean_admission (haddress : Admits address) :
    Clean plainPlatform primaryConfig ledger (admission address id nonce) where
  nonRealm := nonRealm_admission id nonce
  known := by simp [admission, Json.prop, Fields.get, strictEq]
  refused _ := .inl ⟨rfl, verdict_admission id nonce ledger haddress⟩

end

/-- A fresh node takes one admission and then another. -/
def admittedBoth (first second : Json) : Ledger :=
  received plainPlatform primaryConfig
    (received plainPlatform primaryConfig (.fresh none ⟨none, [], none⟩) first) second

section
variable {address address' : String} (id id' : String) (nonce nonce' : Nat)

theorem admittedBoth_pair (haddress : Admits address) (haddress' : Admits address') (hne : id ≠ id') :
    Agree view carried (admittedBoth (admission address id nonce) (admission address' id' nonce'))
        (handled plainPlatform (handled plainPlatform (.fresh none ⟨none, [], none⟩)
          (admission address id nonce)) (admission address' id' nonce'))
      ∧ (admittedBoth (admission address id nonce) (admission address' id' nonce')).event_log =
        [admission address id nonce, admission address' id' nonce'] := by
  have hknown : isKnown (some (admission address' id' nonce')) [admission address id nonce] =
      .ok false := by
    simp [isKnown, member, admission, Json.prop, Fields.get, strictEq, hne]
  exact received_pair plainPlatform primaryConfig (.fresh none ⟨none, [], none⟩) rfl rfl hknown
    (nonRealm_admission _ _) rfl rfl (fun l => verdict_admission id nonce l haddress)
    (fun l => verdict_admission id' nonce' l haddress')

theorem admittedBoth_first (haddress : Admits address) (hne : id ≠ id') :
    (admittedBoth (admission address id nonce) (admission address id' nonce')).account address =
      some (admitted address nonce) := by
  have hstate := (admittedBoth_pair id id' nonce nonce' haddress haddress hne).1
  refine (hstate (.account address) rfl).trans ?_
  refine (handled_admission _ _ _ haddress).trans ?_
  rw [handled_admission _ _ _ haddress]
  rfl

end

theorem gossip_admittedBoth {ok : Ledger → Json → Prop} {first second : Json}
    (h : ∀ ledger, ok ledger first ∧ ok ledger second) :
    GossipRun plainPlatform primaryConfig ok (.fresh none ⟨none, [], none⟩)
      (admittedBoth first second) :=
  (GossipRun.start.received (h _).1).received (h _).2

/-- The admissions of two accounts come in opposite orders. -/
theorem gossip_agrees_admissions :
    SameState plainPlatform
      (admittedBoth (admission aliceAddress "evt_1" 1) (admission bobAddress "evt_2" 2))
      (admittedBoth (admission bobAddress "evt_2" 2) (admission aliceAddress "evt_1" 1)) := by
  have hlogA := (admittedBoth_pair "evt_1" "evt_2" 1 2 alice_admits bob_admits (by decide)).2
  have hlogB := (admittedBoth_pair "evt_2" "evt_1" 2 1 bob_admits alice_admits (by decide)).2
  have hcleanA (l : Ledger) := clean_admission "evt_1" 1 l alice_admits
  have hcleanB (l : Ledger) := clean_admission "evt_2" 2 l bob_admits
  refine gossip_agrees (gossip_admittedBoth fun l => ⟨hcleanA l, hcleanB l⟩)
    (gossip_admittedBoth fun l => ⟨hcleanB l, hcleanA l⟩) (fun event => ?_) ?_
  · rw [hlogA, hlogB]
    simp [or_comm]
  · intro a b _ _ hab _
    rw [hlogA] at hab
    cases hab.eq_of_length rfl
    unfold touched
    rw [ledgerEventType_admission, ledgerEventType_admission]
    rintro c ⟨a, ha, rfl⟩ ⟨b, hb, heq⟩
    have hab : a = b := by cases heq; rfl
    have hAlice : aliceAddress = a := Option.some.inj ha
    have hBob : bobAddress = b := Option.some.inj hb
    rw [← hAlice, ← hBob] at hab
    exact absurd hab (by decide)

/-- The admission that comes first stands, and the nodes take different ones first. -/
theorem admissions_disagree :
    ∃ A B, GossipRun plainPlatform primaryConfig (fun _ => NonRealm) (.fresh none ⟨none, [], none⟩) A
      ∧ GossipRun plainPlatform primaryConfig (fun _ => NonRealm) (.fresh none ⟨none, [], none⟩) B
      ∧ (∀ event, event ∈ A.event_log ↔ event ∈ B.event_log) ∧ ¬ SameState plainPlatform A B := by
  have hlogA := (admittedBoth_pair "evt_1" "evt_2" 1 2 alice_admits alice_admits (by decide)).2
  have hlogB := (admittedBoth_pair "evt_2" "evt_1" 2 1 alice_admits alice_admits (by decide)).2
  have haccountA := admittedBoth_first "evt_1" "evt_2" 1 2 alice_admits (by decide)
  have haccountB := admittedBoth_first "evt_2" "evt_1" 2 1 alice_admits (by decide)
  refine ⟨admittedBoth (admission aliceAddress "evt_1" 1) (admission aliceAddress "evt_2" 2),
    admittedBoth (admission aliceAddress "evt_2" 2) (admission aliceAddress "evt_1" 1),
    gossip_admittedBoth fun _ => ⟨nonRealm_admission _ _, nonRealm_admission _ _⟩,
    gossip_admittedBoth fun _ => ⟨nonRealm_admission _ _, nonRealm_admission _ _⟩,
    fun event => ?_, fun h => ?_⟩
  · rw [hlogA, hlogB]
    simp [or_comm]
  · have hsame := h.accounts aliceAddress
    rw [haccountA, haccountB] at hsame
    cases hsame

end SimpleL1.Node
