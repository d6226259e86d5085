import SimpleL1.Lib.Steps
import SimpleL1.Realm.Chain
import SimpleL1.Realm.Commands

/-!
# Commands are executed once

A command that reaches the callback is recorded, and a recorded command changes nothing any
more. What the fingerprint tells apart are the intents as they are written: numbers JSON text
has no form for are all written `null`.
-/

namespace SimpleL1.Realm.Commands

open SimpleL1.Js SimpleL1.Node SimpleL1.Lib SimpleL1.Lib.Effect
open SimpleL1.Realm.Recovery (acceptProposals executeRecoveryCeremony CeremonyResult)

variable {σ : Type}

/-! ## The callback -/

/-- The callback does not throw, and returns neither `undefined` nor `null`. -/
def Answers (acceptRealmEvent : Json → EStateM Error σ (Option Json)) : Prop :=
  ∀ proposal world, ∃ result world', acceptRealmEvent proposal world = .ok (some result) world'
    ∧ result ≠ .null

/-- A context that counts how often its callback is reached. -/
def Context.counted (context : Context σ) : Context (σ × Nat) where
  host := context.host
  acceptRealmEvent proposal := fun (world, count) =>
    match context.acceptRealmEvent proposal world with
    | .ok result world => .ok result (world, count + 1)
    | .error e world => .error e (world, count + 1)
  ledger world := context.ledger world.1

theorem Answers.counted {context : Context σ} (h : Answers context.acceptRealmEvent) :
    Answers context.counted.acceptRealmEvent := by
  rintro proposal ⟨world, count⟩
  obtain ⟨result, world', hcall, hne⟩ := h proposal world
  refine ⟨result, (world', count + 1), ?_, hne⟩
  unfold Context.counted
  dsimp only
  rw [hcall]

/-! ## A command that throws -/

/-- The computation throws before it has changed anything, or returns a result that is no `null`. -/
def Settles {α : Type} (m : EStateM Error σ α) (some? : α → Prop) (world : σ) : Prop :=
  (∃ e, m world = .error e world) ∨ ∃ a world', m world = .ok a world' ∧ some? a

theorem settles_callback {acceptRealmEvent : Json → EStateM Error σ (Option Json)}
    (h : Answers acceptRealmEvent) (proposal : Json) (world : σ) :
    Settles (acceptRealmEvent proposal) (· ≠ some .null) world := by
  obtain ⟨result, world', hcall, hne⟩ := h proposal world
  exact .inr ⟨some result, world', hcall, fun heq => hne (Option.some.inj heq)⟩

theorem settles_lift_bind {α β : Type} {x : JsM α} {f : α → EStateM Error σ β} {p : β → Prop}
    {world : σ} (h : ∀ a, x = .ok a → Settles (f a) p world) :
    Settles (liftM x >>= f : EStateM Error σ β) p world := by
  cases hx : x with
  | error e => exact .inl ⟨e, rfl⟩
  | ok a => exact h a hx

theorem settles_map {α β : Type} {m : EStateM Error σ α} {g : α → β} {p : β → Prop} {world : σ}
    (h : Settles m (fun a => p (g a)) world) : Settles (g <$> m) p world := by
  rcases h with ⟨e, he⟩ | ⟨a, world', ha, hp⟩
  · refine .inl ⟨e, ?_⟩
    show EStateM.map g m world = _
    unfold EStateM.map
    rw [he]
  · refine .inr ⟨g a, world', ?_, hp⟩
    show EStateM.map g m world = _
    unfold EStateM.map
    rw [ha]

/-- With a callback that answers, the loop of a ceremony goes through. -/
theorem acceptProposals_returns {acceptRealmEvent : Json → EStateM Error σ (Option Json)}
    (h : Answers acceptRealmEvent) (proposals rest : List Json) (events : List (Option Json))
    (world : σ) : ∃ result world',
      acceptProposals acceptRealmEvent proposals rest events world = .ok result world' := by
  induction rest generalizing events world with
  | nil => exact ⟨_, _, rfl⟩
  | cons proposal rest ih =>
    obtain ⟨result, world', hcall, hne⟩ := h proposal world
    obtain ⟨v, hok⟩ : ∃ v, member (some result) "ok" = .ok v :=
      ⟨_, member_eq_ok.mpr ⟨hne, rfl⟩⟩
    rw [acceptProposals, bind_of_ok hcall, hok]
    show ∃ r w, (if truthy v then _ else _ : EStateM Error σ CeremonyResult) world' = .ok r w
    split
    · exact ih _ world'
    · exact ⟨_, _, rfl⟩

theorem ne_null_of_ite {c : Prop} [Decidable c] {v w result : Json}
    (h : (if c then pure v else pure w : JsM Json) = .ok result) (hv : v ≠ .null) (hw : w ≠ .null) :
    result ≠ .null := by
  split at h
  · exact Except.ok.inj h ▸ hv
  · exact Except.ok.inj h ▸ hw

theorem evaluateFederationPolicy_ne_null {localPolicy evidence : Option Json} {result : Json}
    (h : evaluateFederationPolicy localPolicy evidence = .ok result) : result ≠ .null := by
  unfold evaluateFederationPolicy at h
  obtain ⟨_, -, h⟩ := bind_eq_ok.mp h
  obtain ⟨_, -, h⟩ := bind_eq_ok.mp h
  obtain ⟨_, -, h⟩ := bind_eq_ok.mp h
  exact ne_null_of_ite h nofun nofun

theorem refused_ne_null {now : String} {host : Host} {input result : Json}
    (h : prepareRecognition now host input = .ok (.refused result)) : result ≠ .null := by
  unfold prepareRecognition at h
  obtain ⟨verification, -, h⟩ := bind_eq_ok.mp h
  dsimp only at h
  split at h
  · cases Except.ok.inj h
    cases verification <;> exact nofun
  obtain ⟨policy, hpolicy, h⟩ := bind_eq_ok.mp h
  split at h
  · cases Except.ok.inj h
    exact evaluateFederationPolicy_ne_null hpolicy
  · obtain ⟨_, -, h⟩ := bind_eq_ok.mp h
    cases Except.ok.inj h

section
variable {context : Context σ} (h : Answers context.acceptRealmEvent) (now : String)

include h

theorem ceremony_settles (input : Json) (world : σ) :
    Settles (executeRecoveryCeremony context.acceptRealmEvent now (some input)) (fun _ => True) world := by
  unfold executeRecoveryCeremony
  refine settles_lift_bind fun proposals _ => ?_
  obtain ⟨result, world', hrun⟩ := acceptProposals_returns h proposals proposals [] world
  exact .inr ⟨result, world', hrun, trivial⟩

theorem submitDeviceEvent_settles (signedProposal : Json) (world : σ) :
    Settles (submitDeviceEvent context now signedProposal) (· ≠ some .null) world := by
  unfold submitDeviceEvent
  rw [Settles, get_bind_apply]
  show Settles _ _ world
  split
  · exact .inl ⟨_, rfl⟩
  · refine settles_lift_bind fun verification _ => ?_
    cases verification with
    | refused codes n => exact .inr ⟨_, world, rfl, nofun⟩
    | verified n device => exact settles_callback h n.toJson world

theorem recognizeRemoteRealm_settles (input : Json) (world : σ) :
    Settles (recognizeRemoteRealm context now input) (fun result => some result ≠ some .null) world := by
  unfold recognizeRemoteRealm
  refine settles_lift_bind fun recognition hrecognition => ?_
  cases recognition with
  | refused result =>
    refine .inr ⟨result, world, rfl, fun hnull => ?_⟩
    exact refused_ne_null hrecognition (Option.some.inj hnull)
  | proposed proposal remoteVerification policyEvaluation =>
    obtain ⟨result, world', hcall, hne⟩ := h proposal world
    obtain ⟨v, hok⟩ : ∃ v, member (some result) "ok" = .ok v := ⟨_, member_eq_ok.mpr ⟨hne, rfl⟩⟩
    dsimp only
    unfold Settles
    rw [bind_of_ok hcall, hok]
    exact .inr ⟨_, world', rfl, nofun⟩

theorem executeRealmCommand_settles (command : Option Json) (world : σ) :
    Settles (executeRealmCommand context now command) (· ≠ some .null) world := by
  unfold executeRealmCommand
  refine settles_lift_bind fun normalized _ => ?_
  split
  · refine settles_map ?_
    rcases ceremony_settles h now normalized.payload world with ⟨e, he⟩ | ⟨result, world', hrun, -⟩
    · exact .inl ⟨e, he⟩
    · exact .inr ⟨result, world', hrun, by cases result <;> nofun⟩
  split
  · exact submitDeviceEvent_settles h now _ world
  split
  · exact settles_map (recognizeRemoteRealm_settles h now _ world)
  split
  · exact settles_callback h _ world
  · exact .inr ⟨_, world, rfl, nofun⟩

end

/-! ## One execution -/

/-- The fingerprint of a normalised command. -/
def fingerprint (host : Host) (n : NormalizedCommand) : String :=
  host.sha256 (canonicalEncode n.intent)

theorem commandIntentFingerprint_eq_ok {host : Host} {command : Option Json} {text : String} :
    commandIntentFingerprint host command = .ok text ↔
      ∃ n, normalizeRealmCommand command = .ok n ∧ text = fingerprint host n := by
  unfold commandIntentFingerprint fingerprint
  simp only [bind_eq_ok, pure_eq_ok, Except.ok.injEq]
  exact exists_congr fun n => and_congr_right fun _ => eq_comm

/-- What an execution can do: throw and change nothing, run a command without an id, run and
record one with a new id, or answer a known id from its record and change nothing. -/
inductive Served (host : Host) (command : Option Json) (world : σ) (store : ExecutionStore) :
    EStateM.Result Error (σ × ExecutionStore) CommandResult → Prop where
  | threw (e : Error) : Served host command world store (.error e (world, store))
  | unnamed {result : Option Json} {ids : List Json} {world' : σ} : commandId command = .ok "" →
      Served host command world store (.ok (.attached result none ids false) (world', store))
  | ran {id : String} {n : NormalizedCommand} {result : Option Json} {ids : List Json} {world' : σ} :
      commandId command = .ok id → normalizeRealmCommand command = .ok n →
      Assoc.find id store = none →
      Served host command world store (.ok (.attached result (some id) ids false)
        (world', Assoc.insert id ⟨id, fingerprint host n, result, ids⟩ store))
  | replayed {id : String} {n : NormalizedCommand} {record : CommandRecord} :
      commandId command = .ok id → normalizeRealmCommand command = .ok n →
      Assoc.find id store = some record → record.intent_fingerprint = fingerprint host n →
      Served host command world store (.ok (.attached record.execution_result (some id)
        record.accepted_event_ids true) (world, store))
  | refused {id : String} {n : NormalizedCommand} {record : CommandRecord} :
      commandId command = .ok id → normalizeRealmCommand command = .ok n →
      Assoc.find id store = some record → record.intent_fingerprint ≠ fingerprint host n →
      Served host command world store (.ok (.mismatch id) (world, store))

theorem besideStore_of_ok {α : Type} {m : EStateM Error σ α} {world world' : σ} {a : α}
    (h : m world = .ok a world') (store : ExecutionStore) :
    besideStore m (world, store) = .ok a (world', store) := by
  unfold besideStore
  dsimp only
  rw [h]

theorem besideStore_of_error {α : Type} {m : EStateM Error σ α} {world world' : σ} {e : Error}
    (h : m world = .error e world') (store : ExecutionStore) :
    besideStore m (world, store) = .error e (world', store) := by
  unfold besideStore
  dsimp only
  rw [h]

theorem collect_of_ne_null {result : Option Json} (h : result ≠ some .null) :
    ∃ ids, collectAcceptedEventIds result = .ok ids := by
  unfold collectAcceptedEventIds
  split
  · exact ⟨_, rfl⟩
  · exact absurd rfl h
  · exact ⟨_, rfl⟩

theorem liftM_ok_bind {α β : Type} (a : α) (f : α → EStateM Error σ β) (s : σ) :
    ((liftM (Except.ok a : JsM α) : EStateM Error σ α) >>= f) s = f a s := rfl

theorem executeCommand_served {context : Context σ} (h : Answers context.acceptRealmEvent)
    (now : String) (command : Option Json) (world : σ) (store : ExecutionStore) :
    Served context.host command world store (executeCommand context now command (world, store)) := by
  unfold executeCommand
  cases hid : commandId command with
  | error e => exact .threw e
  | ok id =>
    show Served _ _ _ _ ((if id = "" then _ else _ : EStateM Error (σ × ExecutionStore) CommandResult)
      (world, store))
    by_cases hempty : id = ""
    · subst hempty
      rw [if_pos rfl]
      rcases executeRealmCommand_settles h now command world with ⟨e, he⟩ | ⟨result, world', hrun, hne⟩
      · rw [bind_of_error (besideStore_of_error he store)]
        exact .threw e
      · obtain ⟨ids, hids⟩ := collect_of_ne_null hne
        rw [bind_of_ok (besideStore_of_ok hrun store), hids]
        exact .unnamed hid
    · rw [if_neg hempty]
      cases hprint : commandIntentFingerprint context.host command with
      | error e => exact .threw e
      | ok text =>
        obtain ⟨n, hn, rfl⟩ := commandIntentFingerprint_eq_ok.mp hprint
        rw [liftM_ok_bind, get_bind_apply]
        dsimp only
        cases hfind : Assoc.find id store with
        | some existing =>
          dsimp only
          by_cases hsame : existing.intent_fingerprint = fingerprint context.host n
          · rw [if_neg (not_not_intro hsame)]
            exact .replayed hid hn hfind hsame
          · rw [if_pos hsame]
            exact .refused hid hn hfind hsame
        | none =>
          dsimp only
          rcases executeRealmCommand_settles h now command world with
            ⟨e, he⟩ | ⟨result, world', hrun, hne⟩
          · rw [bind_of_error (besideStore_of_error he store)]
            exact .threw e
          · obtain ⟨ids, hids⟩ := collect_of_ne_null hne
            rw [bind_of_ok (besideStore_of_ok hrun store), hids]
            exact .ran hid hn hfind

/-! ## Runs -/

/-- A call: the clock's reading and the command. -/
abbrev Call := String × Option Json

section
variable (context : Context σ) (calls : List Call) (world : σ)

/-- The state before call number `k`, from an empty store. -/
def stateAt (k : Nat) : (σ × Nat) × ExecutionStore :=
  (calls.take k).foldl (fun st call => after (executeCommand context.counted call.1 call.2) st)
    ((world, 0), [])

/-- Call number `k` reaches the callback. -/
def Reaches (k : Nat) : Prop :=
  (stateAt context calls world k).1.2 ≠ (stateAt context calls world (k + 1)).1.2

def Returns (k : Nat) (result : CommandResult) : Prop :=
  ∃ call, calls[k]? = some call
    ∧ outcome (executeCommand context.counted call.1 call.2) (stateAt context calls world k) =
      .ok result

/-- Call number `k` touches neither the ledger nor the callback nor the store. -/
def Untouched (k : Nat) : Prop :=
  stateAt context calls world (k + 1) = stateAt context calls world k

/-- Call number `k` carries this command under this id. -/
structure Under (k : Nat) (id : String) (n : NormalizedCommand) : Prop where
  call : ∃ call, calls[k]? = some call ∧ commandId call.2 = .ok id
    ∧ normalizeRealmCommand call.2 = .ok n
  named : id ≠ ""

/-- Of the calls under one id at most one reaches the callback, and that one returns a result.
Once a call has returned a result, a later one with the same intent gets it as a replay and
one with another intent is refused, and neither touches anything. -/
structure Idempotent : Prop where
  once : ∀ {i j id c d}, i < j → calls[i]? = some c → calls[j]? = some d → commandId c.2 = .ok id →
    commandId d.2 = .ok id → id ≠ "" →
    ¬ (Reaches context calls world i ∧ Reaches context calls world j)
  recorded : ∀ {i id c}, calls[i]? = some c → commandId c.2 = .ok id → id ≠ "" →
    Reaches context calls world i →
    ∃ result ids, Returns context calls world i (.attached result (some id) ids false)
  same : ∀ {i j id first second result ids replay}, i < j → Under calls i id first →
    Under calls j id second →
    Returns context calls world i (.attached result (some id) ids replay) →
    Json.Same first.intent second.intent →
    Returns context calls world j (.attached result (some id) ids true)
      ∧ Untouched context calls world j
  different : ∀ {i j id first second result ids replay}, i < j → Under calls i id first →
    Under calls j id second →
    Returns context calls world i (.attached result (some id) ids replay) →
    ¬ Json.Same first.intent second.intent →
    Returns context calls world j (.mismatch id) ∧ Untouched context calls world j

/-- No two commands under one id are written alike but intend different things. -/
def Distinguished : Prop := ∀ i j id first second, Under calls i id first →
  Under calls j id second → Json.Same first.intent.written second.intent.written →
  Json.Same first.intent second.intent

end

section
variable {context : Context σ} {calls : List Call} {world : σ}

theorem stateAt_succ {k : Nat} {call : Call} (hk : calls[k]? = some call) :
    stateAt context calls world (k + 1) =
      after (executeCommand context.counted call.1 call.2) (stateAt context calls world k) := by
  unfold stateAt
  rw [List.take_add_one, hk, Option.toList_some, List.foldl_append]
  rfl

theorem stateAt_succ_of_none {k : Nat} (hk : calls[k]? = none) :
    stateAt context calls world (k + 1) = stateAt context calls world k := by
  unfold stateAt
  rw [List.take_add_one, hk, Option.toList_none, List.append_nil]

variable (h : Answers context.acceptRealmEvent)

include h

theorem served_at (calls : List Call) (world : σ) (k : Nat) (call : Call) :
    Served context.host call.2 (stateAt context calls world k).1 (stateAt context calls world k).2
      (executeCommand context.counted call.1 call.2 (stateAt context calls world k)) :=
  executeCommand_served h.counted call.1 call.2 _ _

/-- A record stays. -/
theorem find_stateAt {k l : Nat} {id : String} {record : CommandRecord} (hkl : k ≤ l)
    (hfind : Assoc.find id (stateAt context calls world k).2 = some record) :
    Assoc.find id (stateAt context calls world l).2 = some record := by
  induction l, hkl using Nat.le_induction with
  | base => exact hfind
  | succ l _ ih =>
    cases hl : calls[l]? with
    | none => rwa [stateAt_succ_of_none hl]
    | some call =>
      rw [stateAt_succ hl]
      unfold after
      have hserved := served_at h calls world l call
      generalize executeCommand context.counted call.1 call.2 (stateAt context calls world l) = run
        at hserved ⊢
      cases hserved with
      | threw e => exact ih
      | unnamed _ => exact ih
      | @ran id' n result ids world' _ _ hnone =>
        rw [Assoc.find_insert, if_neg]
        · exact ih
        · rintro rfl
          rw [ih] at hnone
          cases hnone
      | replayed => exact ih
      | refused => exact ih

/-- The record a call that returned a result has left or found. -/
theorem record_of_returns {i : Nat} {id : String} {n : NormalizedCommand} {result : Option Json}
    {ids : List Json} {replay : Bool} (hi : Under calls i id n)
    (hret : Returns context calls world i (.attached result (some id) ids replay)) :
    ∃ record, Assoc.find id (stateAt context calls world (i + 1)).2 = some record
      ∧ record.intent_fingerprint = fingerprint context.host n
      ∧ record.execution_result = result ∧ record.accepted_event_ids = ids := by
  obtain ⟨⟨call, hcall, hid, hn⟩, hne⟩ := hi
  obtain ⟨call', hcall', hout⟩ := hret
  obtain rfl : call = call' := Option.some.inj (hcall.symm.trans hcall')
  rw [stateAt_succ hcall]
  unfold after
  unfold outcome at hout
  have hserved := served_at h calls world i call
  generalize executeCommand context.counted call.1 call.2 (stateAt context calls world i) = run
    at hserved hout ⊢
  cases hserved with
  | threw e => cases hout
  | unnamed => cases hout
  | @ran id' n' result' ids' world' hid' hn' _ =>
    cases hout
    obtain rfl : n = n' := Except.ok.inj (hn.symm.trans hn')
    exact ⟨_, by rw [Assoc.find_insert, if_pos rfl], rfl, rfl, rfl⟩
  | @replayed id' n' record _ hn' hfind hprint =>
    cases hout
    obtain rfl : n = n' := Except.ok.inj (hn.symm.trans hn')
    exact ⟨record, hfind, hprint, rfl, rfl⟩
  | refused => cases hout

/-- A call under a known id changes nothing. -/
theorem untouched_of_find {j : Nat} {id : String} {call : Call} {record : CommandRecord}
    (hcall : calls[j]? = some call) (hid : commandId call.2 = .ok id) (hne : id ≠ "")
    (hfind : Assoc.find id (stateAt context calls world j).2 = some record) :
    Untouched context calls world j := by
  unfold Untouched
  rw [stateAt_succ hcall]
  unfold after
  have hserved := served_at h calls world j call
  generalize executeCommand context.counted call.1 call.2 (stateAt context calls world j) = run
    at hserved ⊢
  cases hserved with
  | threw e => rfl
  | unnamed hid' => exact absurd (Except.ok.inj (hid.symm.trans hid')) hne
  | ran hid' _ hnone =>
    obtain rfl := Except.ok.inj (hid.symm.trans hid')
    rw [hfind] at hnone
    cases hnone
  | replayed => rfl
  | refused => rfl

/-- A call that reaches the callback is the first under its id and leaves a record. -/
theorem returns_of_reaches {i : Nat} {id : String} {call : Call} (hcall : calls[i]? = some call)
    (hid : commandId call.2 = .ok id) (hne : id ≠ "") (hreach : Reaches context calls world i) :
    ∃ n result ids, Under calls i id n
      ∧ Returns context calls world i (.attached result (some id) ids false) := by
  unfold Reaches at hreach
  rw [stateAt_succ hcall] at hreach
  unfold Returns outcome
  unfold after at hreach
  have hserved := served_at h calls world i call
  generalize hrun : executeCommand context.counted call.1 call.2 (stateAt context calls world i) = run
    at hserved hreach
  cases hserved with
  | threw e => exact absurd rfl hreach
  | unnamed hid' => exact absurd (Except.ok.inj (hid.symm.trans hid')) hne
  | @ran id' n result ids world' hid' hn _ =>
    obtain rfl := Except.ok.inj (hid.symm.trans hid')
    exact ⟨n, result, ids, ⟨⟨call, hcall, hid, hn⟩, hne⟩, call, hcall, by rw [hrun]⟩
  | replayed => exact absurd rfl hreach
  | refused => exact absurd rfl hreach

omit h in
theorem executeCommand_of_find {now : String} {command : Option Json} {id : String}
    {n : NormalizedCommand} {record : CommandRecord} {state : σ} {store : ExecutionStore}
    (hid : commandId command = .ok id) (hne : id ≠ "") (hn : normalizeRealmCommand command = .ok n)
    (hfind : Assoc.find id store = some record) :
    executeCommand context now command (state, store) =
      if record.intent_fingerprint ≠ fingerprint context.host n then
        .ok (.mismatch id) (state, store)
      else .ok (.attached record.execution_result (some id) record.accepted_event_ids true)
        (state, store) := by
  have hprint : commandIntentFingerprint context.host command = .ok (fingerprint context.host n) :=
    commandIntentFingerprint_eq_ok.mpr ⟨n, hn, rfl⟩
  unfold executeCommand
  rw [hid]
  show (if id = "" then _ else _ : EStateM Error (σ × ExecutionStore) CommandResult)
    (state, store) = _
  rw [if_neg hne, hprint]
  rw [liftM_ok_bind, get_bind_apply, hfind]
  dsimp only
  split <;> rfl

omit h in
/-- A call under a known id is answered by its record. -/
theorem answered_of_find {j : Nat} {id : String} {n : NormalizedCommand} {record : CommandRecord}
    (hj : Under calls j id n)
    (hfind : Assoc.find id (stateAt context calls world j).2 = some record) :
    (record.intent_fingerprint = fingerprint context.host n →
      Returns context calls world j
        (.attached record.execution_result (some id) record.accepted_event_ids true))
    ∧ (record.intent_fingerprint ≠ fingerprint context.host n →
      Returns context calls world j (.mismatch id)) := by
  obtain ⟨⟨call, hcall, hid, hn⟩, hne⟩ := hj
  have hrun : executeCommand context.counted call.1 call.2 (stateAt context calls world j) = _ :=
    executeCommand_of_find hid hne hn hfind
  refine ⟨fun hsame => ⟨call, hcall, ?_⟩, fun hdiffer => ⟨call, hcall, ?_⟩⟩
  · have hprint : ¬ record.intent_fingerprint ≠ fingerprint context.counted.host n :=
      not_not_intro hsame
    rw [if_neg hprint] at hrun
    unfold outcome
    rw [hrun]
  · have hprint : record.intent_fingerprint ≠ fingerprint context.counted.host n := hdiffer
    rw [if_pos hprint] at hrun
    unfold outcome
    rw [hrun]

omit h in
theorem same_written {v w : Json} (hsame : Json.Same v w) : Json.Same v.written w.written :=
  calc v.written.canon = v.canon.written := (Json.written_canon v).symm
    _ = w.canon.written := congrArg Json.written hsame
    _ = w.written.canon := Json.written_canon w

omit h in
/-- The fingerprint separates what is written differently. -/
theorem fingerprint_eq_iff {host : Host} (hcf : host.CollisionFree) {n n' : NormalizedCommand} :
    fingerprint host n = fingerprint host n' ↔ Json.Same n.intent.written n'.intent.written :=
  ⟨fun heq => canonicalEncode_eq_iff.mp (hcf heq),
    fun hsame => congrArg host.sha256 (canonicalEncode_eq_iff.mpr hsame)⟩

theorem idempotent_of (hcf : context.host.CollisionFree) (hd : Distinguished calls) :
    Idempotent context calls world where
  once := by
    intro i j id c d hij hc hd hidc hidd hne ⟨hi, hj⟩
    obtain ⟨n, result, ids, hunder, hret⟩ := returns_of_reaches h hc hidc hne hi
    obtain ⟨record, hfind, -⟩ := record_of_returns h hunder hret
    have hlater := find_stateAt (l := j) h (by omega) hfind
    refine hj ?_
    rw [untouched_of_find h hd hidd hne hlater]
  recorded := by
    intro i id c hc hid hne hi
    obtain ⟨n, result, ids, -, hret⟩ := returns_of_reaches h hc hid hne hi
    exact ⟨result, ids, hret⟩
  same := by
    intro i j id first second result ids replay hij hi hj hret hsame
    obtain ⟨record, hfind, hprint, rfl, rfl⟩ := record_of_returns h hi hret
    have hlater := find_stateAt (l := j) h (by omega) hfind
    obtain ⟨call, hcall, hid, -⟩ := hj.call
    refine ⟨(answered_of_find hj hlater).1 ?_, untouched_of_find h hcall hid hj.named hlater⟩
    rw [hprint]
    exact (fingerprint_eq_iff hcf).mpr (same_written hsame)
  different := by
    intro i j id first second result ids replay hij hi hj hret hdiffer
    obtain ⟨record, hfind, hprint, -⟩ := record_of_returns h hi hret
    have hlater := find_stateAt (l := j) h (by omega) hfind
    obtain ⟨call, hcall, hid, -⟩ := hj.call
    refine ⟨(answered_of_find hj hlater).2 ?_, untouched_of_find h hcall hid hj.named hlater⟩
    rw [hprint]
    exact fun heq => hdiffer (hd _ _ _ _ _ hi hj ((fingerprint_eq_iff hcf).mp heq))

/-- In a run where no two commands under one id differ only in numbers that are written `null`,
commands are idempotent. -/
theorem commands_idempotent (hcf : context.host.CollisionFree) (hd : Distinguished calls) :
    Idempotent context calls world := idempotent_of h hcf hd

end

/-! ## A number without a written form -/

/-- A context whose callback accepts everything. -/
def acceptingContext : Context Unit where
  host := plainHost
  acceptRealmEvent _ := pure (some (.obj [("ok", .bool true), ("event", .obj [("id", .str "e1")])]))
  ledger _ := none

theorem acceptingContext_answers : Answers acceptingContext.acceptRealmEvent :=
  fun _ world => ⟨_, world, rfl, nofun⟩

/-- A command under the id `cmd-1` to submit a payload. -/
def limitCommand (limit : Json) : Json :=
  .obj [("command_id", .str "cmd-1"), ("type", .str "SUBMIT_REALM_EVENT"),
    ("payload", .obj [("limit", limit)])]

/-- A call and its repetition. -/
theorem repeated_command_idempotent :
    Idempotent acceptingContext [("", some (limitCommand .null)), ("", some (limitCommand .null))] () := by
  refine commands_idempotent acceptingContext_answers plainHost_collisionFree ?_
  rintro i j id first second ⟨⟨c, hc, hidc, hn⟩, -⟩ ⟨⟨d, hd, hidd, hn'⟩, -⟩ -
  have hmem : ∀ {k : Nat} {e : Call},
      [(("", some (limitCommand .null)) : Call), ("", some (limitCommand .null))][k]? = some e →
        e.2 = some (limitCommand .null) := by
    intro k e he
    have := List.mem_of_getElem? he
    simp only [List.mem_cons, List.not_mem_nil, or_false, or_self] at this
    rw [this]
  rw [hmem hc] at hn
  rw [hmem hd] at hn'
  obtain rfl : first = second := Except.ok.inj (hn.symm.trans hn')
  rfl

/-- An order without a limit, first as the number `1e999` and then as `null`. -/
def limitCalls : List Call :=
  [("", some (limitCommand (.num (.infinity false)))), ("", some (limitCommand .null))]

def isMismatch : Except Error CommandResult → Bool
  | .ok (.mismatch _) => true
  | _ => false

theorem second_limit_no_mismatch :
    isMismatch (outcome (executeCommand acceptingContext.counted "" (some (limitCommand .null)))
      (stateAt acceptingContext limitCalls () 1)) = false := by
  decide +kernel

theorem first_limit_returns :
    Returns acceptingContext limitCalls () 0 (.attached (some (.obj [("ok", .bool true),
      ("event", .obj [("id", .str "e1")])])) (some "cmd-1") [.str "e1"] false) :=
  ⟨_, rfl, rfl⟩

/-- The limits `1e999` and `null` are one intent to the fingerprint: the second command gets the
first one's result. -/
theorem unbounded_limit_replayed :
    ¬ ∀ (σ : Type) (context : Context σ) (calls : List Call) (world : σ),
      Answers context.acceptRealmEvent → context.host.CollisionFree →
      Idempotent context calls world := by
  intro hclaim
  have hidem := hclaim Unit acceptingContext limitCalls () acceptingContext_answers
    plainHost_collisionFree
  have hfirst : Under limitCalls 0 "cmd-1"
      ⟨"SUBMIT_REALM_EVENT", .obj [("limit", .num (.infinity false))], .null, .obj []⟩ :=
    ⟨⟨_, rfl, rfl, rfl⟩, by decide⟩
  have hsecond : Under limitCalls 1 "cmd-1"
      ⟨"SUBMIT_REALM_EVENT", .obj [("limit", .null)], .null, .obj []⟩ :=
    ⟨⟨_, rfl, rfl, rfl⟩, by decide⟩
  have hdiffer : ¬ Json.Same (NormalizedCommand.intent
        ⟨"SUBMIT_REALM_EVENT", .obj [("limit", .num (.infinity false))], .null, .obj []⟩)
      (NormalizedCommand.intent
        ⟨"SUBMIT_REALM_EVENT", .obj [("limit", .null)], .null, .obj []⟩) := by
    intro hsame
    have hpayload := congrArg (·.prop "payload") hsame
    simp only [Json.prop_canon] at hpayload
    have hlimit := congrArg (·.prop "limit") (Option.some.inj hpayload)
    simp only [Json.prop_canon] at hlimit
    cases Option.some.inj hlimit
  obtain ⟨⟨call, hcall, hout⟩, -⟩ :=
    hidem.different (by decide) hfirst hsecond first_limit_returns hdiffer
  obtain rfl : (("", some (limitCommand .null)) : Call) = call := Option.some.inj hcall
  have hview := second_limit_no_mismatch
  rw [hout] at hview
  cases hview

end SimpleL1.Realm.Commands
