import SimpleL1.Node.Platform
import SimpleL1.Realm.Registry
import Mathlib.Data.List.Chain

/-!
# The state machine of an intent

The states of a cross-chain intent and the transitions between them. Each
transition is recorded in the history of the intent; an illegal one throws and
changes nothing. Without a dispute an intent goes through its stages one by one;
a dispute can take it past them, and can be raised again and again.
-/

namespace SimpleL1.Settlement.IntentStateMachine

open SimpleL1.Js

inductive State where
  | created
  | bound
  | observed
  | verified
  | attested
  | fulfilled
  | finalized
  | disputed
  | expired
  | reverted
  deriving DecidableEq, Repr

namespace State

def all : List State :=
  [created, bound, observed, verified, attested, fulfilled, finalized, disputed, expired, reverted]

def name : State → String
  | created => "CREATED"
  | bound => "BOUND"
  | observed => "OBSERVED"
  | verified => "VERIFIED"
  | attested => "ATTESTED"
  | fulfilled => "FULFILLED"
  | finalized => "FINALIZED"
  | disputed => "DISPUTED"
  | expired => "EXPIRED"
  | reverted => "REVERTED"

/-- `TRANSITIONS`. -/
def transitions : State → List State
  | created => [bound, expired, disputed]
  | bound => [observed, expired, disputed]
  | observed => [verified, expired, disputed]
  | verified => [attested, expired, disputed]
  | attested => [fulfilled, disputed]
  | fulfilled => [finalized, disputed, reverted]
  | finalized => [disputed]
  | disputed => [fulfilled, expired, reverted]
  | expired | reverted => []

def weight : State → Int
  | created => 0
  | bound => 1
  | observed => 2
  | verified => 3
  | attested => 4
  | fulfilled => 5
  | finalized => 6
  | disputed => -1
  | expired => -2
  | reverted => -3

end State

/-- An intent, as far as its state goes. -/
structure Intent where
  state : State
  /-- Missing until the first transition. -/
  state_history : Option (List Fields)
  state_updated : Option String

def isTerminal (intent : Intent) : Bool := intent.state ∈ [State.expired, .reverted]

def isReadyForMutation (intent : Intent) : Bool := intent.state ∈ [State.attested]

def allowedTransitions (intent : Intent) : List State := intent.state.transitions

def canTransition (intent : Intent) (nextState : String) : Bool :=
  nextState ∈ (allowedTransitions intent).map State.name

def unknownState (nextState : String) : Error :=
  .error ("[StateMachine] Unknown state: \"" ++ nextState ++ "\"")

def illegalTransition (current : State) (nextState : String) : Error :=
  .error ("[StateMachine] Illegal transition: " ++ current.name ++ " → " ++ nextState ++ " (allowed from "
    ++ current.name ++ ": [" ++ String.intercalate ", " (current.transitions.map State.name) ++ "])")

/-- The entry of a transition; the metadata may write over what it says. -/
def historyEntry (current nextState : State) (at_ : String) (metadata : Fields) : Fields :=
  Node.merge [("from", .str current.name), ("to", .str nextState.name), ("at", .str at_)] metadata

/-- `transition`, which reads the clock twice. A name that `STATES` inherits is no state either. -/
def transition (nextState : String) (metadata : Fields) (at_ updated : String) (intent : Intent) : JsM Intent :=
  
  match State.all.find? (·.name = nextState) with
  | none =>
    if nextState ∈ Realm.objectPrototypeKeys then throw (illegalTransition intent.state nextState)
    else throw (unknownState nextState)
  | some next =>
    if next ∈ intent.state.transitions then
      return {
        state := next
        state_history := some (intent.state_history.getD [] ++ [historyEntry intent.state next at_ metadata])
        state_updated := some updated }
    else throw (illegalTransition intent.state nextState)

/-! ## One transition -/

section
variable {nextState at_ updated : String} {metadata : Fields} {intent intent' : Intent}

theorem name_injective : Function.Injective State.name := by
  intro s t h
  cases s <;> cases t <;> first | rfl | exact absurd h (by decide)

/-- A transition goes to a state that is allowed, and adds its entry. -/
theorem transition_eq_ok (h : transition nextState metadata at_ updated intent = .ok intent') :
    ∃ next : State, next.name = nextState ∧ next ∈ intent.state.transitions
      ∧ intent' = ⟨next, some (intent.state_history.getD [] ++ [historyEntry intent.state next at_ metadata]),
        some updated⟩ := by
  unfold transition at h
  cases hfind : State.all.find? (·.name = nextState) with
  | none =>
    rw [hfind] at h
    dsimp only at h
    split at h <;> cases h
  | some next =>
    rw [hfind] at h
    dsimp only at h
    split at h
    · next hallowed =>
      cases h
      have hname := List.find?_some hfind
      exact ⟨next, of_decide_eq_true hname, hallowed, rfl⟩
    · cases h

end

/-! ## Courses -/

structure Request where
  nextState : String
  metadata : Fields
  at_ : String
  updated : String

/-- An intent, and the states it has gone through since it was created. -/
structure Course where
  intent : Intent
  visited : List State

def Course.step (c : Course) (r : Request) : Course :=
  match transition r.nextState r.metadata r.at_ r.updated c.intent with
  | .ok intent => ⟨intent, c.visited ++ [intent.state]⟩
  | .error _ => c

/-- A new intent, without a history. -/
def Course.start : Course := ⟨⟨.created, none, none⟩, []⟩

def Course.after (requests : List Request) : Course := requests.foldl Course.step .start

/-- A course by steps: nothing has happened, or an allowed transition comes last. -/
inductive Course.Runs : Course → Prop where
  | start : Runs .start
  | step {c : Course} {next : State} {entry : Fields} {updated : Option String} (h : Runs c)
      (hnext : next ∈ c.intent.state.transitions) :
      Runs ⟨⟨next, some (c.intent.state_history.getD [] ++ [entry]), updated⟩, c.visited ++ [next]⟩

theorem Course.runs_after (requests : List Request) : Runs (.after requests) := by
  unfold Course.after
  induction requests using List.reverseRecOn with
  | nil => exact .start
  | append_singleton requests r ih =>
    rw [List.foldl_append, List.foldl_cons, List.foldl_nil]
    generalize requests.foldl Course.step .start = c at *
    unfold Course.step
    cases h : transition r.nextState r.metadata r.at_ r.updated c.intent with
    | error e => exact ih
    | ok intent =>
      obtain ⟨next, -, hnext, rfl⟩ := transition_eq_ok h
      exact .step ih hnext

/-! ## How long a course is -/

/-- How many transitions a state leaves open until the next dispute. -/
def State.rank : State → Nat
  | created => 6
  | bound => 5
  | observed => 4
  | verified => 3
  | attested | disputed => 2
  | fulfilled => 1
  | finalized | expired | reverted => 0

theorem rank_lt_of_transition {s t : State} (h : t ∈ s.transitions) :
    t.rank + 1 ≤ s.rank + if t = .disputed then 3 else 0 := by
  revert h
  cases s <;> cases t <;> decide

/-- An intent takes at most six transitions, and three more for every dispute. -/
theorem course_bounded (requests : List Request) :
    (Course.after requests).visited.length + (Course.after requests).intent.state.rank ≤
      6 + 3 * (Course.after requests).visited.count .disputed := by
  have hruns := Course.runs_after requests
  generalize Course.after requests = c at *
  induction hruns with
  | start => decide
  | @step c next entry updated h hnext ih =>
    have hrank := rank_lt_of_transition hnext
    rw [List.length_append, List.count_append, List.length_singleton, List.count_singleton]
    dsimp only
    by_cases hdisputed : next = .disputed
    · subst hdisputed
      simp only [if_true, beq_self_eq_true] at hrank ⊢
      omega
    · have hbeq : (next == State.disputed) = false := beq_false_of_ne hdisputed
      simp only [hdisputed, hbeq, if_false, Bool.false_eq_true] at hrank ⊢
      omega

/-! ## A course without a dispute -/

/-- The stages of an intent, after its creation. -/
def stages : List State := [.bound, .observed, .verified, .attested, .fulfilled, .finalized]

theorem next_stage {s t : State} (h : t ∈ s.transitions) (hs : s ≠ .disputed) (ht : 0 ≤ t.weight) :
    0 ≤ s.weight ∧ stages.take t.weight.toNat = stages.take s.weight.toNat ++ [t] := by
  revert h hs ht
  cases s <;> cases t <;> decide

theorem Course.Runs.state_mem {c : Course} (h : c.Runs) (hne : c.intent.state ≠ .created) :
    c.intent.state ∈ c.visited := by
  cases h with
  | start => exact absurd rfl hne
  | step h hnext => exact List.mem_append_right _ List.mem_cons_self

/-- An intent that was never disputed is at a stage only after all stages before it, one by one. -/
theorem undisputed_course (requests : List Request)
    (hundisputed : .disputed ∉ (Course.after requests).visited)
    (hstage : 0 ≤ (Course.after requests).intent.state.weight) :
    (Course.after requests).visited = stages.take (Course.after requests).intent.state.weight.toNat := by
  have hruns := Course.runs_after requests
  generalize Course.after requests = c at *
  induction hruns with
  | start => rfl
  | @step c next entry updated h hnext ih =>
    rw [List.mem_append, not_or] at hundisputed
    have hstate : c.intent.state ≠ .disputed := by
      intro hdisputed
      have hmem := h.state_mem (by rw [hdisputed]; decide)
      rw [hdisputed] at hmem
      exact hundisputed.1 hmem
    obtain ⟨hweight, htake⟩ := next_stage hnext hstate hstage
    dsimp only
    rw [htake, ih hundisputed.1 hweight]

/-- The whole course of an intent, with a request that is refused. -/
def settledRequests : List Request :=
  ["BOUND", "OBSERVED", "FULFILLED", "VERIFIED", "ATTESTED", "FULFILLED", "FINALIZED"].map fun nextState =>
    ⟨nextState, [], "2026-06-26T12:00:00.000Z", "2026-06-26T12:00:00.000Z"⟩

theorem settled_visits_stages : (Course.after settledRequests).visited =
    stages.take (Course.after settledRequests).intent.state.weight.toNat :=
  undisputed_course settledRequests (by decide) (by decide)

/-! ## What the history tells -/

/-- The entries tell of the transitions from one state to the next. -/
def Tells : State → List State → List Fields → Prop
  | _, [], [] => True
  | s, t :: visited, entry :: entries =>
    entry.get "from" = some (.str s.name) ∧ entry.get "to" = some (.str t.name) ∧ Tells t visited entries
  | _, _, _ => False

section
variable {s next : State} {visited : List State} {entries : List Fields} {entry : Fields}

theorem Tells.snoc (h : Tells s visited entries)
    (hfrom : entry.get "from" = some (.str ((s :: visited).getLast (List.cons_ne_nil _ _)).name))
    (hto : entry.get "to" = some (.str next.name)) : Tells s (visited ++ [next]) (entries ++ [entry]) := by
  induction visited generalizing s entries with
  | nil =>
    cases entries with
    | nil => exact ⟨hfrom, hto, trivial⟩
    | cons e entries => exact h.elim
  | cons t visited ih =>
    cases entries with
    | nil => exact h.elim
    | cons e entries =>
      obtain ⟨hs, ht, hrest⟩ := h
      exact ⟨hs, ht, ih hrest hfrom⟩

theorem get_historyEntry {metadata : Fields} {at_ : String} (hfrom : metadata.get "from" = none)
    (hto : metadata.get "to" = none) :
    (historyEntry s next at_ metadata).get "from" = some (.str s.name)
      ∧ (historyEntry s next at_ metadata).get "to" = some (.str next.name) := by
  have habsent : ∀ {k : String} {v : Option Json}, metadata.get k = none →
      ∀ p ∈ metadata, p.1 = k → some p.2 = v := by
    intro k v hnone p hp hk
    have hne := List.lookup_eq_none_iff.mp hnone p hp
    simp [hk] at hne
  exact ⟨Node.get_merge_of_agrees rfl (habsent hfrom), Node.get_merge_of_agrees rfl (habsent hto)⟩

end

/-- Unless the metadata writes over it, the history tells how the intent went from state to state, each time as
it is allowed, to the one it is in. -/
theorem history_tells (requests : List Request)
    (hmetadata : ∀ r ∈ requests, r.metadata.get "from" = none ∧ r.metadata.get "to" = none) :
    Tells .created (Course.after requests).visited ((Course.after requests).intent.state_history.getD [])
      ∧ List.IsChain (fun s t => t ∈ s.transitions) (.created :: (Course.after requests).visited)
      ∧ (.created :: (Course.after requests).visited).getLast (List.cons_ne_nil _ _) =
        (Course.after requests).intent.state := by
  induction requests using List.reverseRecOn with
  | nil => exact ⟨trivial, .singleton _, rfl⟩
  | append_singleton requests r ih =>
    obtain ⟨htells, hchain, hlast⟩ := ih fun r' hr' => hmetadata r' (List.mem_append_left _ hr')
    obtain ⟨hfrom, hto⟩ := hmetadata r (List.mem_append_right _ List.mem_cons_self)
    unfold Course.after at *
    rw [List.foldl_append, List.foldl_cons, List.foldl_nil]
    generalize requests.foldl Course.step .start = c at *
    unfold Course.step
    cases h : transition r.nextState r.metadata r.at_ r.updated c.intent with
    | error e => exact ⟨htells, hchain, hlast⟩
    | ok intent =>
      obtain ⟨next, -, hnext, rfl⟩ := transition_eq_ok h
      have hentry := @get_historyEntry c.intent.state next r.metadata r.at_ hfrom hto
      refine ⟨htells.snoc (hlast ▸ hentry.1) hentry.2, ?_, ?_⟩
      · rw [← List.cons_append, List.isChain_append]
        refine ⟨hchain, .singleton _, ?_⟩
        intro s hs t ht
        rw [List.getLast?_eq_some_getLast (List.cons_ne_nil _ _), Option.mem_some_iff, hlast] at hs
        rw [List.head?_cons, Option.mem_some_iff] at ht
        exact hs ▸ ht ▸ hnext
      · simp

/-- The metadata gives a reason. -/
def disputedRequests : List Request :=
  [⟨"BOUND", [("reason", .str "deposit seen")], "2026-06-26T12:00:00.000Z", "2026-06-26T12:00:00.000Z"⟩,
    ⟨"DISPUTED", [("actor", .str "validator")], "2026-06-26T12:01:00.000Z", "2026-06-26T12:01:00.000Z"⟩]

theorem disputed_history_tells :
    Tells .created (Course.after disputedRequests).visited
        ((Course.after disputedRequests).intent.state_history.getD [])
      ∧ List.IsChain (fun s t => t ∈ s.transitions) (.created :: (Course.after disputedRequests).visited)
      ∧ (.created :: (Course.after disputedRequests).visited).getLast (List.cons_ne_nil _ _) =
        (Course.after disputedRequests).intent.state :=
  history_tells disputedRequests (by decide)

end SimpleL1.Settlement.IntentStateMachine
