import SimpleL1.Kernel.State
import Mathlib.Logic.Function.Basic

/-!
# The network simulator

Nodes exchange messages in discrete time. Every fifty ticks each node announces
its height; a node that hears of a larger one asks the sender for the blocks in
between and executes what comes back. A link that is cut loses what is sent over
it, and what is on its way. A panic of the kernel ends the simulation.
-/

namespace SimpleL1.Kernel

open SimpleL1.Lib

structure SimBlock where
  height : UInt64
  parentHash : Hash
  intents : List Intent
  stateRoot : Hash

inductive Message (n : Nat) where
  | knowledgePulse (height : UInt64) (rootHash : Hash)
  | rangeFetchRequest (start stop : UInt64) (requester : Fin n)
  | rangeFetchResponse (blocks : List SimBlock)
  | intentGossip (intent : Intent)

structure Event (n : Nat) where
  deliverAtTick : Nat
  sender : Fin n
  receiver : Fin n
  message : Message n

structure SimulatedNode (n : Nat) where
  state : State
  committedBlocks : List SimBlock
  peerHeights : Fin n → Option UInt64
  isSyncing : Bool

structure RealitySimulator (n : Nat) where
  currentTick : Nat
  nodes : Fin n → SimulatedNode n
  eventQueue : List (Event n)
  topology : Fin n → Fin n → Bool

/-! ## Nodes -/

/-- `let _ = state.apply(intent)`. -/
def tryApply (p : Primitives) (s : State) (intent : Intent) : Option State :=
  match apply p intent s with
  | .ok _ s' => some s'
  | .error (.err _) s' => some s'
  | .error (.panic _) _ => none

/-- The intents are applied one after another; those that fail are passed over. -/
def applyEach (p : Primitives) (s : State) (intents : List Intent) : Option State :=
  intents.foldlM (tryApply p) s

def zeroHash : Hash := ⟨List.replicate 32 0, List.length_replicate⟩

section
variable {n : Nat} (p : Primitives)

def SimulatedNode.commitLocalBlock (node : SimulatedNode n) (intents : List Intent) :
    Option (SimulatedNode n) := do
  let parentHash := (node.committedBlocks.getLast?.map SimBlock.stateRoot).getD zeroHash
  let state ← applyEach p node.state intents
  let stateRoot ← (state.rootHash p).toOption
  let block := { height := state.ledgerHeight, parentHash, intents, stateRoot }
  return { node with state, committedBlocks := node.committedBlocks ++ [block] }

namespace RealitySimulator

def setNode (sim : RealitySimulator n) (i : Fin n) (node : SimulatedNode n) : RealitySimulator n :=
  { sim with nodes := Function.update sim.nodes i node }

/-! ## The topology -/

def applyEclipseAttack (sim : RealitySimulator n) (target : Fin n) : RealitySimulator n :=
  { sim with
    topology := fun i j => if i ≠ j ∧ (i = target ∨ j = target) then false else sim.topology i j }

def healTopology (sim : RealitySimulator n) : RealitySimulator n :=
  { sim with topology := fun _ _ => true }

/-! ## Messages -/

/-- The event goes before the first one that is delivered later. -/
def insertEvent (event : Event n) (queue : List (Event n)) : List (Event n) :=
  queue.takeWhile (·.deliverAtTick ≤ event.deliverAtTick) ++ event ::
    queue.dropWhile (·.deliverAtTick ≤ event.deliverAtTick)

def scheduleSend (sim : RealitySimulator n) (sender receiver : Fin n) (message : Message n)
    (baseLatency : Nat) : RealitySimulator n :=
  if sim.topology sender receiver then
    let event := { deliverAtTick := sim.currentTick + baseLatency, sender, receiver, message }
    { sim with eventQueue := insertEvent event sim.eventQueue }
  else sim

/-- The blocks are executed and committed, each as it stands. -/
def reconcile (node : SimulatedNode n) (blocks : List SimBlock) : Option (SimulatedNode n) :=
  blocks.foldlM (fun node block => do
    let state ← applyEach p node.state block.intents
    return { node with state, committedBlocks := node.committedBlocks ++ [block] }) node

def handleMessage (sim : RealitySimulator n) (sender receiver : Fin n) :
    Message n → Option (RealitySimulator n)
  | .knowledgePulse height _ =>
    let node := sim.nodes receiver
    let node := { node with peerHeights := Function.update node.peerHeights sender (some height) }
    let myHeight := node.state.ledgerHeight
    if height > myHeight ∧ ¬ node.isSyncing then
      let request := .rangeFetchRequest (myHeight + 1) height receiver
      some ((sim.setNode receiver { node with isSyncing := true }).scheduleSend receiver sender request 10)
    else some (sim.setNode receiver node)
  | .rangeFetchRequest start stop requester =>
    let blocks := (sim.nodes receiver).committedBlocks.filter fun block =>
      start ≤ block.height ∧ block.height ≤ stop
    some (sim.scheduleSend receiver requester (.rangeFetchResponse blocks) 40)
  | .rangeFetchResponse blocks => do
    let node ← reconcile p (sim.nodes receiver) blocks
    return sim.setNode receiver { node with isSyncing := false }
  | .intentGossip _ => some sim

/-! ## Time -/

/-- The events that are due are delivered, at most as many as `fuel` says. -/
def deliver : Nat → RealitySimulator n → Option (RealitySimulator n)
  | 0, sim => some sim
  | fuel + 1, sim =>
    match sim.eventQueue with
    | [] => some sim
    | event :: queue =>
      if event.deliverAtTick ≤ sim.currentTick then do
        let sim := { sim with eventQueue := queue }
        if sim.topology event.sender event.receiver then
          deliver fuel (← sim.handleMessage p event.sender event.receiver event.message)
        else deliver fuel sim
      else some sim

/-- Node `i` announces its height to all others. -/
def pulse (sim : RealitySimulator n) (i : Fin n) : Option (RealitySimulator n) := do
  let node := sim.nodes i
  let rootHash ← (node.state.rootHash p).toOption
  let others := (List.finRange n).filter (· ≠ i)
  return others.foldl (fun sim j =>
    sim.scheduleSend i j (.knowledgePulse node.state.ledgerHeight rootHash) 10) sim

def step (sim : RealitySimulator n) : Option (RealitySimulator n) := do
  let sim := { sim with currentTick := sim.currentTick + 1 }
  let sim ← if sim.currentTick % 50 = 0 then (List.finRange n).foldlM (pulse p) sim else some sim
  deliver p sim.eventQueue.length sim

/-! ## Runs -/

/-- All nodes stand in one state and can reach each other. -/
def start (n : Nat) (s : State) : RealitySimulator n where
  currentTick := 0
  nodes _ := ⟨s, [], fun _ => none, false⟩
  eventQueue := []
  topology _ _ := true

end RealitySimulator

/-- One step of a simulation in which only the leader commits. -/
inductive SimStep (leader : Fin n) : RealitySimulator n → RealitySimulator n → Prop where
  | commit {sim : RealitySimulator n} {node : SimulatedNode n} (intents : List Intent) :
      (sim.nodes leader).commitLocalBlock p intents = some node →
      SimStep leader sim (sim.setNode leader node)
  | tick {sim sim' : RealitySimulator n} : sim.step p = some sim' → SimStep leader sim sim'
  | eclipse (sim : RealitySimulator n) (target : Fin n) :
      SimStep leader sim (sim.applyEclipseAttack target)
  | heal (sim : RealitySimulator n) : SimStep leader sim sim.healTopology

/-! ## Every event that is due is delivered -/

namespace RealitySimulator

variable {p}

/-- How many events are due at the tick. -/
def dueAt (tick : Nat) (queue : List (Event n)) : Nat :=
  (queue.filter (·.deliverAtTick ≤ tick)).length

theorem insertEvent_perm (event : Event n) (queue : List (Event n)) :
    (insertEvent event queue).Perm (event :: queue) := by
  unfold insertEvent
  refine List.perm_middle.trans (List.Perm.of_eq ?_)
  rw [List.takeWhile_append_dropWhile]

/-- What is sent is due later. -/
theorem dueAt_scheduleSend (sim : RealitySimulator n) {sender receiver : Fin n}
    {message : Message n} {latency : Nat} (hlatency : 0 < latency) :
    dueAt sim.currentTick (sim.scheduleSend sender receiver message latency).eventQueue =
      dueAt sim.currentTick sim.eventQueue := by
  unfold scheduleSend
  split
  · unfold dueAt
    dsimp only
    rw [((insertEvent_perm _ _).filter _).length_eq, List.filter_cons_of_neg]
    simp
    omega
  · rfl

@[simp] theorem currentTick_scheduleSend {sim : RealitySimulator n} {sender receiver : Fin n}
    {message : Message n} {latency : Nat} :
    (sim.scheduleSend sender receiver message latency).currentTick = sim.currentTick := by
  unfold scheduleSend
  split <;> rfl

/-- A message that is handled makes no event due. -/
theorem handleMessage_due {sim sim' : RealitySimulator n} {sender receiver : Fin n}
    {message : Message n} (h : sim.handleMessage p sender receiver message = some sim') :
    sim'.currentTick = sim.currentTick ∧
      dueAt sim.currentTick sim'.eventQueue = dueAt sim.currentTick sim.eventQueue := by
  cases message with
  | knowledgePulse height rootHash =>
    unfold handleMessage at h
    dsimp only at h
    split at h
    · cases h
      exact ⟨currentTick_scheduleSend, dueAt_scheduleSend (sim.setNode receiver _) (by decide)⟩
    · cases h
      exact ⟨rfl, rfl⟩
  | rangeFetchRequest start stop requester =>
    cases h
    exact ⟨currentTick_scheduleSend, dueAt_scheduleSend _ (by decide)⟩
  | rangeFetchResponse blocks =>
    obtain ⟨node, -, h⟩ := Option.bind_eq_some_iff.mp h
    cases h
    exact ⟨rfl, rfl⟩
  | intentGossip intent =>
    cases h
    exact ⟨rfl, rfl⟩

/-- After the deliveries of a tick no event is due. -/
theorem deliver_done {fuel : Nat} {sim sim' : RealitySimulator n}
    (hfuel : dueAt sim.currentTick sim.eventQueue ≤ fuel) (h : deliver p fuel sim = some sim') :
    ∀ event ∈ sim'.eventQueue.head?, sim'.currentTick < event.deliverAtTick := by
  induction fuel generalizing sim with
  | zero =>
    cases h
    intro event hevent
    by_contra hdue
    have hmem : event ∈ sim'.eventQueue.filter (·.deliverAtTick ≤ sim'.currentTick) :=
      List.mem_filter.mpr ⟨List.mem_of_mem_head? hevent, decide_eq_true (Nat.le_of_not_lt hdue)⟩
    have hpos := List.length_pos_of_mem hmem
    unfold dueAt at hfuel
    omega
  | succ fuel ih =>
    unfold deliver at h
    cases hqueue : sim.eventQueue with
    | nil =>
      rw [hqueue] at h
      cases h
      rw [hqueue]
      exact nofun
    | cons event queue =>
      rw [hqueue] at h hfuel
      dsimp only at h
      by_cases hdue : event.deliverAtTick ≤ sim.currentTick
      · rw [if_pos hdue] at h
        have hrest : dueAt sim.currentTick queue ≤ fuel := by
          unfold dueAt at hfuel ⊢
          rw [List.filter_cons_of_pos (by simpa using hdue), List.length_cons] at hfuel
          omega
        split at h
        · obtain ⟨handled, hhandled, h⟩ := Option.bind_eq_some_iff.mp h
          obtain ⟨htick, hcount⟩ := handleMessage_due hhandled
          refine ih ?_ h
          rw [htick]
          exact hcount.trans_le hrest
        · exact ih hrest h
      · rw [if_neg hdue] at h
        cases h
        rw [hqueue]
        rintro _ ⟨⟩
        exact Nat.lt_of_not_le hdue

end RealitySimulator

end

end SimpleL1.Kernel
