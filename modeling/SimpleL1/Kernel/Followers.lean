import SimpleL1.Kernel.Simulator
import SimpleL1.Kernel.Conservation
import SimpleL1.Lib.Catchup
import Mathlib.Logic.Relation

/-!
# Followers of a leader

A node that catches up asks for the blocks above its own height and asks for
nothing more until they arrive. So its blocks are those of the leader up to its
height, but for blocks in which no intent succeeded.
-/

namespace SimpleL1.Kernel

open SimpleL1.Lib SimpleL1.Lib.Effect

/-! ## Blocks -/

section
variable {p : Primitives} {s s' : State} {intents : List Intent}

/-- Intents that do not raise the height leave the state as it was. -/
theorem applyEach_height (h : applyEach p s intents = some s') :
    s.ledgerHeight.toNat ≤ s'.ledgerHeight.toNat ∧
      (s'.ledgerHeight.toNat = s.ledgerHeight.toNat → s' = s) := by
  induction intents generalizing s with
  | nil =>
    cases h
    exact ⟨Nat.le_refl _, fun _ => rfl⟩
  | cons intent intents ih =>
    obtain ⟨t, happly, hrest⟩ := Option.bind_eq_some_iff.mp h
    obtain ⟨hle, heq⟩ := ih hrest
    unfold tryApply at happly
    split at happly
    · next root t' hok =>
      cases happly
      obtain ⟨-, -, args, -, happlied⟩ := apply_eq_ok hok
      have := happlied.height
      exact ⟨by omega, fun hsame => by omega⟩
    · next e t' herr =>
      cases happly
      rw [apply_eq_err herr] at hle heq
      exact ⟨hle, heq⟩
    · cases happly

end

/-- The kernel as a machine that executes blocks. -/
def machine (p : Primitives) : BlockMachine State SimBlock where
  exec s block := applyEach p s block.intents
  height s := s.ledgerHeight.toNat
  blockHeight block := block.height.toNat
  mono h := (applyEach_height h).1
  idle h := (applyEach_height h).2

/-- The state after the blocks. -/
def runBlocks (p : Primitives) (s : State) (blocks : List SimBlock) : Option State :=
  blocks.foldlM (fun s block => applyEach p s block.intents) s

/-! ## The invariant -/

section
variable {n : Nat}

/-- What the message says is still so. -/
def EventKept (p : Primitives) (leader : Fin n) (s₀ : State) (chain : List SimBlock)
    (nodes : Fin n → SimulatedNode n) (event : Event n) : Prop :=
  match event.message with
  | .knowledgePulse height _ => height.toNat ≤ (nodes leader).state.ledgerHeight.toNat
  | .rangeFetchRequest start stop requester =>
    requester ≠ leader ∧ (nodes requester).isSyncing = true ∧
      start.toNat = (nodes requester).state.ledgerHeight.toNat + 1 ∧
      (nodes requester).state.ledgerHeight.toNat ≤ stop.toNat
  | .rangeFetchResponse blocks =>
    event.receiver ≠ leader ∧ (nodes event.receiver).isSyncing = true ∧
      ∃ t, (machine p).Holds s₀ chain ((nodes event.receiver).committedBlocks ++ blocks) t
  | .intentGossip _ => True

/-- The message is a step of the node's catching up. -/
def awaitedBy (i : Fin n) (event : Event n) : Bool :=
  match event.message with
  | .rangeFetchRequest _ _ requester => requester = i
  | .rangeFetchResponse _ => event.receiver = i
  | _ => false

/-- How many messages the node waits for. -/
def awaited (queue : List (Event n)) (i : Fin n) : Nat := (queue.filter (awaitedBy i)).length

structure SimKept (p : Primitives) (leader : Fin n) (s₀ : State) (chain : List SimBlock)
    (sim : RealitySimulator n) : Prop where
  leads : (machine p).Leads s₀ chain (sim.nodes leader).committedBlocks (sim.nodes leader).state
  holds : ∀ i, (machine p).Holds s₀ chain (sim.nodes i).committedBlocks (sim.nodes i).state
  events : ∀ event ∈ sim.eventQueue, EventKept p leader s₀ chain sim.nodes event
  single : ∀ i, awaited sim.eventQueue i ≤ 1

variable {p : Primitives} {leader : Fin n} {s₀ : State} {chain : List SimBlock}
  {sim sim' : RealitySimulator n} {event : Event n} {i : Fin n}

theorem awaited_cons (queue : List (Event n)) :
    awaited (event :: queue) i = awaited queue i + if awaitedBy i event then 1 else 0 := by
  unfold awaited
  rw [List.filter_cons]
  split <;> rfl

/-- Nothing is awaited by a node that is not catching up. -/
theorem SimKept.awaited_eq_zero (h : SimKept p leader s₀ chain sim)
    (hidle : (sim.nodes i).isSyncing = false) : awaited sim.eventQueue i = 0 := by
  unfold awaited
  rw [List.length_eq_zero_iff, List.filter_eq_nil_iff]
  intro event hevent hawaited
  have hkept := h.events event hevent
  unfold awaitedBy at hawaited
  unfold EventKept at hkept
  split at hkept
  · next heq => rw [heq] at hawaited; cases hawaited
  · next heq =>
    rw [heq] at hawaited
    rw [← of_decide_eq_true hawaited, hkept.2.1] at hidle
    cases hidle
  · next heq =>
    rw [heq] at hawaited
    rw [← of_decide_eq_true hawaited, hkept.2.1] at hidle
    cases hidle
  · next heq => rw [heq] at hawaited; cases hawaited

/-! ## Messages -/

theorem SimKept.scheduleSend (h : SimKept p leader s₀ chain sim) {sender receiver : Fin n}
    {message : Message n} {latency : Nat}
    (hkept : ∀ tick, EventKept p leader s₀ chain sim.nodes ⟨tick, sender, receiver, message⟩)
    (hawaited : ∀ i tick, awaitedBy i ⟨tick, sender, receiver, message⟩ = true →
      awaited sim.eventQueue i = 0) :
    SimKept p leader s₀ chain (sim.scheduleSend sender receiver message latency) := by
  unfold RealitySimulator.scheduleSend
  split
  · have hperm := RealitySimulator.insertEvent_perm
      ⟨sim.currentTick + latency, sender, receiver, message⟩ sim.eventQueue
    refine ⟨h.leads, h.holds, fun event hevent => ?_, fun i => ?_⟩
    · rcases List.mem_cons.mp (hperm.mem_iff.mp hevent) with rfl | hevent
      · exact hkept _
      · exact h.events event hevent
    · have hcount := (hperm.filter (awaitedBy i)).length_eq
      have hsingle := h.single i
      refine hcount.trans_le ((awaited_cons sim.eventQueue).trans_le ?_)
      split
      · next haw =>
        rw [hawaited i _ haw]
      · exact hsingle
  · exact h

theorem nodes_setNode (sim : RealitySimulator n) (i : Fin n) (node : SimulatedNode n) :
    (sim.setNode i node).nodes i = node := Function.update_self ..

theorem nodes_scheduleSend {sender receiver : Fin n} {message : Message n} {latency : Nat} :
    (sim.scheduleSend sender receiver message latency).nodes = sim.nodes := by
  unfold RealitySimulator.scheduleSend
  split <;> rfl

/-- The node goes on with the same state and blocks, and does not stop catching up. -/
theorem SimKept.setNode (h : SimKept p leader s₀ chain sim) {node : SimulatedNode n}
    (hstate : node.state = (sim.nodes i).state)
    (hblocks : node.committedBlocks = (sim.nodes i).committedBlocks)
    (hsyncing : (sim.nodes i).isSyncing = true → node.isSyncing = true) :
    SimKept p leader s₀ chain (sim.setNode i node) := by
  have hstates : ∀ j, ((sim.setNode i node).nodes j).state = (sim.nodes j).state := by
    intro j
    by_cases hj : j = i
    · rw [hj, ← hstate]
      exact congrArg _ (Function.update_self ..)
    · exact congrArg _ (Function.update_of_ne hj ..)
  have hcommitted : ∀ j,
      ((sim.setNode i node).nodes j).committedBlocks = (sim.nodes j).committedBlocks := by
    intro j
    by_cases hj : j = i
    · rw [hj, ← hblocks]
      exact congrArg _ (Function.update_self ..)
    · exact congrArg _ (Function.update_of_ne hj ..)
  have hsync : ∀ j, (sim.nodes j).isSyncing = true →
      ((sim.setNode i node).nodes j).isSyncing = true := by
    intro j hj
    by_cases hji : j = i
    · subst hji
      exact (congrArg _ (Function.update_self ..)).trans (hsyncing hj)
    · exact (congrArg _ (Function.update_of_ne hji ..)).trans hj
  refine ⟨?_, fun j => ?_, fun event hevent => ?_, h.single⟩
  · rw [hstates, hcommitted]
    exact h.leads
  · rw [hstates, hcommitted]
    exact h.holds j
  · have hkept := h.events event hevent
    unfold EventKept at hkept ⊢
    split
    · next heq =>
      rw [heq] at hkept
      rw [hstates]
      exact hkept
    · next heq =>
      rw [heq] at hkept
      rw [hstates]
      exact ⟨hkept.1, hsync _ hkept.2.1, hkept.2.2⟩
    · next heq =>
      rw [heq] at hkept
      rw [hcommitted]
      exact ⟨hkept.1, hsync _ hkept.2.1, hkept.2.2⟩
    · trivial

/-- The blocks are executed one after another. -/
theorem reconcile_eq_some {node node' : SimulatedNode n} {blocks : List SimBlock}
    (h : RealitySimulator.reconcile p node blocks = some node') :
    node'.committedBlocks = node.committedBlocks ++ blocks ∧
      (machine p).run node.state blocks = some node'.state := by
  induction blocks generalizing node with
  | nil =>
    cases h
    exact ⟨(List.append_nil _).symm, rfl⟩
  | cons block blocks ih =>
    obtain ⟨next, hnext, hrest⟩ := Option.bind_eq_some_iff.mp h
    obtain ⟨state, hstate, hnext⟩ := Option.bind_eq_some_iff.mp hnext
    cases hnext
    obtain ⟨hblocks, hrun⟩ := ih hrest
    refine ⟨by rw [hblocks, List.append_assoc]; rfl, ?_⟩
    rw [BlockMachine.run_cons, show (machine p).exec node.state block = some state from hstate]
    exact hrun

/-- The blocks that were waited for bring the node further. -/
theorem SimKept.receive (h : SimKept p leader s₀ chain sim) {node : SimulatedNode n}
    {blocks : List SimBlock} {t : State} (hne : i ≠ leader) (hzero : awaited sim.eventQueue i = 0)
    (ht : (machine p).Holds s₀ chain ((sim.nodes i).committedBlocks ++ blocks) t)
    (hnode : RealitySimulator.reconcile p (sim.nodes i) blocks = some node) :
    SimKept p leader s₀ chain (sim.setNode i { node with isSyncing := false }) := by
  obtain ⟨hblocks, hrun⟩ := reconcile_eq_some hnode
  have hstate : node.state = t := by
    have hall := BlockMachine.Presents.run_blocks ht
    rw [BlockMachine.run_append, BlockMachine.Presents.run_blocks (h.holds i)] at hall
    exact Option.some.inj (hrun.symm.trans hall)
  have hother : ∀ j, j ≠ i →
      (sim.setNode i { node with isSyncing := false }).nodes j = sim.nodes j := fun j hj =>
    Function.update_of_ne hj ..
  have hself : (sim.setNode i { node with isSyncing := false }).nodes i =
      { node with isSyncing := false } := Function.update_self ..
  refine ⟨?_, fun j => ?_, fun event hevent => ?_, h.single⟩
  · rw [hother leader hne.symm]
    exact h.leads
  · by_cases hj : j = i
    · rw [hj, hself]
      show (machine p).Holds s₀ chain node.committedBlocks node.state
      rw [hblocks, hstate]
      exact ht
    · rw [hother j hj]
      exact h.holds j
  · -- No message concerns the node any more.
    have hnot : awaitedBy i event = false := by
      unfold awaited at hzero
      rw [List.length_eq_zero_iff, List.filter_eq_nil_iff] at hzero
      exact Bool.eq_false_of_not_eq_true (hzero event hevent)
    have hkept := h.events event hevent
    unfold awaitedBy at hnot
    unfold EventKept at hkept ⊢
    split
    · next heq =>
      rw [heq] at hkept
      rw [hother leader hne.symm]
      exact hkept
    · next start stop requester heq =>
      rw [heq] at hkept hnot
      rw [hother requester (of_decide_eq_false hnot)]
      exact hkept
    · next heq =>
      rw [heq] at hkept hnot
      rw [hother event.receiver (of_decide_eq_false hnot)]
      exact hkept
    · trivial

theorem filter_eq_between {start stop : UInt64} {height : Nat} (hstart : start.toNat = height + 1)
    (blocks : List SimBlock) :
    blocks.filter (fun block => start ≤ block.height ∧ block.height ≤ stop) =
      (machine p).between blocks height stop.toNat := by
  refine List.filter_congr fun block _ => decide_eq_decide.mpr ?_
  rw [UInt64.le_iff_toNat_le, UInt64.le_iff_toNat_le, hstart]
  exact Iff.rfl

theorem SimKept.handle (h : SimKept p leader s₀ chain sim)
    (hkept : EventKept p leader s₀ chain sim.nodes event)
    (hzero : ∀ i, awaitedBy i event = true → awaited sim.eventQueue i = 0)
    (hhandle : sim.handleMessage p event.sender event.receiver event.message = some sim') :
    SimKept p leader s₀ chain sim' := by
  unfold EventKept at hkept
  unfold awaitedBy at hzero
  unfold RealitySimulator.handleMessage at hhandle
  split at hkept
  · next height root heq =>
    rw [heq] at hhandle
    dsimp only at hhandle
    split at hhandle
    · next hmore =>
      cases hhandle
      obtain ⟨hgt, hidle⟩ := hmore
      have hlt := UInt64.lt_iff_toNat_lt.mp hgt
      refine SimKept.scheduleSend ?_ (fun tick => ?_) fun i tick hi => ?_
      · exact h.setNode rfl rfl fun _ => rfl
      · have hself := nodes_setNode sim event.receiver
        refine ⟨?_, by rw [hself], ?_, ?_⟩
        · intro hleader
          rw [hleader] at hlt
          exact Nat.not_lt_of_le hkept hlt
        · have := height.toNat_lt
          rw [hself, UInt64.toNat_add, UInt64.toNat_one]
          exact Nat.mod_eq_of_lt (by omega)
        · rw [hself]
          exact Nat.le_of_lt hlt
      · cases of_decide_eq_true hi
        exact h.awaited_eq_zero (Bool.eq_false_of_not_eq_true hidle)
    · cases hhandle
      exact h.setNode rfl rfl id
  · next start stop requester heq =>
    rw [heq] at hhandle hzero
    cases hhandle
    obtain ⟨hne, hsync, hstart, hstop⟩ := hkept
    refine h.scheduleSend (fun tick => ⟨hne, hsync, ?_⟩) fun i tick hi => hzero i hi
    rw [filter_eq_between (p := p) hstart]
    exact (h.holds requester).catch_up h.leads (h.holds event.receiver) hstop
  · next blocks heq =>
    rw [heq] at hhandle hzero
    obtain ⟨node, hnode, hhandle⟩ := Option.bind_eq_some_iff.mp hhandle
    cases hhandle
    obtain ⟨hne, -, t, ht⟩ := hkept
    exact h.receive hne (hzero _ (decide_eq_true rfl)) ht hnode
  · next heq =>
    rw [heq] at hhandle
    cases hhandle
    exact h

/-! ## Steps -/

/-- The node that waits for the first message waits for no other one. -/
theorem SimKept.pop (h : SimKept p leader s₀ chain sim) {queue : List (Event n)}
    (hqueue : sim.eventQueue = event :: queue) :
    SimKept p leader s₀ chain { sim with eventQueue := queue } ∧
      ∀ i, awaitedBy i event = true → awaited queue i = 0 := by
  have hsingle : ∀ i, (awaited queue i + if awaitedBy i event then 1 else 0) ≤ 1 := by
    intro i
    rw [← awaited_cons, ← hqueue]
    exact h.single i
  refine ⟨⟨h.leads, h.holds, fun event' hevent => ?_, fun i => ?_⟩, fun i hi => ?_⟩
  · exact h.events event' (hqueue ▸ List.mem_cons_of_mem event hevent)
  · exact (Nat.le_add_right _ _).trans (hsingle i)
  · have := hsingle i
    rw [if_pos hi] at this
    omega

theorem SimKept.deliver {fuel : Nat} (h : SimKept p leader s₀ chain sim)
    (hrun : RealitySimulator.deliver p fuel sim = some sim') :
    SimKept p leader s₀ chain sim' := by
  induction fuel generalizing sim with
  | zero =>
    cases hrun
    exact h
  | succ fuel ih =>
    unfold RealitySimulator.deliver at hrun
    split at hrun
    · cases hrun
      exact h
    · next event queue hqueue =>
      obtain ⟨hpop, hzero⟩ := h.pop hqueue
      split at hrun
      · dsimp only at hrun
        split at hrun
        · obtain ⟨handled, hhandled, hrun⟩ := Option.bind_eq_some_iff.mp hrun
          have hkept := h.events event (hqueue ▸ List.mem_cons_self)
          exact ih (hpop.handle hkept hzero hhandled) hrun
        · exact ih hpop hrun
      · cases hrun
        exact h

/-- A height that the leader has reached is announced. -/
theorem SimKept.announce {height : UInt64} {root : Hash} (others : List (Fin n))
    (h : SimKept p leader s₀ chain sim)
    (hle : height.toNat ≤ (sim.nodes leader).state.ledgerHeight.toNat) :
    SimKept p leader s₀ chain (others.foldl (fun sim j =>
      sim.scheduleSend i j (.knowledgePulse height root) 10) sim) := by
  induction others generalizing sim with
  | nil => exact h
  | cons j others ih =>
    refine ih (h.scheduleSend (fun tick => hle) nofun) ?_
    rw [nodes_scheduleSend]
    exact hle

theorem SimKept.pulse (h : SimKept p leader s₀ chain sim) (hpulse : sim.pulse p i = some sim') :
    SimKept p leader s₀ chain sim' := by
  obtain ⟨root, -, hsim⟩ := Option.bind_eq_some_iff.mp hpulse
  cases hsim
  exact h.announce _ ((h.holds i).height_le_head h.leads)

theorem SimKept.pulses {nodes : List (Fin n)} (h : SimKept p leader s₀ chain sim)
    (hpulses : nodes.foldlM (RealitySimulator.pulse p) sim = some sim') :
    SimKept p leader s₀ chain sim' := by
  induction nodes generalizing sim with
  | nil =>
    cases hpulses
    exact h
  | cons i nodes ih =>
    obtain ⟨next, hnext, hpulses⟩ := Option.bind_eq_some_iff.mp hpulses
    exact ih (h.pulse hnext) hpulses

theorem SimKept.step (h : SimKept p leader s₀ chain sim) (hstep : sim.step p = some sim') :
    SimKept p leader s₀ chain sim' := by
  have hnext : SimKept p leader s₀ chain { sim with currentTick := sim.currentTick + 1 } :=
    ⟨h.leads, h.holds, h.events, h.single⟩
  unfold RealitySimulator.step at hstep
  dsimp only at hstep
  split at hstep
  · obtain ⟨pulsed, hpulsed, hdeliver⟩ := Option.bind_eq_some_iff.mp hstep
    exact (hnext.pulses hpulsed).deliver hdeliver
  · exact hnext.deliver hstep

theorem commitLocalBlock_eq_some {node node' : SimulatedNode n} {intents : List Intent}
    (h : node.commitLocalBlock p intents = some node') :
    ∃ block : SimBlock, block.height = node'.state.ledgerHeight ∧
      applyEach p node.state block.intents = some node'.state ∧
      node'.committedBlocks = node.committedBlocks ++ [block] := by
  obtain ⟨state, hstate, h⟩ := Option.bind_eq_some_iff.mp h
  obtain ⟨root, -, h⟩ := Option.bind_eq_some_iff.mp h
  cases h
  exact ⟨_, rfl, hstate, rfl⟩

/-- The leader goes on with a chain of which all nodes are still replicas. -/
theorem SimKept.lead (h : SimKept p leader s₀ chain sim) {node : SimulatedNode n}
    {chain' : List SimBlock}
    (hleads : (machine p).Leads s₀ chain' node.committedBlocks node.state)
    (hle : (sim.nodes leader).state.ledgerHeight.toNat ≤ node.state.ledgerHeight.toNat)
    (hgrow : ∀ {blocks t}, (machine p).Holds s₀ chain blocks t → (machine p).Holds s₀ chain' blocks t) :
    SimKept p leader s₀ chain' (sim.setNode leader node) := by
  have hother : ∀ {j}, j ≠ leader → (sim.setNode leader node).nodes j = sim.nodes j := fun hj =>
    Function.update_of_ne hj ..
  refine ⟨?_, fun j => ?_, fun event hevent => ?_, h.single⟩
  · rw [nodes_setNode]
    exact hleads
  · by_cases hj : j = leader
    · rw [hj, nodes_setNode]
      exact .of_leads hleads
    · rw [hother hj]
      exact hgrow (h.holds j)
  · have hkept := h.events event hevent
    unfold EventKept at hkept ⊢
    split
    · next heq =>
      rw [heq] at hkept
      rw [nodes_setNode]
      exact hkept.trans hle
    · next heq =>
      rw [heq] at hkept
      rw [hother hkept.1]
      exact hkept
    · next heq =>
      rw [heq] at hkept
      obtain ⟨hne, hsync, t, ht⟩ := hkept
      rw [hother hne]
      exact ⟨hne, hsync, t, hgrow ht⟩
    · trivial

/-- What the leader commits is the next block of the chain, or an idle one. -/
theorem SimKept.commit (h : SimKept p leader s₀ chain sim) {node : SimulatedNode n}
    {intents : List Intent} (hcommit : (sim.nodes leader).commitLocalBlock p intents = some node) :
    ∃ chain', SimKept p leader s₀ chain' (sim.setNode leader node) := by
  obtain ⟨block, hheight, hexec, hblocks⟩ := commitLocalBlock_eq_some hcommit
  rcases BlockMachine.Presents.single (m := machine p) (b := block) hexec
    (congrArg UInt64.toNat hheight) with ⟨hsame, hidle⟩ | ⟨hlt, hadvance⟩
  · refine ⟨chain, h.lead ?_ (Nat.le_of_eq hsame.symm) id⟩
    have hleads := h.leads.append hidle
    rwa [List.append_nil, ← hblocks] at hleads
  · refine ⟨chain ++ [block], h.lead ?_ (Nat.le_of_lt hlt) fun hholds => ?_⟩
    · rw [hblocks]
      exact h.leads.append hadvance
    · refine hholds.grow h.leads ?_
      exact hlt.trans_eq (congrArg UInt64.toNat hheight).symm

/-! ## Runs -/

theorem simKept_start (p : Primitives) (leader : Fin n) (s₀ : State) :
    SimKept p leader s₀ [] (.start n s₀) where
  leads := .nil s₀
  holds _ := .nil s₀
  events := nofun
  single _ := Nat.zero_le _

theorem SimKept.simStep (h : SimKept p leader s₀ chain sim) (hstep : SimStep p leader sim sim') :
    ∃ chain', SimKept p leader s₀ chain' sim' := by
  cases hstep with
  | commit intents hcommit => exact h.commit hcommit
  | tick htick => exact ⟨chain, h.step htick⟩
  | eclipse target => exact ⟨chain, h.leads, h.holds, h.events, h.single⟩
  | heal => exact ⟨chain, h.leads, h.holds, h.events, h.single⟩

theorem simKept_run {leader : Fin n} (hrun : Relation.ReflTransGen (SimStep p leader) (.start n s₀) sim) :
    ∃ chain, SimKept p leader s₀ chain sim := by
  induction hrun with
  | refl => exact ⟨[], simKept_start p leader s₀⟩
  | tail _ hstep ih =>
    obtain ⟨chain, hkept⟩ := ih
    exact hkept.simStep hstep

end

/-- Every node is in a state that the leader was in after some of its blocks, and nodes of one
height are in one state. -/
theorem followers_hold_prefix (p : Primitives) {n : Nat} (leader : Fin n) (s₀ : State)
    {sim : RealitySimulator n}
    (hrun : Relation.ReflTransGen (SimStep p leader) (.start n s₀) sim) :
    (∀ i, ∃ k, runBlocks p s₀ ((sim.nodes leader).committedBlocks.take k) =
        some (sim.nodes i).state) ∧
      ∀ i j, (sim.nodes i).state.ledgerHeight = (sim.nodes j).state.ledgerHeight →
        (sim.nodes i).state = (sim.nodes j).state := by
  obtain ⟨chain, h⟩ := simKept_run hrun
  refine ⟨fun i => (h.holds i).exists_take h.leads, fun i j heq => ?_⟩
  exact (h.holds i).eq_of_height (h.holds j) (congrArg UInt64.toNat heq)

/-! ## A follower that catches up -/

/-- The simulation goes on for that many ticks. -/
def ticks (p : Primitives) {n : Nat} : Nat → RealitySimulator n → Option (RealitySimulator n)
  | 0, sim => some sim
  | k + 1, sim => (sim.step p).bind (ticks p k)

theorem ticks_run {p : Primitives} {n k : Nat} {leader : Fin n} {sim sim' : RealitySimulator n}
    (h : ticks p k sim = some sim') : Relation.ReflTransGen (SimStep p leader) sim sim' := by
  induction k generalizing sim with
  | zero =>
    cases h
    exact .refl
  | succ k ih =>
    obtain ⟨next, hnext, hrest⟩ := Option.bind_eq_some_iff.mp h
    exact .head (.tick hnext) (ih hrest)

/-- The leader commits a transfer, and the simulation goes on for that many ticks. -/
def transferThenTicks (k : Nat) : Option (RealitySimulator 2) :=
  (((RealitySimulator.start 2 aliceFunded).nodes 0).commitLocalBlock plain
    [aliceToBob 0 4 [1]]).bind fun node =>
      ticks plain k ((RealitySimulator.start 2 aliceFunded).setNode 0 node)

theorem transferThenTicks_run {k : Nat} {sim : RealitySimulator 2} (h : transferThenTicks k = some sim) :
    Relation.ReflTransGen (SimStep plain 0) (.start 2 aliceFunded) sim := by
  obtain ⟨node, hnode, hticks⟩ := Option.bind_eq_some_iff.mp h
  exact .head (.commit _ hnode) (ticks_run hticks)

theorem transferThenTicks_arrives :
    ((transferThenTicks 110).map fun sim => (sim.nodes 1).state.ledgerHeight) = some 1 := by
  decide +kernel

theorem followers_hold_prefix_transfer :
    ∃ sim, transferThenTicks 110 = some sim ∧ (sim.nodes 1).state.ledgerHeight = 1 ∧
      (∀ i, ∃ k, runBlocks plain aliceFunded ((sim.nodes 0).committedBlocks.take k) =
        some (sim.nodes i).state) ∧
      ∀ i j, (sim.nodes i).state.ledgerHeight = (sim.nodes j).state.ledgerHeight →
        (sim.nodes i).state = (sim.nodes j).state := by
  obtain ⟨sim, hsim, hheight⟩ := Option.map_eq_some_iff.mp transferThenTicks_arrives
  exact ⟨sim, hsim, hheight, followers_hold_prefix plain 0 aliceFunded (transferThenTicks_run hsim)⟩

end SimpleL1.Kernel
