import SimpleL1.Execution.Artifact
import SimpleL1.Lib.Kahn
import Mathlib.Data.List.Sort

/-!
# Scheduling

`topologicalSort` keeps its nodes and counters in maps under the nodes' ids. A node is
told from another by its place in the graph: the maps keep the last node under an id.
-/

namespace SimpleL1.Execution

open SimpleL1.Js SimpleL1.Lib

/-! ## Keys -/

/-- A key of a `Map`: primitives by value, an object by the node whose `id` it is,
with its text if it has one. -/
inductive MapKey where
  | undefined
  | null
  | bool (b : Bool)
  | num (n : Number)
  | str (s : String)
  | object (place : Nat) (text : Option String)
  deriving DecidableEq, Repr

namespace MapKey

def ofId (place : Nat) : Option Json → MapKey
  | none => .undefined
  | some .null => .null
  | some (.bool b) => .bool b
  | some (.num n) => .num n
  | some (.str s) => .str s
  | some v => .object place (Except.toOption v.toStr)

/-- The end of an edge; an object there is no node's `id`. -/
def ofEndpoint : Option Json → Option MapKey
  | some (.arr _) | some (.obj _) => none
  | v => some (ofId 0 v)

/-- `String(key)`. -/
def text? : MapKey → Option String
  | undefined => some "undefined"
  | null => some "null"
  | bool b => some (if b then "true" else "false")
  | num n => some n.toString
  | str s => some s
  | object _ text => text

/-- The order of `sort()`: by text, `undefined` last. -/
def le (a b : MapKey) : Bool :=
  b = undefined || (a ≠ undefined && keyLe (a.text?.getD "") (b.text?.getD ""))

def sorted (keys : List MapKey) : List MapKey := keys.insertionSort fun a b => le a b = true

theorem perm_sorted (keys : List MapKey) : (sorted keys).Perm keys := List.perm_insertionSort _ keys

/-- `keys.sort()`: two or more keys are turned into text to be compared. -/
def sort (keys : List MapKey) : JsM (List MapKey) :=
  let compared := keys.filter (· ≠ undefined)
  if compared.length < 2 ∨ compared.all (·.text?.isSome) then .ok (sorted keys)
  else .error Json.primitiveError

theorem eq_sorted {keys keys' : List MapKey} (h : sort keys = .ok keys') : keys' = sorted keys := by
  unfold sort at h
  dsimp only at h
  split at h
  · exact (Except.ok.inj h).symm
  · cases h

end MapKey

/-! ## Nodes and edges -/

/-- A node and its place in `graph.nodes`. -/
abbrev Entry := Json × Nat

def Entry.key (e : Entry) : MapKey := MapKey.ofId e.2 (e.1.prop "id")

namespace Graph

def entries (g : Graph) : List Entry := g.nodes.zipIdx

def keys (g : Graph) : List MapKey := g.entries.map Entry.key

/-- `byId.get(id)`: the last node with the id. -/
def byId (g : Graph) (id : MapKey) : Option Entry := g.entries.reverse.find? fun e => e.key = id

end Graph

/-- The counters and the targets of each id. -/
structure Links where
  incoming : MapKey → Int
  outgoing : MapKey → List MapKey

def unlinked : Links where
  incoming _ := 0
  outgoing _ := []

def Links.add (l : Links) (source target : MapKey) : Links where
  incoming := Function.update l.incoming target (l.incoming target + 1)
  outgoing := Function.update l.outgoing source (l.outgoing source ++ [target])

/-- The two ends of an edge, if both can be ids. -/
def endpoints (edge : Json) : Option (MapKey × MapKey) :=
  match MapKey.ofEndpoint (edge.prop "from"), MapKey.ofEndpoint (edge.prop "to") with
  | some source, some target => some (source, target)
  | _, _ => none

def unknownNode (edge : Json) : Thrown :=
  .kernel .topologyError "Edge references unknown node" (some edge)

def link (g : Graph) (l : Links) (edge : Json) : KernelM Links := do
  let _ ← fromJs (Node.member (some edge) "from")
  match endpoints edge with
  | some (source, target) =>
    if source ∈ g.keys ∧ target ∈ g.keys then .ok (l.add source target) else .error (unknownNode edge)
  | none => .error (unknownNode edge)

/-! ## The sort -/

/-- A target loses one incoming edge, and is ready when none is left. -/
def release (s : Kahn.State MapKey) (target : MapKey) : JsM (Kahn.State MapKey) := do
  let incoming := Function.update s.incoming target (s.incoming target - 1)
  if s.incoming target - 1 = 0 then
    let ready ← MapKey.sort (s.ready ++ [target])
    .ok { incoming, ready }
  else .ok { incoming, ready := s.ready }

/-- The loop over `ready`; `fuel` bounds its rounds. -/
def loop (g : Graph) (outgoing : MapKey → List MapKey) :
    Nat → Kahn.State MapKey → List Entry → JsM (List Entry × Kahn.State MapKey)
  | 0, s, ordered => .ok (ordered, s)
  | fuel + 1, s, ordered =>
    match s.ready with
    | [] => .ok (ordered, s)
    | id :: ready => do
      let targets ← MapKey.sort (outgoing id)
      let s' ← targets.foldlM release { s with ready }
      loop g outgoing fuel s' (ordered ++ (g.byId id).toList)

def requireNodes : List Json → JsM Unit
  | [] => .ok ()
  | node :: nodes => do
    let _ ← Node.member (some node) "id"
    requireNodes nodes

/-- Each round takes an id from `ready`; `nodes.length` rounds empty it: `ready_sortLoop`. -/
def sortLoop (g : Graph) (l : Links) : JsM (List Entry × Kahn.State MapKey) := do
  let ready ← MapKey.sort ((g.entries.filter fun e => l.incoming e.key = 0).map Entry.key)
  loop g l.outgoing g.nodes.length { incoming := l.incoming, ready } []

def topologicalSort (g : Graph) : KernelM (List Entry) := do
  fromJs (requireNodes g.nodes)
  let l ← g.edges.foldlM (link g) unlinked
  let (ordered, _) ← fromJs (sortLoop g l)
  require (ordered.length = g.nodes.length) .topologyError "Cycle detected in SDGA graph"
  .ok ordered

/-! ## The sort is Kahn's algorithm -/

def Graph.links (g : Graph) : List (MapKey × MapKey) := g.edges.filterMap endpoints

variable {g : Graph} {l l' : Links} {edge : Json} {pairs : List (MapKey × MapKey)}

/-- The counters and targets are those of the edges seen. -/
structure Links.Count (l : Links) (pairs : List (MapKey × MapKey)) : Prop where
  incoming : ∀ k, l.incoming k = Kahn.indegree pairs k
  outgoing : ∀ k, l.outgoing k = Kahn.outgoing pairs k

theorem unlinked_count : unlinked.Count [] := ⟨fun _ => rfl, fun _ => rfl⟩

theorem Links.Count.add (h : l.Count pairs) (source target : MapKey) :
    (l.add source target).Count (pairs ++ [(source, target)]) := by
  refine ⟨fun k => ?_, fun k => ?_⟩
  · have hk := h.incoming k
    unfold Kahn.indegree at hk ⊢
    rw [List.countP_append, List.countP_singleton]
    by_cases heq : target = k
    · subst heq
      simp [Links.add, hk]
    · simp [Links.add, Function.update_of_ne (Ne.symm heq), heq, hk]
  · have hk := h.outgoing k
    unfold Kahn.outgoing at hk ⊢
    rw [List.filter_append, List.map_append, ← hk]
    by_cases heq : source = k
    · subst heq
      simp [Links.add]
    · simp [Links.add, Function.update_of_ne (Ne.symm heq), heq]

/-- An edge that is accepted runs between ids of nodes. -/
theorem link_eq_ok (h : link g l edge = .ok l') : ∃ source target,
    endpoints edge = some (source, target) ∧ source ∈ g.keys ∧ target ∈ g.keys ∧
      l' = l.add source target := by
  unfold link at h
  obtain ⟨_, -, h⟩ := bind_eq_ok.mp h
  cases hends : endpoints edge with
  | none =>
    rw [hends] at h
    cases h
  | some ends =>
    obtain ⟨source, target⟩ := ends
    simp only [hends] at h
    by_cases hmem : source ∈ g.keys ∧ target ∈ g.keys
    · rw [if_pos hmem] at h
      exact ⟨source, target, rfl, hmem.1, hmem.2, (Except.ok.inj h).symm⟩
    · rw [if_neg hmem] at h
      cases h

theorem links_eq_ok {edges : List Json} (h : edges.foldlM (link g) l = .ok l') (hl : l.Count pairs) :
    l'.Count (pairs ++ edges.filterMap endpoints) ∧ ∀ edge ∈ edges, ∃ source target,
      endpoints edge = some (source, target) ∧ source ∈ g.keys ∧ target ∈ g.keys := by
  induction edges generalizing l pairs with
  | nil =>
    cases h
    exact ⟨by simpa using hl, nofun⟩
  | cons edge edges ih =>
    obtain ⟨l1, h1, h⟩ := bind_eq_ok.mp h
    obtain ⟨source, target, hends, hs, ht, rfl⟩ := link_eq_ok h1
    obtain ⟨hcount, hall⟩ := ih h (hl.add source target)
    refine ⟨by simpa [hends] using hcount, fun e he => ?_⟩
    rcases List.mem_cons.mp he with rfl | he
    · exact ⟨source, target, hends, hs, ht⟩
    · exact hall e he

theorem release_eq_ok {s s' : Kahn.State MapKey} {target : MapKey} (h : release s target = .ok s') :
    s' = Kahn.release MapKey.sorted s target := by
  unfold release at h
  unfold Kahn.release
  by_cases hlast : s.incoming target - 1 = 0
  · rw [if_pos hlast] at h
    obtain ⟨ready, hready, h⟩ := Js.bind_eq_ok.mp h
    cases h
    rw [if_pos hlast, MapKey.eq_sorted hready]
  · rw [if_neg hlast] at h
    cases h
    rw [if_neg hlast]

theorem releases_eq_ok {s s' : Kahn.State MapKey} {targets : List MapKey}
    (h : targets.foldlM release s = .ok s') :
    s' = targets.foldl (Kahn.release MapKey.sorted) s := by
  induction targets generalizing s with
  | nil =>
    cases h
    rfl
  | cons target targets ih =>
    obtain ⟨s1, h1, h⟩ := Js.bind_eq_ok.mp h
    rw [ih h, release_eq_ok h1, List.foldl_cons]

theorem loop_eq_ok {outgoing : MapKey → List MapKey} {fuel : Nat} {s s' : Kahn.State MapKey}
    (ids : List MapKey) {ordered : List Entry} (hout : ∀ k, outgoing k = Kahn.outgoing pairs k)
    (h : loop g outgoing fuel s (ids.flatMap fun id => (g.byId id).toList) = .ok (ordered, s')) :
    (Kahn.loop MapKey.sorted pairs fuel s ids).2 = s' ∧
      ordered = (Kahn.loop MapKey.sorted pairs fuel s ids).1.flatMap fun id => (g.byId id).toList := by
  induction fuel generalizing s ids with
  | zero =>
    cases h
    exact ⟨rfl, rfl⟩
  | succ fuel ih =>
    unfold loop at h
    unfold Kahn.loop
    cases hready : s.ready with
    | nil =>
      rw [hready] at h
      cases h
      exact ⟨rfl, rfl⟩
    | cons id ready =>
      simp only [hready] at h
      obtain ⟨targets, htargets, h⟩ := Js.bind_eq_ok.mp h
      obtain ⟨s1, h1, h⟩ := Js.bind_eq_ok.mp h
      have hs1 : s1 = Kahn.take MapKey.sorted pairs s id ready := by
        rw [releases_eq_ok h1, MapKey.eq_sorted htargets, hout]
        rfl
      rw [show (ids.flatMap fun id => (g.byId id).toList) ++ (g.byId id).toList =
        (ids ++ [id]).flatMap fun id => (g.byId id).toList by simp, hs1] at h
      exact ih (ids ++ [id]) h

theorem sortLoop_eq_ok {s : Kahn.State MapKey} {ordered : List Entry} (hcount : l.Count g.links)
    (h : sortLoop g l = .ok (ordered, s)) :
    (Kahn.run MapKey.sorted g.keys g.links).2 = s ∧
      ordered = (Kahn.order MapKey.sorted g.keys g.links).flatMap fun id => (g.byId id).toList := by
  unfold sortLoop at h
  obtain ⟨ready, hready, h⟩ := Js.bind_eq_ok.mp h
  have hstart : ({ incoming := l.incoming, ready } : Kahn.State MapKey) =
      Kahn.start MapKey.sorted g.keys g.links := by
    unfold Kahn.start
    have hin : l.incoming = fun k => (Kahn.indegree g.links k : Int) := funext hcount.incoming
    rw [MapKey.eq_sorted hready, hin]
    congr 2
    unfold Graph.keys
    rw [List.filter_map]
    congr 2
    funext e
    simp
  have hlength : g.nodes.length = g.keys.length := by simp [Graph.keys, Graph.entries]
  rw [hstart, hlength] at h
  exact loop_eq_ok [] hcount.outgoing h

/-- The loop ends because nothing is ready, not because its rounds are used up. -/
theorem ready_sortLoop {s : Kahn.State MapKey} {ordered : List Entry} (hcount : l.Count g.links)
    (htargets : ∀ e ∈ g.links, e.2 ∈ g.keys) (h : sortLoop g l = .ok (ordered, s)) : s.ready = [] := by
  rw [← (sortLoop_eq_ok hcount h).1]
  exact Kahn.run_ready MapKey.perm_sorted htargets

theorem mem_keys_of_links (hall : ∀ edge ∈ g.edges, ∃ source target,
    endpoints edge = some (source, target) ∧ source ∈ g.keys ∧ target ∈ g.keys) :
    ∀ e ∈ g.links, e.2 ∈ g.keys := by
  intro e he
  obtain ⟨edge, hedge, hends⟩ := List.mem_filterMap.mp he
  obtain ⟨source, target, hends', -, ht⟩ := hall edge hedge
  cases hends.symm.trans hends'
  exact ht

/-- What the sort returns: the nodes of the ids in the order of Kahn's algorithm, as many
as there are. -/
theorem topologicalSort_eq_ok {ordered : List Entry} (h : topologicalSort g = .ok ordered) :
    (∀ e ∈ g.links, e.2 ∈ g.keys) ∧
    ordered = (Kahn.order MapKey.sorted g.keys g.links).flatMap (fun id => (g.byId id).toList) ∧
    ordered.length = g.nodes.length := by
  unfold topologicalSort at h
  obtain ⟨_, -, h⟩ := bind_eq_ok.mp h
  obtain ⟨l, hl, h⟩ := bind_eq_ok.mp h
  obtain ⟨⟨ordered', s⟩, hloop, h⟩ := bind_eq_ok.mp h
  obtain ⟨hlen, h⟩ := require_bind_eq_ok.mp h
  cases h
  obtain ⟨hcount, hall⟩ := links_eq_ok hl unlinked_count
  exact ⟨mem_keys_of_links hall, (sortLoop_eq_ok hcount (fromJs_eq_ok.mp hloop)).2, by simpa using hlen⟩

/-! ## When the order is right -/

theorem byId_eq_some {id : MapKey} {e : Entry} (h : g.byId id = some e) : e ∈ g.entries ∧ e.key = id := by
  unfold Graph.byId at h
  exact ⟨List.mem_reverse.mp (List.mem_of_find?_eq_some h), by simpa using List.find?_some h⟩

theorem exists_byId {id : MapKey} (h : id ∈ g.keys) : ∃ e, g.byId id = some e := by
  obtain ⟨e, he, hkey⟩ := List.mem_map.mp h
  unfold Graph.byId
  rw [← Option.isSome_iff_exists, List.find?_isSome]
  exact ⟨e, List.mem_reverse.mpr he, by simpa using hkey⟩

theorem byId_key (hids : g.keys.Nodup) {e : Entry} (he : e ∈ g.entries) : g.byId e.key = some e := by
  obtain ⟨e', h⟩ := exists_byId (List.mem_map_of_mem he)
  obtain ⟨he', hkey⟩ := byId_eq_some h
  rw [h, List.inj_on_of_nodup_map hids he' he hkey]

theorem nodup_entries (g : Graph) : g.entries.Nodup := by
  have h : (g.entries.map Prod.snd).Nodup := by
    unfold Graph.entries
    rw [List.zipIdx_map_snd]
    exact List.nodup_range'
  exact h.of_map

/-- Every node is there once, and the node an edge leaves comes before the node it enters. -/
structure InOrder (g : Graph) (ordered : List Entry) : Prop where
  once : ordered.Perm g.entries
  before : ∀ edge ∈ g.edges, ∀ source ∈ g.entries, ∀ target ∈ g.entries,
    endpoints edge = some (source.key, target.key) →
      ∃ earlier later, ordered = earlier ++ target :: later ∧ source ∈ earlier

/-- What the nodes of some ids are filed under. -/
theorem keys_flatMap {ids : List MapKey} (h : ∀ id ∈ ids, id ∈ g.keys) :
    (ids.flatMap fun id => (g.byId id).toList).map Entry.key = ids := by
  induction ids with
  | nil => rfl
  | cons id ids ih =>
    obtain ⟨e, he⟩ := exists_byId (h id List.mem_cons_self)
    rw [List.flatMap_cons, List.map_append, ih fun i hi => h i (List.mem_cons_of_mem id hi), he]
    show [e.key] ++ ids = id :: ids
    rw [(byId_eq_some he).2, List.singleton_append]

variable {ordered : List Entry}

/-- A graph that is sorted is in order exactly when no id is given twice. -/
theorem inOrder_iff (h : topologicalSort g = .ok ordered) : InOrder g ordered ↔ g.keys.Nodup := by
  obtain ⟨htargets, hordered, hlength⟩ := topologicalSort_eq_ok h
  have hkeys : ordered.map Entry.key = Kahn.order MapKey.sorted g.keys g.links := by
    rw [hordered]
    exact keys_flatMap (Kahn.mem_order MapKey.perm_sorted htargets)
  have hfiled : ∀ e ∈ ordered, g.byId e.key = some e := by
    intro e he
    rw [hordered] at he
    obtain ⟨id, -, he⟩ := List.mem_flatMap.mp he
    have hid : g.byId id = some e := Option.mem_toList.mp he
    rw [(byId_eq_some hid).2, hid]
  constructor
  · intro hin
    refine (nodup_entries g).map_on fun e he e' he' heq => ?_
    have hget := hfiled e (hin.once.mem_iff.mpr he)
    have hget' := hfiled e' (hin.once.mem_iff.mpr he')
    rw [heq, hget'] at hget
    exact (Option.some.inj hget).symm
  · intro hids
    obtain ⟨hnodup, hrespects⟩ := Kahn.order_valid MapKey.perm_sorted hids htargets
    rw [← hkeys] at hnodup hrespects
    have hsub : ordered ⊆ g.entries := fun e he => (byId_eq_some (hfiled e he)).1
    have hperm : ordered.Perm g.entries := by
      refine (List.subperm_of_subset hnodup.of_map hsub).perm_of_length_le ?_
      rw [hlength, Graph.entries, List.length_zipIdx]
    refine ⟨hperm, fun edge hedge source hs target ht hends => ?_⟩
    obtain ⟨earlier, later, hsplit⟩ := List.append_of_mem (hperm.mem_iff.mpr ht)
    refine ⟨earlier, later, hsplit, ?_⟩
    have hmem : source.key ∈ earlier.map Entry.key := by
      refine hrespects (earlier.map Entry.key) target.key (later.map Entry.key) ?_ source.key
        (List.mem_filterMap.mpr ⟨edge, hedge, hends⟩)
      rw [hsplit, List.map_append, List.map_cons]
    obtain ⟨e, he, heq⟩ := List.mem_map.mp hmem
    have hentry : e ∈ g.entries := hsub (hsplit ▸ List.mem_append_left _ he)
    rwa [← List.inj_on_of_nodup_map hids hentry hs heq]

end SimpleL1.Execution
