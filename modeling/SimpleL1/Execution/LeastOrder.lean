import SimpleL1.Execution.Scheduler
import SimpleL1.Lib.KahnLeast

/-!
# The schedule is the least order

Nodes are sorted by the texts of their ids. Where no two ids have one text, a schedule is
the first of all orders that the edges allow, in whatever order the nodes and edges are
listed. Ids of different types can have one text, and are then left as they are listed.
-/

namespace SimpleL1.Execution

open SimpleL1.Js SimpleL1.Lib

/-! ## What a schedule is -/

/-- The id of a node, as it is sorted. -/
def idOf (node : Json) : MapKey := .ofId 0 (node.prop "id")

/-- Every id has a text, and no two have one text. -/
structure Named (g : Graph) : Prop where
  text : ∀ node ∈ g.nodes, (idOf node).text?.isSome = true
  distinct : (g.nodes.map fun node => (idOf node).text?).Nodup

/-- The edge runs from one node to the other. -/
def Joins (edge source target : Json) : Prop := endpoints edge = some (idOf source, idOf target)

/-- Both ends are nodes of the graph. -/
def KnownEnds (g : Graph) (edge : Json) : Prop := ∃ source ∈ g.nodes, ∃ target ∈ g.nodes, Joins edge source target

/-- An edge of the graph runs from one of its nodes to the other. -/
def Precedes (g : Graph) (source target : Json) : Prop :=
  source ∈ g.nodes ∧ target ∈ g.nodes ∧ ∃ edge ∈ g.edges, Joins edge source target

/-- Some node comes before itself. -/
def Cyclic (g : Graph) : Prop := ∃ node ∈ g.nodes, Relation.TransGen (Precedes g) node node

/-- A node or an edge is `null`, of which no field can be read. -/
def Unreadable (g : Graph) : Prop := .null ∈ g.nodes ∨ .null ∈ g.edges

/-- Every node once, and after the nodes that precede it. -/
structure TopologicalOrder (g : Graph) (xs : List Json) : Prop where
  once : xs.Perm g.nodes
  after : ∀ earlier target later, xs = earlier ++ target :: later → ∀ source, Precedes g source target →
    source ∈ earlier

/-- The first node sorts strictly before the second. -/
def SortsBefore (a b : Json) : Prop := MapKey.le (idOf b) (idOf a) = false

structure LeastOrder (g : Graph) (xs : List Json) : Prop where
  order : TopologicalOrder g xs
  least : ∀ ys, TopologicalOrder g ys → Kahn.AtMost SortsBefore xs ys

/-- The nodes in the order in which they run, if nothing is thrown. -/
def schedule (g : Graph) : Option (List Json) := (topologicalSort g).toOption.map (·.map Prod.fst)

/-! ## The order of ids -/

namespace MapKey

theorem le_iff {a b : MapKey} : le a b = true ↔
    b = undefined ∨ (a ≠ undefined ∧ keyLe (a.text?.getD "") (b.text?.getD "") = true) := by
  simp [le]

theorem le_total (a b : MapKey) : le a b = true ∨ le b a = true := by
  rw [le_iff, le_iff]
  by_cases ha : a = undefined
  · exact .inr (.inl ha)
  · by_cases hb : b = undefined
    · exact .inl (.inl hb)
    · rcases lexLe_total ((a.text?.getD "").toList.flatMap utf16) ((b.text?.getD "").toList.flatMap utf16) with h | h
      · exact .inl (.inr ⟨ha, h⟩)
      · exact .inr (.inr ⟨hb, h⟩)

theorem le_trans {a b c : MapKey} (h : le a b = true) (h' : le b c = true) : le a c = true := by
  rw [le_iff] at h h' ⊢
  rcases h' with h' | ⟨hb, h'⟩
  · exact .inl h'
  · rcases h with h | ⟨ha, h⟩
    · exact absurd h hb
    · exact .inr ⟨ha, lexLe_trans h h'⟩

theorem sorted_sorted (keys : List MapKey) : (sorted keys).Pairwise fun a b => le a b = true := by
  have htotal : Std.Total fun a b : MapKey => le a b = true := ⟨le_total⟩
  have htrans : IsTrans MapKey fun a b => le a b = true := ⟨fun _ _ _ => le_trans⟩
  exact List.pairwise_insertionSort _ keys

theorem text_eq_of_le {a b : MapKey} (ha : a.text?.isSome = true) (hb : b.text?.isSome = true)
    (h : le a b = true) (h' : le b a = true) : a.text? = b.text? := by
  rw [le_iff] at h h'
  rcases h with h | ⟨hane, h⟩
  · rcases h' with h' | ⟨hbne, -⟩
    · rw [h, h']
    · exact absurd h hbne
  · rcases h' with h' | ⟨-, h'⟩
    · exact absurd h' hane
    · have heq := keyLe_antisymm h h'
      obtain ⟨s, hs⟩ := Option.isSome_iff_exists.mp ha
      obtain ⟨t, ht⟩ := Option.isSome_iff_exists.mp hb
      rw [hs, ht] at heq ⊢
      exact congrArg some heq

/-- The place of a node does not change how its id is sorted. -/
theorem text_ofId (place place' : Nat) (v : Option Json) : (ofId place v).text? = (ofId place' v).text? := by
  cases v with
  | none => rfl
  | some v => cases v <;> rfl

theorem ofId_undefined (place place' : Nat) (v : Option Json) :
    ofId place v = undefined ↔ ofId place' v = undefined := by
  cases v with
  | none => exact Iff.rfl
  | some v => cases v <;> simp [ofId]

/-- An edge names a node by value. -/
theorem ofEndpoint_eq_ofId {v w : Option Json} {place : Nat} : ofEndpoint v = some (ofId place w) ↔
    ofEndpoint v = some (ofId 0 w) := by
  cases w with
  | none => exact Iff.rfl
  | some w =>
    cases w with
    | arr _ | obj _ =>
      cases v with
      | none => simp [ofEndpoint, ofId]
      | some v => cases v <;> simp [ofEndpoint, ofId]
    | _ => exact Iff.rfl

end MapKey

variable {g : Graph}

theorem le_key (e f : Entry) : MapKey.le e.key f.key = MapKey.le (idOf e.1) (idOf f.1) := by
  unfold Entry.key idOf
  rw [Bool.eq_iff_iff, MapKey.le_iff, MapKey.le_iff, ne_eq, ne_eq, MapKey.ofId_undefined f.2 0,
    MapKey.ofId_undefined e.2 0, MapKey.text_ofId f.2 0, MapKey.text_ofId e.2 0]

theorem SortsBefore.asymm (a b : Json) (h : SortsBefore a b) : ¬ SortsBefore b a := by
  unfold SortsBefore at h ⊢
  rcases MapKey.le_total (idOf a) (idOf b) with hle | hle
  · simp [hle]
  · rw [h] at hle
    cases hle

/-! ## Nodes and their keys -/

theorem map_fst_entries (g : Graph) : g.entries.map Prod.fst = g.nodes := List.zipIdx_map_fst 0 g.nodes

theorem exists_entry {node : Json} (h : node ∈ g.nodes) : ∃ e ∈ g.entries, e.1 = node := by
  rw [← map_fst_entries] at h
  exact List.mem_map.mp h

theorem node_mem {e : Entry} (h : e ∈ g.entries) : e.1 ∈ g.nodes := by
  rw [← map_fst_entries]
  exact List.mem_map_of_mem h

theorem map_text_keys (g : Graph) : g.keys.map MapKey.text? = g.nodes.map fun node => (idOf node).text? := by
  rw [← map_fst_entries, Graph.keys, List.map_map, List.map_map]
  exact List.map_congr_left fun e _ => MapKey.text_ofId _ _ _

theorem Named.keys_nodup (h : Named g) : g.keys.Nodup := by
  have htexts := h.distinct
  rw [← map_text_keys] at htexts
  exact htexts.of_map

theorem Named.text_of_mem (h : Named g) {k : MapKey} (hk : k ∈ g.keys) : k.text?.isSome = true := by
  have hmem := List.mem_map_of_mem (f := MapKey.text?) hk
  rw [map_text_keys] at hmem
  obtain ⟨node, hnode, htext⟩ := List.mem_map.mp hmem
  rw [← htext]
  exact h.text node hnode

/-- A node is in the graph once. -/
theorem Named.entry_eq (h : Named g) {e f : Entry} (he : e ∈ g.entries) (hf : f ∈ g.entries) (heq : e.1 = f.1) :
    e = f := by
  have hnodup : (g.entries.map Prod.fst).Nodup := by
    rw [map_fst_entries]
    exact h.distinct.of_map
  exact List.inj_on_of_nodup_map hnodup he hf heq

theorem Named.sortsBefore (h : Named g) {e f : Entry} (he : e ∈ g.entries) (hf : f ∈ g.entries)
    (hle : MapKey.le e.key f.key = true ∧ e.key ≠ f.key) : SortsBefore e.1 f.1 := by
  unfold SortsBefore
  rw [← le_key, ← Bool.not_eq_true]
  intro hge
  have hkey : ∀ {e : Entry}, e ∈ g.entries → e.key ∈ g.keys := fun he => List.mem_map_of_mem he
  have htexts : (g.keys.map MapKey.text?).Nodup := map_text_keys g ▸ h.distinct
  exact hle.2 (List.inj_on_of_nodup_map htexts (hkey he) (hkey hf)
    (MapKey.text_eq_of_le (h.text_of_mem (hkey he)) (h.text_of_mem (hkey hf)) hle.1 hge))

/-! ## Edges between keys -/

theorem endpoints_eq_some {edge : Json} {a b : MapKey} : endpoints edge = some (a, b) ↔
    MapKey.ofEndpoint (edge.prop "from") = some a ∧ MapKey.ofEndpoint (edge.prop "to") = some b := by
  unfold endpoints
  cases MapKey.ofEndpoint (edge.prop "from") <;> cases MapKey.ofEndpoint (edge.prop "to") <;> simp

theorem endpoints_keys {edge : Json} {e f : Entry} : endpoints edge = some (e.key, f.key) ↔ Joins edge e.1 f.1 := by
  unfold Joins Entry.key idOf
  rw [endpoints_eq_some, endpoints_eq_some, MapKey.ofEndpoint_eq_ofId, @MapKey.ofEndpoint_eq_ofId _ _ f.2]

theorem mem_links {a b : MapKey} : (a, b) ∈ g.links ↔ ∃ edge ∈ g.edges, endpoints edge = some (a, b) :=
  List.mem_filterMap

theorem known_iff {edge : Json} : KnownEnds g edge ↔
    ∃ a b, endpoints edge = some (a, b) ∧ a ∈ g.keys ∧ b ∈ g.keys := by
  constructor
  · rintro ⟨source, hs, target, ht, hjoins⟩
    obtain ⟨e, he, rfl⟩ := exists_entry hs
    obtain ⟨f, hf, rfl⟩ := exists_entry ht
    exact ⟨_, _, endpoints_keys.mpr hjoins, List.mem_map_of_mem he, List.mem_map_of_mem hf⟩
  · rintro ⟨a, b, hends, ha, hb⟩
    obtain ⟨e, he, rfl⟩ := List.mem_map.mp ha
    obtain ⟨f, hf, rfl⟩ := List.mem_map.mp hb
    exact ⟨_, node_mem he, _, node_mem hf, endpoints_keys.mp hends⟩

theorem precedes_iff {e f : Entry} (he : e ∈ g.entries) (hf : f ∈ g.entries) :
    Precedes g e.1 f.1 ↔ (e.key, f.key) ∈ g.links := by
  rw [mem_links]
  constructor
  · rintro ⟨-, -, edge, hedge, hjoins⟩
    exact ⟨edge, hedge, endpoints_keys.mpr hjoins⟩
  · rintro ⟨edge, hedge, hends⟩
    exact ⟨node_mem he, node_mem hf, edge, hedge, endpoints_keys.mp hends⟩

theorem links_mem (hknown : ∀ edge ∈ g.edges, KnownEnds g edge) : ∀ e ∈ g.links, e.1 ∈ g.keys ∧ e.2 ∈ g.keys := by
  rintro ⟨a, b⟩ he
  obtain ⟨edge, hedge, hends⟩ := mem_links.mp he
  obtain ⟨a', b', hends', ha, hb⟩ := known_iff.mp (hknown edge hedge)
  cases hends.symm.trans hends'
  exact ⟨ha, hb⟩

/-- A path of edges between keys is one between their nodes. -/
theorem precedes_of_path (hknown : ∀ edge ∈ g.edges, KnownEnds g edge) {e : Entry} (he : e ∈ g.entries) {b : MapKey}
    (h : Kahn.Path g.links e.key b) :
    ∀ f ∈ g.entries, f.key = b → Relation.TransGen (Precedes g) e.1 f.1 := by
  induction h with
  | single hab =>
    rintro f hf rfl
    exact .single ((precedes_iff he hf).mpr hab)
  | tail _ hbc ih =>
    rintro f hf rfl
    obtain ⟨m, hm, hkey⟩ := List.mem_map.mp (links_mem hknown _ hbc).1
    have hmf := (precedes_iff hm hf).mpr (hkey ▸ hbc)
    exact .tail (ih m hm hkey) hmf

theorem path_of_precedes {e : Entry} (he : e ∈ g.entries) {target : Json}
    (h : Relation.TransGen (Precedes g) e.1 target) :
    ∀ f ∈ g.entries, f.1 = target → Kahn.Path g.links e.key f.key := by
  induction h with
  | single hab =>
    rintro f hf rfl
    exact .single ((precedes_iff he hf).mp hab)
  | tail _ hbc ih =>
    rintro f hf rfl
    obtain ⟨m, hm, rfl⟩ := exists_entry hbc.1
    exact .tail (ih m hm rfl) ((precedes_iff hm hf).mp hbc)

theorem acyclic_iff (hknown : ∀ edge ∈ g.edges, KnownEnds g edge) :
    (∀ k ∈ g.keys, ¬ Kahn.Path g.links k k) ↔ ¬ Cyclic g := by
  constructor
  · rintro hacyclic ⟨node, hnode, hcycle⟩
    obtain ⟨e, he, rfl⟩ := exists_entry hnode
    exact hacyclic e.key (List.mem_map_of_mem he) (path_of_precedes he hcycle e he rfl)
  · intro hacyclic k hk hpath
    obtain ⟨e, he, rfl⟩ := List.mem_map.mp hk
    exact hacyclic ⟨e.1, node_mem he, precedes_of_path hknown he hpath e he rfl⟩

/-! ## When nothing is thrown -/

theorem requireNodes_isOk {nodes : List Json} : requireNodes nodes = .ok () ↔ .null ∉ nodes := by
  induction nodes with
  | nil => simp [requireNodes]
  | cons node nodes ih =>
    unfold requireNodes
    rw [Js.bind_eq_ok, List.mem_cons, not_or]
    constructor
    · rintro ⟨id, hid, hrest⟩
      exact ⟨Ne.symm (Node.member_eq_ok.mp hid).1, ih.mp hrest⟩
    · rintro ⟨hnode, hrest⟩
      exact ⟨_, Node.member_eq_ok.mpr ⟨Ne.symm hnode, rfl⟩, ih.mpr hrest⟩

theorem link_isOk {l : Links} {edge : Json} :
    (∃ l', link g l edge = .ok l') ↔ edge ≠ .null ∧ KnownEnds g edge := by
  rw [known_iff]
  constructor
  · rintro ⟨l', h⟩
    obtain ⟨a, b, hends, ha, hb, -⟩ := link_eq_ok h
    unfold link at h
    obtain ⟨source, hsource, -⟩ := bind_eq_ok.mp h
    exact ⟨(Node.member_eq_ok.mp (fromJs_eq_ok.mp hsource)).1, a, b, hends, ha, hb⟩
  · rintro ⟨hedge, a, b, hends, ha, hb⟩
    refine ⟨l.add a b, bind_eq_ok.mpr ⟨_, fromJs_eq_ok.mpr (Node.member_eq_ok.mpr ⟨hedge, rfl⟩), ?_⟩⟩
    simp only [hends]
    exact if_pos ⟨ha, hb⟩

theorem links_isOk {l : Links} {edges : List Json} :
    (∃ l', edges.foldlM (link g) l = .ok l') ↔ .null ∉ edges ∧ ∀ edge ∈ edges, KnownEnds g edge := by
  induction edges generalizing l with
  | nil => exact ⟨fun _ => ⟨nofun, nofun⟩, fun _ => ⟨l, rfl⟩⟩
  | cons edge edges ih =>
    rw [List.mem_cons, not_or, List.forall_mem_cons]
    constructor
    · rintro ⟨l', h⟩
      obtain ⟨m, hm, hrest⟩ := bind_eq_ok.mp h
      obtain ⟨hnull, hknown⟩ := link_isOk.mp ⟨m, hm⟩
      obtain ⟨hnulls, hall⟩ := ih.mp ⟨l', hrest⟩
      exact ⟨⟨Ne.symm hnull, hnulls⟩, hknown, hall⟩
    · rintro ⟨⟨hnull, hnulls⟩, hknown, hall⟩
      obtain ⟨m, hm⟩ := link_isOk.mpr ⟨Ne.symm hnull, hknown⟩
      obtain ⟨l', hrest⟩ := ih.mpr ⟨hnulls, hall⟩
      exact ⟨l', bind_eq_ok.mpr ⟨m, hm, hrest⟩⟩

/-- Every key has a text. -/
def Texts (keys : List MapKey) : Prop := ∀ k ∈ keys, k.text?.isSome = true

theorem sort_of_texts {keys : List MapKey} (h : Texts keys) : MapKey.sort keys = .ok (MapKey.sorted keys) := by
  unfold MapKey.sort
  refine if_pos (.inr (List.all_eq_true.mpr fun k hk => h k (List.mem_of_mem_filter hk)))

theorem Texts.perm {keys keys' : List MapKey} (h : Texts keys) (hperm : keys'.Perm keys) : Texts keys' :=
  fun k hk => h k (hperm.mem_iff.mp hk)

theorem releases_of_texts {s : Kahn.State MapKey} {targets : List MapKey} (hready : Texts s.ready)
    (htargets : Texts targets) :
    ∃ s', targets.foldlM release s = .ok s' ∧ Texts s'.ready := by
  induction targets generalizing s with
  | nil => exact ⟨s, rfl, hready⟩
  | cons target targets ih =>
    obtain ⟨htarget, hrest⟩ := List.forall_mem_cons.mp htargets
    have hnext : Texts (s.ready ++ [target]) := by
      intro k hk
      rcases List.mem_append.mp hk with hk | hk
      · exact hready k hk
      · exact List.mem_singleton.mp hk ▸ htarget
    have hone : ∃ s', release s target = .ok s' ∧ Texts s'.ready := by
      unfold release
      by_cases hlast : s.incoming target - 1 = 0
      · rw [if_pos hlast, sort_of_texts hnext]
        exact ⟨_, rfl, hnext.perm (MapKey.perm_sorted _)⟩
      · rw [if_neg hlast]
        exact ⟨_, rfl, hready⟩
    obtain ⟨s1, h1, hs1⟩ := hone
    obtain ⟨s2, h2, hs2⟩ := ih hs1 hrest
    exact ⟨s2, Js.bind_eq_ok.mpr ⟨s1, h1, h2⟩, hs2⟩

theorem loop_isOk {outgoing : MapKey → List MapKey} (hout : ∀ k, Texts (outgoing k)) {fuel : Nat}
    {s : Kahn.State MapKey} {ordered : List Entry} (hready : Texts s.ready) :
    ∃ result, loop g outgoing fuel s ordered = .ok result := by
  induction fuel generalizing s ordered with
  | zero => exact ⟨_, rfl⟩
  | succ fuel ih =>
    unfold loop
    cases hs : s.ready with
    | nil => exact ⟨_, rfl⟩
    | cons id ready =>
      rw [hs] at hready
      obtain ⟨s', hs', hready'⟩ := @releases_of_texts { s with ready } (MapKey.sorted (outgoing id))
        (fun k hk => hready k (List.mem_cons_of_mem id hk)) ((hout id).perm (MapKey.perm_sorted _))
      obtain ⟨result, hresult⟩ := @ih s' (ordered ++ (g.byId id).toList) hready'
      exact ⟨result, Js.bind_eq_ok.mpr ⟨_, sort_of_texts (hout id), Js.bind_eq_ok.mpr ⟨s', hs', hresult⟩⟩⟩

theorem sortLoop_isOk (hnamed : Named g) {l : Links} (hcount : l.Count g.links)
    (hknown : ∀ edge ∈ g.edges, KnownEnds g edge) : ∃ result, sortLoop g l = .ok result := by
  have hready : Texts ((g.entries.filter fun e => l.incoming e.key = 0).map Entry.key) := by
    intro k hk
    obtain ⟨e, he, rfl⟩ := List.mem_map.mp hk
    exact hnamed.text_of_mem (List.mem_map_of_mem (List.mem_of_mem_filter he))
  have hout : ∀ k, Texts (l.outgoing k) := by
    intro k t ht
    rw [hcount.outgoing] at ht
    exact hnamed.text_of_mem (Kahn.mem_of_outgoing (fun e he => (links_mem hknown e he).2) ht)
  obtain ⟨result, hresult⟩ := @loop_isOk g l.outgoing hout g.nodes.length
    { incoming := l.incoming, ready := MapKey.sorted _ } [] (hready.perm (MapKey.perm_sorted _))
  exact ⟨result, Js.bind_eq_ok.mpr ⟨_, sort_of_texts hready, hresult⟩⟩

/-- Every key is taken just when as many are taken as there are. -/
theorem covers_iff_length (hnamed : Named g) (hknown : ∀ edge ∈ g.edges, KnownEnds g edge) :
    (∀ k ∈ g.keys, k ∈ Kahn.order MapKey.sorted g.keys g.links) ↔
      (Kahn.order MapKey.sorted g.keys g.links).length = g.keys.length := by
  have htargets : ∀ e ∈ g.links, e.2 ∈ g.keys := fun e he => (links_mem hknown e he).2
  have hnodup := (Kahn.order_valid MapKey.perm_sorted hnamed.keys_nodup htargets).1
  have hsub : (Kahn.order MapKey.sorted g.keys g.links).Subperm g.keys :=
    List.subperm_of_subset hnodup (Kahn.mem_order MapKey.perm_sorted htargets)
  constructor
  · intro hall
    exact Nat.le_antisymm hsub.length_le (List.subperm_of_subset hnamed.keys_nodup hall).length_le
  · intro hlength k hk
    exact (hsub.perm_of_length_le hlength.ge).mem_iff.mpr hk

/-- A schedule is found when every edge is known and no node comes before itself. -/
theorem exists_ok_iff (hnamed : Named g) : (∃ ordered, topologicalSort g = .ok ordered) ↔
    ¬ Unreadable g ∧ (∀ edge ∈ g.edges, KnownEnds g edge) ∧ ¬ Cyclic g := by
  have hlength : g.keys.length = g.nodes.length := by simp [Graph.keys, Graph.entries]
  have hcovers (hknown : ∀ edge ∈ g.edges, KnownEnds g edge) :
      (Kahn.order MapKey.sorted g.keys g.links).length = g.keys.length ↔ ¬ Cyclic g := by
    rw [← covers_iff_length hnamed hknown, ← acyclic_iff hknown]
    exact Kahn.order_covers_iff MapKey.perm_sorted hnamed.keys_nodup (links_mem hknown)
  have htaken (hknown : ∀ edge ∈ g.edges, KnownEnds g edge) :
      ((Kahn.order MapKey.sorted g.keys g.links).flatMap fun id => (g.byId id).toList).length =
        (Kahn.order MapKey.sorted g.keys g.links).length := by
    rw [← List.length_map (f := Entry.key), keys_flatMap]
    exact Kahn.mem_order MapKey.perm_sorted fun e he => (links_mem hknown e he).2
  constructor
  · rintro ⟨ordered, h⟩
    obtain ⟨-, hordered, hcount⟩ := topologicalSort_eq_ok h
    unfold topologicalSort at h
    obtain ⟨_, hnodes, h⟩ := bind_eq_ok.mp h
    obtain ⟨l, hlinks, -⟩ := bind_eq_ok.mp h
    obtain ⟨hnull, hknown⟩ := links_isOk.mp ⟨l, hlinks⟩
    refine ⟨not_or.mpr ⟨requireNodes_isOk.mp (fromJs_eq_ok.mp hnodes), hnull⟩, hknown, (hcovers hknown).mp ?_⟩
    rw [← htaken hknown, ← hordered, hcount, hlength]
  · rintro ⟨hreadable, hknown, hacyclic⟩
    obtain ⟨hnodes, hedges⟩ := not_or.mp hreadable
    obtain ⟨l, hlinks⟩ := links_isOk.mpr ⟨hedges, hknown⟩
    have hcount := (links_eq_ok hlinks unlinked_count).1
    obtain ⟨⟨ordered, s⟩, hloop⟩ := sortLoop_isOk hnamed hcount hknown
    have hordered := (sortLoop_eq_ok hcount hloop).2
    refine ⟨ordered, ?_⟩
    unfold topologicalSort
    refine bind_eq_ok.mpr ⟨(), fromJs_eq_ok.mpr (requireNodes_isOk.mpr hnodes), bind_eq_ok.mpr ⟨l, hlinks,
      bind_eq_ok.mpr ⟨_, fromJs_eq_ok.mpr hloop, require_bind_eq_ok.mpr ⟨?_, rfl⟩⟩⟩⟩
    rw [decide_eq_true_eq, hordered, htaken hknown, (hcovers hknown).mpr hacyclic, hlength]

/-! ## What is found is the least order -/

/-- A list of nodes is a list of entries. -/
theorem exists_entries {α β : Type} {f : α → β} {l : List α} {ys : List β} (h : ys.Perm (l.map f)) :
    ∃ l' : List α, l'.Perm l ∧ l'.map f = ys := by
  induction l generalizing ys with
  | nil => exact ⟨[], .nil, (List.perm_nil.mp h).symm⟩
  | cons a l ih =>
    obtain ⟨before, after, rfl⟩ := List.append_of_mem (h.mem_iff.mpr List.mem_cons_self)
    obtain ⟨l', hperm, hmap⟩ := ih ((List.perm_cons (f a)).mp (List.perm_middle.symm.trans h))
    obtain ⟨l1, l2, rfl, rfl, rfl⟩ := List.map_eq_append_iff.mp hmap
    refine ⟨l1 ++ a :: l2, List.perm_middle.trans (hperm.cons a), ?_⟩
    rw [List.map_append, List.map_cons]

/-- An order of the nodes is an order of the keys. -/
theorem TopologicalOrder.keys (hnamed : Named g) (hknown : ∀ edge ∈ g.edges, KnownEnds g edge) {es : List Entry}
    (hes : es.Perm g.entries) (h : TopologicalOrder g (es.map Prod.fst)) :
    (es.map Entry.key).Perm g.keys ∧ Kahn.Respects g.links (es.map Entry.key) := by
  refine ⟨hes.map _, fun before k rest hsplit a ha => ?_⟩
  obtain ⟨es1, tail, rfl, rfl, htail⟩ := List.map_eq_append_iff.mp hsplit
  obtain ⟨e, es2, rfl, rfl, rfl⟩ := List.map_eq_cons_iff.mp htail
  have he : e ∈ g.entries := hes.mem_iff.mp (by simp)
  obtain ⟨f, hf, rfl⟩ := List.mem_map.mp (links_mem hknown _ ha).1
  have hsource := h.after (es1.map Prod.fst) e.1 (es2.map Prod.fst) (by simp) f.1 ((precedes_iff hf he).mpr ha)
  obtain ⟨f', hf', heq⟩ := List.mem_map.mp hsource
  have hin : f' ∈ g.entries := hes.mem_iff.mp (List.mem_append_left _ hf')
  exact hnamed.entry_eq hin hf heq ▸ List.mem_map_of_mem hf'

theorem topologicalOrder_of_inOrder (hnamed : Named g) {ordered : List Entry} (h : InOrder g ordered) :
    TopologicalOrder g (ordered.map Prod.fst) := by
  refine ⟨?_, fun earlier target later hsplit source hprecedes => ?_⟩
  · rw [← map_fst_entries]
    exact h.once.map _
  · obtain ⟨hs, ht, edge, hedge, hjoins⟩ := hprecedes
    obtain ⟨e, he, rfl⟩ := exists_entry hs
    obtain ⟨f, hf, rfl⟩ := exists_entry ht
    obtain ⟨before, after, rfl, hmem⟩ := h.before edge hedge e he f hf (endpoints_keys.mpr hjoins)
    -- the target stands in one place only
    have hnodup : ((before ++ f :: after).map Prod.fst).Nodup := by
      rw [(h.once.map Prod.fst).nodup_iff, map_fst_entries]
      exact hnamed.distinct.of_map
    have heq : before.map Prod.fst = earlier := by
      rw [List.map_append, List.map_cons] at hsplit hnodup
      obtain ⟨hfresh, -⟩ := List.nodup_cons.mp (List.nodup_middle.mp hnodup)
      rw [List.mem_append, not_or] at hfresh
      exact ((List.append_cons_inj_of_notMem hfresh.1 hfresh.2).mp hsplit).1
    rw [← heq]
    exact List.mem_map_of_mem hmem

theorem leastOrder_of_ok (hnamed : Named g) {ordered : List Entry} (h : topologicalSort g = .ok ordered) :
    LeastOrder g (ordered.map Prod.fst) := by
  have hin := (inOrder_iff h).mpr hnamed.keys_nodup
  obtain ⟨-, hknown, -⟩ := (exists_ok_iff hnamed).mp ⟨ordered, h⟩
  obtain ⟨htargets, hordered, -⟩ := topologicalSort_eq_ok h
  have hkeys : ordered.map Entry.key = Kahn.order MapKey.sorted g.keys g.links := by
    rw [hordered]
    exact keys_flatMap (Kahn.mem_order MapKey.perm_sorted htargets)
  refine ⟨topologicalOrder_of_inOrder hnamed hin, fun ys hys => ?_⟩
  obtain ⟨es, hes, rfl⟩ := exists_entries (f := Prod.fst) (l := g.entries) (map_fst_entries g ▸ hys.once)
  obtain ⟨hperm, hrespects⟩ := hys.keys hnamed hknown hes
  have hleast := Kahn.order_least MapKey.perm_sorted MapKey.sorted_sorted hnamed.keys_nodup htargets hperm hrespects
  rw [← hkeys] at hleast
  have hmem : ∀ e ∈ ordered, e ∈ g.entries := fun e he => hin.once.mem_iff.mp he
  have hmem' : ∀ e ∈ es, e ∈ g.entries := fun e he => hes.mem_iff.mp he
  exact hleast.map (fun a ha b hb heq => List.inj_on_of_nodup_map hnamed.keys_nodup (hmem a ha) (hmem' b hb) heq)
    fun a ha b hb hlt => hnamed.sortsBefore (hmem a ha) (hmem' b hb) hlt

/-! ## The order of listing -/

theorem Named.perm (h : Named g) {g' : Graph} (hnodes : g'.nodes.Perm g.nodes) : Named g' :=
  ⟨fun node hnode => h.text node (hnodes.mem_iff.mp hnode), (hnodes.map _).nodup_iff.mpr h.distinct⟩

section Listing

variable {g' : Graph} (hnodes : g'.nodes.Perm g.nodes) (hedges : g'.edges.Perm g.edges)

include hnodes hedges

theorem precedes_perm : Precedes g' = Precedes g := by
  funext a b
  unfold Precedes
  simp only [hnodes.mem_iff, hedges.mem_iff]

theorem topologicalOrder_perm {xs : List Json} (h : TopologicalOrder g xs) : TopologicalOrder g' xs :=
  ⟨h.once.trans hnodes.symm, by rw [precedes_perm hnodes hedges]; exact h.after⟩

theorem readable_perm : (¬ Unreadable g' ∧ (∀ edge ∈ g'.edges, KnownEnds g' edge) ∧ ¬ Cyclic g') ↔
    ¬ Unreadable g ∧ (∀ edge ∈ g.edges, KnownEnds g edge) ∧ ¬ Cyclic g := by
  unfold Unreadable KnownEnds Cyclic
  rw [precedes_perm hnodes hedges]
  simp only [hnodes.mem_iff, hedges.mem_iff]

end Listing

theorem schedule_eq_some {xs : List Json} :
    schedule g = some xs ↔ ∃ ordered, topologicalSort g = .ok ordered ∧ ordered.map Prod.fst = xs := by
  unfold schedule
  cases topologicalSort g with
  | error e => simp [Except.toOption]
  | ok ordered => simp [Except.toOption]

theorem schedule_eq_none_iff (hnamed : Named g) : schedule g = none ↔
    ¬ (¬ Unreadable g ∧ (∀ edge ∈ g.edges, KnownEnds g edge) ∧ ¬ Cyclic g) := by
  rw [← exists_ok_iff hnamed, Option.eq_none_iff_forall_ne_some]
  constructor
  · rintro h ⟨ordered, hordered⟩
    exact h _ (schedule_eq_some.mpr ⟨ordered, hordered, rfl⟩)
  · intro h xs hxs
    obtain ⟨ordered, hordered, -⟩ := schedule_eq_some.mp hxs
    exact h ⟨ordered, hordered⟩

theorem leastOrder_of_some (hnamed : Named g) {xs : List Json} (h : schedule g = some xs) : LeastOrder g xs := by
  obtain ⟨ordered, hordered, rfl⟩ := schedule_eq_some.mp h
  exact leastOrder_of_ok hnamed hordered

theorem schedule_perm (hnamed : Named g) {g' : Graph} (hnodes : g'.nodes.Perm g.nodes)
    (hedges : g'.edges.Perm g.edges) : schedule g' = schedule g := by
  have hnamed' := hnamed.perm hnodes
  cases h : schedule g with
  | none =>
    rw [schedule_eq_none_iff hnamed', readable_perm hnodes hedges]
    exact (schedule_eq_none_iff hnamed).mp h
  | some xs =>
    cases h' : schedule g' with
    | none =>
      rw [schedule_eq_none_iff hnamed', readable_perm hnodes hedges, ← schedule_eq_none_iff hnamed, h] at h'
      cases h'
    | some xs' =>
      have hleast := leastOrder_of_some hnamed h
      have hleast' := leastOrder_of_some hnamed' h'
      refine congrArg some (Kahn.AtMost.antisymm SortsBefore.asymm ?_ ?_)
      · exact hleast'.least xs (topologicalOrder_perm hnodes hedges hleast.order)
      · exact hleast.least xs' (topologicalOrder_perm hnodes.symm hedges.symm hleast'.order)

/-- A report and the guard it comes after. -/
def guardGraph : Graph where
  nodes := [.obj [("id", .str "report")], .obj [("id", .str "guard")]]
  edges := [.obj [("from", .str "guard"), ("to", .str "report")]]

theorem guardGraph_named : Named guardGraph where
  text node hnode := by
    rcases List.mem_pair.mp hnode with rfl | rfl <;> rfl
  distinct := by
    simp [guardGraph, idOf, MapKey.ofId, MapKey.text?]

/-- Two ids that are distinct and have one text. -/
def oneTwice : Graph where
  nodes := [.obj [("id", .num (.int 1))], .obj [("id", .str "1")]]
  edges := []

end SimpleL1.Execution
