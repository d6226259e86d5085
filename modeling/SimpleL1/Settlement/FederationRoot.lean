import SimpleL1.Lib.Steps
import SimpleL1.Settlement.Federation
import Mathlib.Data.List.Induction

/-!
# What the federation root commits to

The root is the digest of a text in which ids, roots and epochs are joined by colons and
bars, unescaped. Subnets that agree in all three have one root, in whatever order they
came. The root separates federations as long as no id and no root has a colon in it; over
any alphabet with the colon two different federations share a root.
-/

namespace SimpleL1.Settlement.FederationRegistry

open SimpleL1.Js SimpleL1.Lib

/-! ## Joined texts -/

section Texts

variable {α : Type} [DecidableEq α] {sep : α} {cs ds t u : List α}

/-- What comes before the first separator, when what follows starts with one. -/
theorem eq_of_append_sep (hcs : sep ∉ cs) (hds : sep ∉ ds) (ht : ∀ c ∈ t.head?, c = sep)
    (hu : ∀ c ∈ u.head?, c = sep) (h : cs ++ t = ds ++ u) : cs = ds ∧ t = u := by
  have hpre : ∀ {xs v : List α}, sep ∉ xs → (∀ c ∈ v.head?, c = sep) →
      (xs ++ v).takeWhile (· ≠ sep) = xs := by
    intro xs v hxs hv
    have hall : ∀ a ∈ xs, decide (a ≠ sep) = true := by
      intro a ha
      refine decide_eq_true ?_
      rintro rfl
      exact hxs ha
    rw [List.takeWhile_append_of_pos hall]
    cases v with
    | nil => simp
    | cons c v => simp [hv c rfl]
  have heq : cs = ds := by rw [← hpre hcs ht, h, hpre hds hu]
  subst heq
  exact ⟨rfl, List.append_cancel_left h⟩

end Texts

/-- An id, a root and an epoch. -/
abbrev Entry := String × String × Number

def Entry.chars (x : Entry) : List Char := x.1.toList ++ ':' :: (x.2.1.toList ++ ':' :: x.2.2.chars)

def joinedChars (l : List Entry) : List Char := List.intercalate ['|'] (l.map Entry.chars)

/-- What follows an entry. -/
def tailChars (l : List Entry) : List Char := if l = [] then [] else '|' :: joinedChars l

theorem joinedChars_cons (x : Entry) (l : List Entry) :
    joinedChars (x :: l) = x.1.toList ++ ':' :: (x.2.1.toList ++ ':' :: (x.2.2.chars ++ tailChars l)) := by
  unfold joinedChars tailChars
  cases l with
  | nil => simp [Entry.chars]
  | cons y l =>
    rw [List.map_cons, List.map_cons, List.intercalate_cons_cons]
    simp [Entry.chars, joinedChars]

theorem bar_tailChars (l : List Entry) : ∀ c ∈ (tailChars l).head?, c = '|' := by
  unfold tailChars
  split
  · simp
  · rintro c ⟨⟩
    rfl

theorem joinedChars_ne_nil (x : Entry) (l : List Entry) : joinedChars (x :: l) ≠ [] := by
  rw [joinedChars_cons]
  simp

/-- Neither separator is written in a number. -/
theorem number_chars_plain (x : Number) : ':' ∉ x.chars ∧ '|' ∉ x.chars := by
  cases hx : x.isFinite with
  | true =>
    constructor <;> intro hmem <;> exact absurd (Number.chars_numChar hx _ hmem) (by decide)
  | false =>
    cases x with
    | nan => decide
    | infinity neg => cases neg <;> decide
    | int n => cases hx
    | dec m k => cases hx

theorem number_chars_injective {x y : Number} (h : x.chars = y.chars) : x = y := by
  have hfinite : ∀ {a b : Number}, a.isFinite = true → b.isFinite = false → a.chars ≠ b.chars := by
    intro a b ha hb heq
    have hall := Number.chars_numChar ha
    rw [heq] at hall
    cases b with
    | nan => exact absurd (hall 'N' (by decide)) (by decide)
    | infinity neg => cases neg <;> exact absurd (hall 'I' (by decide)) (by decide)
    | int n => cases hb
    | dec m k => cases hb
  cases hx : x.isFinite with
  | true =>
    cases hy : y.isFinite with
    | true => exact Number.chars_injective hx hy h
    | false => exact absurd h (hfinite hx hy)
  | false =>
    cases hy : y.isFinite with
    | true => exact absurd h.symm (hfinite hy hx)
    | false =>
      cases x with
      | nan =>
        cases y with
        | nan => rfl
        | infinity neg => cases neg <;> cases h
        | _ => cases hy
      | infinity neg =>
        cases y with
        | nan => cases neg <;> cases h
        | infinity neg' => cases neg <;> cases neg' <;> first | rfl | cases h
        | _ => cases hy
      | _ => cases hx

def Entry.Plain (x : Entry) : Prop := ':' ∉ x.1.toList ∧ ':' ∉ x.2.1.toList

/-- Entries without colons can be read back: the colons end the id and the root, and the first
bar after them ends the epoch. -/
theorem joinedChars_injective {l l' : List Entry} (hl : ∀ x ∈ l, x.Plain) (hl' : ∀ x ∈ l', x.Plain)
    (h : joinedChars l = joinedChars l') : l = l' := by
  induction l generalizing l' with
  | nil =>
    cases l' with
    | nil => rfl
    | cons y l' => exact absurd h.symm (joinedChars_ne_nil y l')
  | cons x l ih =>
    cases l' with
    | nil => exact absurd h (joinedChars_ne_nil x l)
    | cons y l' =>
      rw [joinedChars_cons, joinedChars_cons] at h
      have hx := hl x List.mem_cons_self
      have hy := hl' y List.mem_cons_self
      have hcolon : ∀ t : List Char, ∀ c ∈ (':' :: t).head?, c = ':' := by
        rintro t c ⟨⟩
        rfl
      obtain ⟨hid, h⟩ := eq_of_append_sep hx.1 hy.1 (hcolon _) (hcolon _) h
      obtain ⟨hroot, h⟩ := eq_of_append_sep hx.2 hy.2 (hcolon _) (hcolon _) (List.cons.inj h).2
      obtain ⟨hepoch, h⟩ := eq_of_append_sep (number_chars_plain x.2.2).2 (number_chars_plain y.2.2).2
        (bar_tailChars l) (bar_tailChars l') (List.cons.inj h).2
      have hxy : x = y := Prod.ext (String.toList_inj.mp hid)
        (Prod.ext (String.toList_inj.mp hroot) (number_chars_injective hepoch))
      have htail : l = l' := by
        unfold tailChars at h
        split at h
        · rename_i hnil
          split at h
          · rename_i hnil'
            rw [hnil, hnil']
          · cases h
        · split at h
          · cases h
          · exact ih (fun z hz => hl z (List.mem_cons_of_mem x hz))
              (fun z hz => hl' z (List.mem_cons_of_mem y hz)) (List.cons.inj h).2
      rw [hxy, htail]

/-! ## Federations -/

variable {e : FederationRegistry} {f f' : Federation}

def entry (s : Subnet) : Entry := (s.subnet_id, s.constitution_root.getD "null", s.constitutional_epoch)

/-- The ids, roots and epochs of the active subnets with a constitution root. -/
def commitment (f : Federation) : List Entry := (committing f.subnets).map entry

def SameCommitment (f f' : Federation) : Prop := ∀ x, x ∈ commitment f ↔ x ∈ commitment f'

theorem toList_spell (s : Subnet) : (spell s).toList = (entry s).chars := by
  unfold spell entry Entry.chars Number.toString
  simp

theorem toList_activeRoots (subnets : List (String × Subnet)) :
    (e.activeRoots subnets).toList = joinedChars ((e.sorted (committing subnets)).map entry) := by
  unfold activeRoots joinedChars
  rw [String.toList_intercalate, List.map_map, List.map_map]
  exact congrArg _ (List.map_congr_left fun s _ => toList_spell s)

/-- Subnets are kept under their ids, and the root is that of the subnets. -/
structure Kept (e : FederationRegistry) (f : Federation) : Prop where
  nodup : (f.subnets.map Prod.fst).Nodup
  keyed : ∀ x ∈ f.subnets, x.2.subnet_id = x.1
  root : f.federation_root = e.rootOf f.subnets

theorem nodup_ids (h : Kept e f) : ((committing f.subnets).map Subnet.subnet_id).Nodup := by
  have hids : (f.subnets.map Prod.snd).map Subnet.subnet_id = f.subnets.map Prod.fst := by
    rw [List.map_map]
    exact List.map_congr_left h.keyed
  have hall : ((f.subnets.map Prod.snd).map Subnet.subnet_id).Nodup := by
    rw [hids]
    exact h.nodup
  exact hall.sublist (List.filter_sublist.map _)

theorem sorted_perm (subnets : List Subnet) : (e.sorted subnets).Perm subnets := List.perm_insertionSort _ _

theorem mem_sorted_entry {x : Entry} :
    x ∈ (e.sorted (committing f.subnets)).map entry ↔ x ∈ commitment f :=
  ((sorted_perm _).map entry).mem_iff

/-- Sorted by their ids, the entries of one commitment come in one order. -/
theorem sorted_entries_eq (h : Kept e f) (h' : Kept e f') (hsame : SameCommitment f f') :
    (e.sorted (committing f.subnets)).map entry = (e.sorted (committing f'.subnets)).map entry := by
  have hnodup : ∀ {g : Federation}, Kept e g → ((e.sorted (committing g.subnets)).map entry).Nodup := by
    intro g hg
    refine List.Nodup.of_map Prod.fst ?_
    rw [List.map_map]
    exact ((sorted_perm _).map _).nodup_iff.mpr (nodup_ids hg)
  have hsorted : ∀ g : Federation, ((e.sorted (committing g.subnets)).map entry).Pairwise
      fun x y => e.collation.le x.1 y.1 = true := by
    intro g
    rw [List.pairwise_map]
    exact @List.pairwise_insertionSort _ (fun a b : Subnet => e.collation.le a.subnet_id b.subnet_id = true) _
      ⟨fun a b => e.collation.total _ _⟩ ⟨fun a b c => e.collation.trans _ _ _⟩ _
  have hmem : ∀ x, x ∈ (e.sorted (committing f.subnets)).map entry ↔
      x ∈ (e.sorted (committing f'.subnets)).map entry := fun x =>
    mem_sorted_entry.trans ((hsame x).trans mem_sorted_entry.symm)
  refine List.Perm.eq_of_pairwise (fun x y hx hy hxy hyx => ?_) (hsorted f) (hsorted f')
    ((List.perm_ext_iff_of_nodup (hnodup h) (hnodup h')).mpr hmem)
  have hid := e.collation.antisymm _ _ hxy hyx
  obtain ⟨s, hs, rfl⟩ := List.mem_map.mp ((hmem x).mp hx)
  obtain ⟨s', hs', rfl⟩ := List.mem_map.mp hy
  exact congrArg entry (List.inj_on_of_nodup_map (((sorted_perm _).map _).nodup_iff.mpr (nodup_ids h')) hs hs' hid)

/-- The order in which subnets came does not matter. -/
theorem root_eq_of_same (h : Kept e f) (h' : Kept e f') (hsame : SameCommitment f f') :
    f.federation_root = f'.federation_root := by
  have htext : e.activeRoots f.subnets = e.activeRoots f'.subnets := by
    rw [← String.toList_inj, toList_activeRoots, toList_activeRoots, sorted_entries_eq h h' hsame]
  rw [h.root, h'.root]
  unfold rootOf
  rw [htext]

theorem text_eq_of_root (hfree : e.platform.toHost.CollisionFree)
    (hgenesis : ∀ t, e.platform.sha256 t ≠ "genesis") (h : Kept e f) (h' : Kept e f')
    (hroot : f.federation_root = f'.federation_root) : e.activeRoots f.subnets = e.activeRoots f'.subnets := by
  rw [h.root, h'.root] at hroot
  unfold rootOf at hroot
  split at hroot
  · rename_i hempty
    split at hroot
    · rename_i hempty'
      rw [hempty, hempty']
    · exact absurd hroot.symm (hgenesis _)
  · split at hroot
    · exact absurd hroot (hgenesis _)
    · exact hfree hroot

def Plain (f : Federation) : Prop := ∀ x ∈ commitment f, x.Plain

/-- Without colons in ids and roots, one root is one commitment. -/
theorem same_of_root_eq (hfree : e.platform.toHost.CollisionFree)
    (hgenesis : ∀ t, e.platform.sha256 t ≠ "genesis") (h : Kept e f) (h' : Kept e f') (hplain : Plain f)
    (hplain' : Plain f') (hroot : f.federation_root = f'.federation_root) : SameCommitment f f' := by
  have htext := text_eq_of_root hfree hgenesis h h' hroot
  rw [← String.toList_inj, toList_activeRoots, toList_activeRoots] at htext
  have hentries := joinedChars_injective (fun x hx => hplain x (mem_sorted_entry.mp hx))
    (fun x hx => hplain' x (mem_sorted_entry.mp hx)) htext
  intro x
  rw [← @mem_sorted_entry e f, ← @mem_sorted_entry e f', hentries]

/-! ## Runs -/

theorem mem_insert {k : String} {s : Subnet} {m : List (String × Subnet)} {x : String × Subnet}
    (h : x ∈ Assoc.insert k s m) : x = (k, s) ∨ x ∈ m := by
  induction m with
  | nil => exact .inl (List.mem_singleton.mp h)
  | cons y m ih =>
    unfold Assoc.insert at h
    split at h
    · rcases List.mem_cons.mp h with rfl | h
      · exact .inl rfl
      · exact .inr (List.mem_cons_of_mem _ h)
    · rcases List.mem_cons.mp h with rfl | h
      · exact .inr List.mem_cons_self
      · exact (ih h).imp_right (List.mem_cons_of_mem _)

theorem kept_setSubnet (h : Kept e f) (s : Subnet) : Kept e (e.setSubnet f s) where
  nodup := by
    show ((Assoc.insert s.subnet_id s f.subnets).map Prod.fst).Nodup
    rw [Assoc.keys_insert]
    split
    · exact h.nodup
    · rename_i hnew
      exact List.nodup_append.mpr ⟨h.nodup, List.nodup_singleton _, fun a ha b hb => by
        rw [List.mem_singleton.mp hb]
        rintro rfl
        exact hnew ha⟩
  keyed x hx := by
    rcases mem_insert hx with rfl | hx
    · rfl
    · exact h.keyed x hx
  root := rfl

/-- The ids and roots of a federation are written in an alphabet; the primary id is the node's own. -/
def Written (A : Char → Prop) (s : Subnet) : Prop :=
  (s.subnet_id = primaryId ∨ ∀ c ∈ s.subnet_id.toList, A c) ∧
    ∀ root, s.constitution_root = some root → ∀ c ∈ root.toList, A c

/-- An operation that is given ids and roots in the alphabet. -/
def Writes (A : Char → Prop) (op : Int × Op) : Prop :=
  match op.2 with
  | .registerSubnet input => (∀ c ∈ input.subnet_id.toList, A c) ∧
      ∀ root, input.constitution_root = some root → ∀ c ∈ root.toList, A c
  | .updateSubnetConstitution _ root _ _ => ∀ c ∈ root.toList, A c
  | .setSubnetStatus .. => True

/-- An operation leaves the federation as it is, or writes one subnet and the root. -/
theorem step_cases (h : Kept e f) (op : Int × Op) :
    e.step f op = f ∨ ∃ s, e.step f op = e.setSubnet f s ∧
      ∀ A, Writes A op → (∀ x ∈ f.subnets, Written A x.2) → Written A s := by
  obtain ⟨now, op⟩ := op
  have hold : ∀ {id : String} {s : Subnet}, Assoc.find id f.subnets = some s → (id, s) ∈ f.subnets :=
    fun hfind => (Assoc.find_eq_some h.nodup).mp hfind
  cases op with
  | registerSubnet input =>
    unfold step
    dsimp only
    unfold registerSubnet
    split
    · exact .inl rfl
    · exact .inr ⟨e.newSubnet now input, rfl, fun A hA _ => ⟨.inr hA.1, hA.2⟩⟩
  | updateSubnetConstitution subnet_id root epoch proposal_id =>
    unfold step
    dsimp only
    unfold updateSubnetConstitution
    split
    · exact .inl rfl
    · rename_i s hfind
      refine .inr ⟨_, rfl, fun A hA hall => ⟨(hall _ (hold hfind)).1, ?_⟩⟩
      rintro _ ⟨⟩
      exact hA
  | setSubnetStatus subnet_id status reason =>
    unfold step
    dsimp only
    unfold setSubnetStatus
    split
    · exact .inl rfl
    · rename_i s hfind
      split
      · exact .inr ⟨_, rfl, fun A _ hall => hall _ (hold hfind)⟩
      · exact .inl rfl

theorem kept_start (now : Int) : Kept e (e.start now) where
  nodup := List.nodup_singleton _
  keyed x hx := by
    rw [List.mem_singleton.mp hx]
    rfl
  root := rfl

theorem kept_run (now : Int) (ops : List (Int × Op)) : Kept e (ops.foldl e.step (e.start now)) := by
  refine Steps.invariant_foldl (fun f op hf => ?_) (kept_start now) ops
  rcases step_cases hf op with heq | ⟨s, heq, -⟩ <;> rw [heq]
  · exact hf
  · exact kept_setSubnet hf s

theorem written_run {A : Char → Prop} (now : Int) {ops : List (Int × Op)} (hops : ∀ op ∈ ops, Writes A op) :
    ∀ x ∈ (ops.foldl e.step (e.start now)).subnets, Written A x.2 := by
  induction ops using List.reverseRecOn with
  | nil =>
    intro x hx
    rw [List.mem_singleton.mp hx]
    exact ⟨.inl rfl, fun root h => nomatch h⟩
  | append_singleton ops op ih =>
    have hold := ih fun o ho => hops o (List.mem_append_left _ ho)
    rw [List.foldl_append]
    show ∀ x ∈ (e.step (ops.foldl e.step (e.start now)) op).subnets, Written A x.2
    rcases step_cases (kept_run now ops) op with heq | ⟨s, heq, hs⟩ <;> rw [heq]
    · exact hold
    · intro x hx
      rcases mem_insert hx with rfl | hx
      · exact hs A (hops op (List.mem_append_right _ List.mem_cons_self)) hold
      · exact hold x hx

/-- An alphabet without the colon leaves none in a commitment. -/
theorem plain_run {A : Char → Prop} (hA : ¬ A ':') (now : Int) {ops : List (Int × Op)}
    (hops : ∀ op ∈ ops, Writes A op) : Plain (ops.foldl e.step (e.start now)) := by
  intro x hx
  obtain ⟨s, hs, rfl⟩ := List.mem_map.mp hx
  obtain ⟨hmem, -⟩ := List.mem_filter.mp hs
  obtain ⟨y, hy, rfl⟩ := List.mem_map.mp hmem
  obtain ⟨hid, hroot⟩ := written_run now hops y hy
  constructor
  · rcases hid with hid | hid
    · show ':' ∉ y.2.subnet_id.toList
      rw [hid]
      decide
    · exact fun hmem => hA (hid ':' hmem)
  · show ':' ∉ (y.2.constitution_root.getD "null").toList
    cases hr : y.2.constitution_root with
    | none => decide
    | some root => exact fun hmem => hA (hroot root hr ':' hmem)

/-! ## One root for two federations -/

def registration (subnet_id root : String) : SubnetInput where
  subnet_id
  name := some (.str "Subnet")
  description := none
  constitution_root := some root
  constitution_version := none
  validator_set := none
  quorum := none
  settlement_networks := none
  assets := none
  metadata := none

/-- One subnet, registered beside the primary one. -/
def oneSubnet (subnet_id root : String) : List (Int × Op) := [(0, .registerSubnet (registration subnet_id root))]

theorem shared_root (e : FederationRegistry) (now now' : Int) :
    ((oneSubnet ":" "::").foldl e.step (e.start now)).federation_root =
      ((oneSubnet "::" ":").foldl e.step (e.start now')).federation_root := rfl

theorem not_same : ¬ SameCommitment ((oneSubnet ":" "::").foldl e.step (e.start 0))
    ((oneSubnet "::" ":").foldl e.step (e.start 0)) := by
  intro h
  have hmem : (":", "::", Number.int 0) ∈ commitment ((oneSubnet "::" ":").foldl e.step (e.start 0)) :=
    (h _).mp (List.mem_singleton_self _)
  have hid : ":" = "::" := congrArg Prod.fst (List.mem_singleton.mp hmem)
  exact absurd hid (by decide)

/-- Over an alphabet the root tells federations apart just when the alphabet has no colon. -/
theorem root_commits_iff (e : FederationRegistry) (hfree : e.platform.toHost.CollisionFree)
    (hgenesis : ∀ t, e.platform.sha256 t ≠ "genesis") (A : Char → Prop) :
    (∀ now now' : Int, ∀ ops ops' : List (Int × Op), (∀ op ∈ ops, Writes A op) → (∀ op ∈ ops', Writes A op) →
      ((ops.foldl e.step (e.start now)).federation_root = (ops'.foldl e.step (e.start now')).federation_root ↔
        SameCommitment (ops.foldl e.step (e.start now)) (ops'.foldl e.step (e.start now')))) ↔ ¬ A ':' := by
  constructor
  · intro hall hcolon
    have hwrites : ∀ id root, (∀ c ∈ id.toList, A c) → (∀ c ∈ root.toList, A c) →
        ∀ op ∈ oneSubnet id root, Writes A op := by
      intro id root hid hroot op hop
      rw [List.mem_singleton.mp hop]
      exact ⟨hid, fun r hr => Option.some.inj hr ▸ hroot⟩
    have hone : ∀ c ∈ ":".toList, A c := by
      intro c hc
      rw [List.mem_singleton.mp hc]
      exact hcolon
    have htwo : ∀ c ∈ "::".toList, A c := by
      intro c hc
      rcases List.mem_cons.mp hc with rfl | hc
      · exact hcolon
      · rw [List.mem_singleton.mp hc]
        exact hcolon
    exact not_same ((hall 0 0 _ _ (hwrites ":" "::" hone htwo) (hwrites "::" ":" htwo hone)).mp
      (shared_root e 0 0))
  · intro hcolon now now' ops ops' hops hops'
    have hkept := kept_run (e := e) now ops
    have hkept' := kept_run (e := e) now' ops'
    exact ⟨same_of_root_eq hfree hgenesis hkept hkept' (plain_run hcolon now hops) (plain_run hcolon now' hops'),
      root_eq_of_same hkept hkept'⟩

section Example

/-- A digest that marks its text. -/
def markedHost : Realm.Host where
  sha256 text := "#" ++ text
  hmac _ text := text
  sha256_ne_empty text h := by
    have hlength := congrArg String.length h
    simp at hlength

theorem noonText_ne_empty (_ : Int) : "2026-06-26T12:00:00.000Z" ≠ "" := by decide

def plainRegistry : FederationRegistry where
  platform := {
    toHost := markedHost
    lower := id
    upper := id
    nfc := id
    parseDate := fun _ => .nan
    isoDate := fun _ => "2026-06-26T12:00:00.000Z"
    lower_lower := Eq.refl
    isoDate_ne_empty := noonText_ne_empty }
  collation := {
    le := fun a b => decide (a ≤ b)
    total := fun a b => by simpa using String.le_total a b
    trans := fun a b c hab hbc => by simpa using String.le_trans (of_decide_eq_true hab) (of_decide_eq_true hbc)
    antisymm := fun a b hab hba => String.le_antisymm (of_decide_eq_true hab) (of_decide_eq_true hba) }
  saveLedger _ := .ok ()

theorem plainRegistry_free : plainRegistry.platform.toHost.CollisionFree := by
  intro a b h
  exact String.append_right_inj "#" |>.mp h

theorem plainRegistry_genesis (t : String) : plainRegistry.platform.sha256 t ≠ "genesis" := by
  intro h
  have hhead := congrArg (fun s : String => s.toList.head?) h
  have hhead : some '#' = some 'g' := by simpa [plainRegistry, markedHost] using hhead
  exact absurd hhead (by decide)

/-- Two federations with one root. -/
theorem root_not_committing : ¬ ∀ e : FederationRegistry, e.platform.toHost.CollisionFree →
    (∀ t, e.platform.sha256 t ≠ "genesis") → ∀ now now' : Int, ∀ ops ops' : List (Int × Op),
      ((ops.foldl e.step (e.start now)).federation_root = (ops'.foldl e.step (e.start now')).federation_root ↔
        SameCommitment (ops.foldl e.step (e.start now)) (ops'.foldl e.step (e.start now'))) := by
  intro h
  exact not_same ((h plainRegistry plainRegistry_free plainRegistry_genesis 0 0 _ _).mp
    (shared_root plainRegistry 0 0))

theorem root_commits_without_colons :
    (∀ now now' : Int, ∀ ops ops' : List (Int × Op), (∀ op ∈ ops, Writes (· ≠ ':') op) →
      (∀ op ∈ ops', Writes (· ≠ ':') op) →
      ((ops.foldl plainRegistry.step (plainRegistry.start now)).federation_root =
          (ops'.foldl plainRegistry.step (plainRegistry.start now')).federation_root ↔
        SameCommitment (ops.foldl plainRegistry.step (plainRegistry.start now))
          (ops'.foldl plainRegistry.step (plainRegistry.start now')))) ↔ ¬ ':' ≠ ':' :=
  root_commits_iff plainRegistry plainRegistry_free plainRegistry_genesis (· ≠ ':')

end Example

end SimpleL1.Settlement.FederationRegistry
