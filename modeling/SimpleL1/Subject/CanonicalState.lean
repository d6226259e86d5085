import SimpleL1.Subject.Authority
import Mathlib.Data.List.Dedup

/-!
# Canonical subject states

The state an event leaves is canonical: its lists are sorted, and those of texts
and of ids have every entry once. An event leaves a canonical state as it is just
when its id was applied before and its action finds nothing to do.
-/

namespace SimpleL1.Subject

open SimpleL1.Js

/-! ## Sorted lists -/

theorem keyLe_total_std : Std.Total fun a b : String => keyLe a b = true :=
  ⟨fun a b => lexLe_total (a.toList.flatMap utf16) (b.toList.flatMap utf16)⟩

theorem keyLe_isTrans : IsTrans String fun a b : String => keyLe a b = true :=
  ⟨fun _ _ _ => lexLe_trans⟩

theorem mem_sortedUnique {x : String} {xs : List String} : x ∈ sortedUnique xs ↔ x ∈ xs ∧ x ≠ "" := by
  simp [sortedUnique]

theorem nodup_sortedUnique (xs : List String) : (sortedUnique xs).Nodup :=
  (List.perm_insertionSort _ _).nodup_iff.mpr (List.nodup_dedup _)

theorem sorted_sortedUnique (xs : List String) :
    (sortedUnique xs).Pairwise fun a b => keyLe a b = true :=
  have := keyLe_total_std
  have := keyLe_isTrans
  List.pairwise_insertionSort _ _

/-- Only which texts are listed counts. -/
theorem sortedUnique_congr {xs ys : List String} (h : ∀ x, x ≠ "" → (x ∈ xs ↔ x ∈ ys)) :
    sortedUnique xs = sortedUnique ys := by
  have hperm : (sortedUnique xs).Perm (sortedUnique ys) := by
    refine (List.perm_ext_iff_of_nodup (nodup_sortedUnique xs) (nodup_sortedUnique ys)).mpr fun x => ?_
    rw [mem_sortedUnique, mem_sortedUnique]
    exact and_congr_left (h x)
  exact hperm.eq_of_pairwise (fun _ _ _ _ => keyLe_antisymm) (sorted_sortedUnique xs)
    (sorted_sortedUnique ys)

@[simp] theorem sortedUnique_sortedUnique (xs : List String) :
    sortedUnique (sortedUnique xs) = sortedUnique xs :=
  sortedUnique_congr fun x hx => by simp [mem_sortedUnique, hx]

variable {xs : List String} {t : String}

theorem sortedUnique_snoc_iff (hxs : sortedUnique xs = xs) (ht : t ≠ "") :
    sortedUnique (xs ++ [t]) = xs ↔ t ∈ xs := by
  constructor
  · intro h
    rw [← h, mem_sortedUnique]
    exact ⟨List.mem_append_right xs (.head []), ht⟩
  · intro h
    conv_rhs => rw [← hxs]
    refine sortedUnique_congr fun x _ => ?_
    rw [List.mem_append, List.mem_singleton, or_iff_left_iff_imp]
    rintro rfl
    exact h

theorem sortedUnique_remove_iff (hxs : sortedUnique xs = xs) :
    sortedUnique (xs.filter (· ≠ t)) = xs ↔ t ∉ xs := by
  constructor
  · intro h hmem
    rw [← h, mem_sortedUnique, List.mem_filter] at hmem
    simp at hmem
  · intro h
    rw [List.filter_eq_self.mpr fun x hx => by simpa using fun he : x = t => h (he ▸ hx), hxs]

theorem sortedUnique_singleton (ht : t ≠ "") : sortedUnique [t] = [t] := by
  simp [sortedUnique, ht]

/-! ## Records in the order of their texts -/

variable {α : Type} {p : Platform} {toJson : α → Json}

theorem perm_sortByText (xs : List α) : (sortByText p toJson xs).Perm xs :=
  List.perm_insertionSort _ xs

@[simp] theorem mem_sortByText {x : α} {xs : List α} : x ∈ sortByText p toJson xs ↔ x ∈ xs :=
  List.mem_insertionSort _

@[simp] theorem length_sortByText (xs : List α) : (sortByText p toJson xs).length = xs.length :=
  List.length_insertionSort _ xs

@[simp] theorem sortByText_sortByText (xs : List α) :
    sortByText p toJson (sortByText p toJson xs) = sortByText p toJson xs := by
  let le (a b : α) : Prop :=
    p.localeCompare (Node.stableStringify (toJson a)) (Node.stableStringify (toJson b)) ≤ 0
  have htotal : Std.Total le := ⟨fun _ _ => p.localeCompare_total _ _⟩
  have htrans : IsTrans α le := ⟨fun _ _ _ => p.localeCompare_trans _ _ _⟩
  exact (List.pairwise_insertionSort le xs).insertionSort_eq

theorem sortByText_snoc_ne (xs : List α) (x : α) : sortByText p toJson (xs ++ [x]) ≠ xs := by
  intro h
  have hlength := congrArg List.length h
  rw [length_sortByText, List.length_append, List.length_singleton] at hlength
  omega

theorem sortByText_filter_iff {xs : List α} {q : α → Bool} (hxs : sortByText p toJson xs = xs) :
    sortByText p toJson (xs.filter q) = xs ↔ ∀ x ∈ xs, q x = true := by
  constructor
  · intro h
    have hlength := congrArg List.length h
    rw [length_sortByText] at hlength
    exact List.length_filter_eq_length_iff.mp hlength
  · intro h
    rw [List.filter_eq_self.mpr h, hxs]

/-! ## Ids -/

/-- The id is listed. -/
def Listed (ids : List Json) (id : Json) : Bool := ids.any fun k => strictEq (some k) (some id)

/-- No two ids are the same. -/
def Apart (ids : List Json) : Prop := ids.Pairwise fun k id => strictEq (some k) (some id) = false

theorem apart_snoc {ids : List Json} {id : Json} :
    Apart (ids ++ [id]) ↔ Apart ids ∧ Listed ids id = false := by
  simp [Apart, Listed, List.pairwise_append]

theorem firstOfEach_snoc (ids : List Json) (id : Json) :
    firstOfEach (ids ++ [id]) = if Listed (firstOfEach ids) id then firstOfEach ids
      else firstOfEach ids ++ [id] := by
  rw [firstOfEach, List.foldl_append]
  rfl

theorem apart_firstOfEach (ids : List Json) : Apart (firstOfEach ids) := by
  induction ids using List.reverseRecOn with
  | nil => exact List.Pairwise.nil
  | append_singleton ids id ih =>
    rw [firstOfEach_snoc]
    split
    · exact ih
    · next h => exact apart_snoc.mpr ⟨ih, by simpa using h⟩

theorem firstOfEach_of_apart {ids : List Json} (h : Apart ids) : firstOfEach ids = ids := by
  induction ids using List.reverseRecOn with
  | nil => rfl
  | append_singleton ids id ih =>
    obtain ⟨hids, hid⟩ := apart_snoc.mp h
    rw [firstOfEach_snoc, ih hids, hid]
    rfl

theorem mem_of_mem_firstOfEach {ids : List Json} {id : Json} (h : id ∈ firstOfEach ids) : id ∈ ids := by
  induction ids using List.reverseRecOn with
  | nil => exact h
  | append_singleton ids k ih =>
    rw [firstOfEach_snoc] at h
    split at h
    · exact List.mem_append_left _ (ih h)
    · rcases List.mem_append.mp h with h | h
      · exact List.mem_append_left _ (ih h)
      · exact List.mem_append_right _ h

/-- The texts that are compared. -/
theorem keyed_eq_ok {ids : List Json} {keyed : List (String × Json)} :
    (ids.mapM fun v => (·, v) <$> v.toStr) = .ok keyed ↔
      keyed.map Prod.snd = ids ∧ ∀ kv ∈ keyed, kv.2.toStr = .ok kv.1 := by
  induction ids generalizing keyed with
  | nil =>
    constructor
    · intro h
      cases h
      exact ⟨rfl, fun _ h => nomatch h⟩
    · rintro ⟨h, -⟩
      rw [List.map_eq_nil_iff.mp h]
      rfl
  | cons id ids ih =>
    rw [mapM_cons_eq_ok]
    constructor
    · rintro ⟨kv, rest, hkv, hrest, rfl⟩
      obtain ⟨key, hkey, rfl⟩ := map_eq_ok.mp hkv
      obtain ⟨hsnd, hall⟩ := ih.mp hrest
      refine ⟨by rw [List.map_cons, hsnd], fun kv hkv => ?_⟩
      rcases List.mem_cons.mp hkv with rfl | hkv
      · exact hkey
      · exact hall kv hkv
    · rintro ⟨hsnd, hall⟩
      cases keyed with
      | nil => cases hsnd
      | cons kv rest =>
        rw [List.map_cons, List.cons.injEq] at hsnd
        obtain ⟨rfl, hsnd⟩ := hsnd
        rw [List.forall_mem_cons] at hall
        exact ⟨kv, rest, map_eq_ok.mpr ⟨kv.1, hall.1, rfl⟩, ih.mpr ⟨hsnd, hall.2⟩, rfl⟩

/-- Sorting changes the order at most. -/
theorem perm_sortByString {ids sorted : List Json} (h : sortByString ids = .ok sorted) :
    sorted.Perm ids := by
  unfold sortByString at h
  split at h
  · cases h
    exact .refl ids
  · obtain ⟨keyed, hkeyed, h⟩ := bind_eq_ok.mp h
    cases h
    refine ((List.perm_insertionSort _ keyed).map Prod.snd).trans ?_
    rw [(keyed_eq_ok.mp hkeyed).1]

theorem sortByString_sorted {ids sorted : List Json} (h : sortByString ids = .ok sorted) :
    sortByString sorted = .ok sorted := by
  have hlength := (perm_sortByString h).length_eq
  unfold sortByString at h ⊢
  rw [hlength]
  split at h
  · next hle =>
    rw [if_pos hle]
    rfl
  · next hlt =>
    rw [if_neg hlt]
    obtain ⟨keyed, hkeyed, h⟩ := bind_eq_ok.mp h
    cases h
    let le (a b : String × Json) : Prop := keyLe a.1 b.1 = true
    have htotal : Std.Total le := ⟨fun a b => lexLe_total _ _⟩
    have htrans : IsTrans (String × Json) le := ⟨fun a b c => lexLe_trans⟩
    have hperm := List.perm_insertionSort le keyed
    refine bind_eq_ok.mpr ⟨keyed.insertionSort le, keyed_eq_ok.mpr ⟨rfl, fun kv hkv => ?_⟩, ?_⟩
    · exact (keyed_eq_ok.mp hkeyed).2 kv (hperm.mem_iff.mp hkv)
    · rw [(List.pairwise_insertionSort le keyed).insertionSort_eq]
      rfl

theorem apart_of_perm {ids ids' : List Json} (h : ids.Perm ids') (hids : Apart ids) : Apart ids' :=
  hids.perm h fun hab => by rwa [strictEq_comm]

/-- The ids of a canonical state. -/
structure CanonicalIds (ids : List Json) : Prop where
  apart : Apart ids
  truthy : ∀ id ∈ ids, id.truthy = true
  sorted : sortByString ids = .ok ids

theorem canonicalIds_of_sortedUniqueIds {ids ids' : List Json} (h : sortedUniqueIds ids = .ok ids') :
    CanonicalIds ids' := by
  have hperm := perm_sortByString h
  refine ⟨apart_of_perm hperm.symm (apart_firstOfEach _), fun id hid => ?_, sortByString_sorted h⟩
  have hmem := mem_of_mem_firstOfEach (hperm.mem_iff.mp hid)
  exact (List.mem_filter.mp hmem).2

theorem CanonicalIds.sortedUniqueIds {ids : List Json} (h : CanonicalIds ids) :
    sortedUniqueIds ids = .ok ids := by
  rw [Subject.sortedUniqueIds, List.filter_eq_self.mpr h.truthy, firstOfEach_of_apart h.apart, h.sorted]

/-- Only an id that is listed adds nothing. -/
theorem CanonicalIds.snoc_iff {ids : List Json} (h : CanonicalIds ids) {id : Json}
    (hid : id.truthy = true) : Subject.sortedUniqueIds (ids ++ [id]) = .ok ids ↔ Listed ids id = true := by
  rw [Subject.sortedUniqueIds, List.filter_append, List.filter_eq_self.mpr h.truthy,
    List.filter_cons_of_pos hid, List.filter_nil, firstOfEach_snoc, firstOfEach_of_apart h.apart]
  split
  · next hlisted => exact ⟨fun _ => hlisted, fun _ => h.sorted⟩
  · next hlisted =>
    refine ⟨fun hsort => ?_, fun hl => absurd hl hlisted⟩
    have hlength := (perm_sortByString hsort).length_eq
    rw [List.length_append, List.length_singleton] at hlength
    omega

/-! ## Canonical states -/

/-- The state is what `canonicalSubjectState` makes of it. -/
structure Canonical (p : Platform) (s : SubjectState) : Prop where
  subject : s.identity_continuity.subject = s.subject
  controllers : sortedUnique s.identity_continuity.controllers = s.identity_continuity.controllers
  authority : ∀ d, sortedUnique (s.effective_authority d) = s.effective_authority d
  relationships : sortByText p Relationship.toJson s.relationships = s.relationships
  delegations : sortByText p Delegation.toJson s.delegations = s.delegations
  transfers : sortByText p Transfer.toJson s.transfers = s.transfers
  ids : CanonicalIds s.applied_events

variable {s s' : SubjectState}

/-- What a state has to have for another to be made of it. -/
theorem canonicalSubjectState_eq_ok_iff (hs : Canonical p s) :
    canonicalSubjectState p s' = .ok s ↔
      s'.subject = s.subject ∧ s'.identity_continuity.status = s.identity_continuity.status ∧
      sortedUnique s'.identity_continuity.controllers = s.identity_continuity.controllers ∧
      (∀ d, sortedUnique (s'.effective_authority d) = s.effective_authority d) ∧
      sortByText p Relationship.toJson s'.relationships = s.relationships ∧
      sortByText p Delegation.toJson s'.delegations = s.delegations ∧
      sortByText p Transfer.toJson s'.transfers = s.transfers ∧
      sortedUniqueIds s'.applied_events = .ok s.applied_events := by
  have hsubject := hs.subject
  obtain ⟨subject, ⟨subject', status, controllers⟩, authority, relationships, delegations, transfers,
    applied⟩ := s
  cases hsubject
  rw [canonicalSubjectState, map_eq_ok]
  simp only [SubjectState.ordered, SubjectState.mk.injEq, IdentityContinuity.mk.injEq]
  constructor
  · rintro ⟨ids, hids, rfl, ⟨-, rfl, rfl⟩, rfl, rfl, rfl, rfl, rfl⟩
    exact ⟨rfl, rfl, rfl, fun _ => rfl, rfl, rfl, rfl, hids⟩
  · rintro ⟨rfl, rfl, rfl, hauthority, rfl, rfl, rfl, hids⟩
    exact ⟨applied, hids, rfl, ⟨rfl, rfl, rfl⟩, funext hauthority, rfl, rfl, rfl, rfl⟩

theorem canonical_of_canonicalSubjectState (h : canonicalSubjectState p s' = .ok s) :
    Canonical p s := by
  obtain ⟨ids, hids, rfl⟩ := map_eq_ok.mp h
  exact ⟨rfl, sortedUnique_sortedUnique _, fun _ => sortedUnique_sortedUnique _,
    sortByText_sortByText _, sortByText_sortByText _, sortByText_sortByText _,
    canonicalIds_of_sortedUniqueIds hids⟩

theorem Canonical.canonicalSubjectState (hs : Canonical p s) :
    canonicalSubjectState p s = .ok s :=
  (canonicalSubjectState_eq_ok_iff hs).mpr ⟨rfl, rfl, hs.controllers, hs.authority, hs.relationships,
    hs.delegations, hs.transfers, hs.ids.sortedUniqueIds⟩

/-! ## Events that do nothing -/

/-- The action finds the state as it would leave it. -/
def IdleAction (s : SubjectState) (e : AuthorityEvent) : Action → Prop
  | .genesis => s.identity_continuity.status = "continuous"
  | .bind_controller => s.identity_continuity.status = "continuous" ∧
      e.target ∈ s.identity_continuity.controllers ∧ e.target ∈ s.effective_authority .identity
  | .rotate_key => s.identity_continuity.status = "continuous" ∧
      s.identity_continuity.controllers = [e.target] ∧ s.effective_authority .identity = [e.target]
  | .revoke_controller => e.target ∉ s.identity_continuity.controllers ∧
      e.target ∉ s.effective_authority .identity
  | .revoke_capability => (∀ g ∈ s.delegations, g.granted e.toAuthorityBasis = false) ∧
      ∃ d, AuthorityDomain.ofName e.authority_domain = some d ∧
        e.toAuthorityBasis.delegationKey ∉ s.effective_authority d
  | .bind_device | .transfer_device | .grant_capability | .bind_relationship | .accept_claim => False

/-- The event was applied already, and applied again it finds nothing to do. -/
def Idle (s : SubjectState) (e : AuthorityEvent) : Prop :=
  Listed s.applied_events e.event_id = true ∧ ∀ a, Action.ofName e.action = some a → IdleAction s e a

theorem authority_update_iff (hs : Canonical p s) {d : AuthorityDomain} {values : List String} :
    (∀ d', sortedUnique (Function.update s.effective_authority d values d') = s.effective_authority d') ↔
      sortedUnique values = s.effective_authority d := by
  constructor
  · intro h
    simpa using h d
  · intro h d'
    by_cases hd : d' = d
    · subst hd
      rw [Function.update_self, h]
    · rw [Function.update_of_ne hd, hs.authority]

variable {e : AuthorityEvent}

theorem exists_ok_and {α : Type} {a : α} {P : α → Prop} : (∃ b, (.ok a : JsM α) = .ok b ∧ P b) ↔ P a :=
  ⟨fun ⟨_, h, hP⟩ => by cases h; exact hP, fun hP => ⟨a, rfl, hP⟩⟩

theorem authorityDomain_eq_ok {method : String} {d : AuthorityDomain} :
    authorityDomain e.toAuthorityBasis method = .ok d ↔
      AuthorityDomain.ofName e.authority_domain = some d := by
  unfold authorityDomain
  cases h : AuthorityDomain.ofName e.authority_domain with
  | none => exact ⟨fun h => (nomatch h), fun h => (nomatch h)⟩
  | some d' =>
    show Except.ok d' = _ ↔ _
    rw [Except.ok.injEq, Option.some.injEq]

/-- An action leads from a canonical state back to it just when it is idle there. -/
theorem canonical_action_iff (hs : Canonical p s) (ht : e.target ≠ "") (hid : e.event_id.truthy = true)
    (a : Action) :
    (∃ s', applyAction (s.applied e) e a = .ok s' ∧ canonicalSubjectState p s' = .ok s) ↔
      Listed s.applied_events e.event_id = true ∧ IdleAction s e a := by
  have hids := hs.ids.snoc_iff hid
  have hcontrollers := hs.controllers
  have hauthority := hs.authority
  cases a with
  | genesis =>
    refine exists_ok_and.trans ((canonicalSubjectState_eq_ok_iff hs).trans ⟨?_, ?_⟩)
    · rintro ⟨-, hstatus, -, -, -, -, -, hi⟩
      exact ⟨hids.mp hi, hstatus.symm⟩
    · rintro ⟨hi, hstatus⟩
      exact ⟨rfl, hstatus.symm, hcontrollers, hauthority, hs.relationships, hs.delegations,
        hs.transfers, hids.mpr hi⟩
  | bind_controller =>
    refine exists_ok_and.trans ((canonicalSubjectState_eq_ok_iff hs).trans ⟨?_, ?_⟩)
    · rintro ⟨-, hstatus, hc, ha, -, -, -, hi⟩
      exact ⟨hids.mp hi, hstatus.symm, (sortedUnique_snoc_iff hcontrollers ht).mp hc,
        (sortedUnique_snoc_iff (hauthority _) ht).mp ((authority_update_iff hs).mp ha)⟩
    · rintro ⟨hi, hstatus, hc, ha⟩
      exact ⟨rfl, hstatus.symm, (sortedUnique_snoc_iff hcontrollers ht).mpr hc,
        (authority_update_iff hs).mpr ((sortedUnique_snoc_iff (hauthority _) ht).mpr ha),
        hs.relationships, hs.delegations, hs.transfers, hids.mpr hi⟩
  | rotate_key =>
    refine exists_ok_and.trans ((canonicalSubjectState_eq_ok_iff hs).trans ⟨?_, ?_⟩)
    · rintro ⟨-, hstatus, hc, ha, -, -, -, hi⟩
      have hsingle := sortedUnique_singleton ht
      exact ⟨hids.mp hi, hstatus.symm, hc.symm.trans hsingle,
        ((authority_update_iff hs).mp ha).symm.trans hsingle⟩
    · rintro ⟨hi, hstatus, hc, ha⟩
      have hsingle := sortedUnique_singleton ht
      exact ⟨rfl, hstatus.symm, hsingle.trans hc.symm,
        (authority_update_iff hs).mpr (hsingle.trans ha.symm), hs.relationships, hs.delegations,
        hs.transfers, hids.mpr hi⟩
  | revoke_controller =>
    refine exists_ok_and.trans ((canonicalSubjectState_eq_ok_iff hs).trans ⟨?_, ?_⟩)
    · rintro ⟨-, -, hc, ha, -, -, -, hi⟩
      exact ⟨hids.mp hi, (sortedUnique_remove_iff hcontrollers).mp hc,
        (sortedUnique_remove_iff (hauthority _)).mp ((authority_update_iff hs).mp ha)⟩
    · rintro ⟨hi, hc, ha⟩
      exact ⟨rfl, rfl, (sortedUnique_remove_iff hcontrollers).mpr hc,
        (authority_update_iff hs).mpr ((sortedUnique_remove_iff (hauthority _)).mpr ha),
        hs.relationships, hs.delegations, hs.transfers, hids.mpr hi⟩
  | revoke_capability =>
    constructor
    · rintro ⟨s', h, hcanon⟩
      obtain ⟨d, hd, h⟩ := bind_eq_ok.mp h
      cases h
      obtain ⟨-, -, -, ha, -, hg, -, hi⟩ := (canonicalSubjectState_eq_ok_iff hs).mp hcanon
      refine ⟨hids.mp hi, fun g hg' => ?_, d, authorityDomain_eq_ok.mp hd,
        (sortedUnique_remove_iff (hauthority d)).mp ((authority_update_iff hs).mp ha)⟩
      simpa using (sortByText_filter_iff hs.delegations).mp hg g hg'
    · rintro ⟨hi, hg, d, hd, ha⟩
      refine ⟨_, bind_eq_ok.mpr ⟨d, authorityDomain_eq_ok.mpr hd, rfl⟩,
        (canonicalSubjectState_eq_ok_iff hs).mpr ⟨rfl, rfl, hcontrollers, ?_, hs.relationships, ?_,
          hs.transfers, hids.mpr hi⟩⟩
      · exact (authority_update_iff hs).mpr ((sortedUnique_remove_iff (hauthority d)).mpr ha)
      · exact (sortByText_filter_iff hs.delegations).mpr fun g hg' => by simpa using hg g hg'
  | grant_capability =>
    -- a delegation more is a different state
    refine ⟨fun ⟨s', h, hcanon⟩ => ?_, fun h => h.2.elim⟩
    obtain ⟨d, -, h⟩ := bind_eq_ok.mp h
    cases h
    obtain ⟨-, -, -, -, -, hg, -, -⟩ := (canonicalSubjectState_eq_ok_iff hs).mp hcanon
    exact (sortByText_snoc_ne _ _ hg).elim
  | transfer_device =>
    refine ⟨fun ⟨s', h, hcanon⟩ => ?_, fun h => h.2.elim⟩
    cases h
    obtain ⟨-, -, -, -, -, -, htransfers, -⟩ := (canonicalSubjectState_eq_ok_iff hs).mp hcanon
    exact (sortByText_snoc_ne _ _ htransfers).elim
  | bind_device | bind_relationship | accept_claim =>
    refine ⟨fun ⟨s', h, hcanon⟩ => ?_, fun h => h.2.elim⟩
    cases h
    obtain ⟨-, -, -, -, hrelationships, -⟩ := (canonicalSubjectState_eq_ok_iff hs).mp hcanon
    exact (sortByText_snoc_ne _ _ hrelationships).elim

/-- An event leaves a canonical state as it is just when it is idle there. -/
theorem applyAuthorityEvent_eq_self_iff (hs : Canonical p s) (ht : e.target ≠ "")
    (hid : e.event_id.truthy = true) {a : Action} (ha : Action.ofName e.action = some a) :
    applyAuthorityEvent p s e = .ok s ↔ Idle s e := by
  have hnext : nextState s e = applyAction (s.applied e) e a := by rw [nextState, ha]
  rw [applyAuthorityEvent, bind_eq_ok, hnext, canonical_action_iff hs ht hid]
  simp [Idle, ha]

theorem canonical_applyAuthorityEvent (h : applyAuthorityEvent p s e = .ok s') : Canonical p s' := by
  obtain ⟨next, -, h⟩ := bind_eq_ok.mp h
  exact canonical_of_canonicalSubjectState h

end SimpleL1.Subject
