import Mathlib.Data.List.Dedup
import SimpleL1.Mesh.Observations

/-!
# Merging in every order

The order of the observations decides between devices that are level, between newest
observations of one device, between providers, and between proposals of which none is
approved. The merge is the same in every order exactly when all of these agree.
-/

namespace SimpleL1.Mesh

open SimpleL1.Js SimpleL1.Lib

def stateObservations (observations : List Observation) : List Observation :=
  observations.filter Observation.isState

/-- No observation of the device has a higher sequence. -/
structure Newest (items : List Observation) (o : Observation) : Prop where
  mem : o ∈ items
  top : ∀ x ∈ items, x.deviceKey = o.deviceKey → numberOf x.sequence ≤ numberOf o.sequence

/-- A newest observation that comes from the provider, or that no other device must exceed with its own. -/
structure MayWin (items : List Observation) (o : Observation) : Prop where
  newest : Newest items o
  wins : o.fromProvider = true ∨ ∀ x ∈ items, x.deviceKey ≠ o.deviceKey →
    ∃ q, Newest items q ∧ q.deviceKey = x.deviceKey ∧ q.fromProvider = false ∧
      numberOf q.observed_epoch ≤ numberOf o.observed_epoch

/-! ## What is selected may win -/

variable {items observations : List Observation} {o p q : Observation}

theorem newest_of_highest {x : Observation}
    (h : selectedByMonotonicSequence (withKey Observation.deviceKey items x.deviceKey) = some p) :
    Newest items p ∧ p.deviceKey = x.deviceKey := by
  obtain ⟨hmem, hkey⟩ := mem_withKey.mp (mem_of_highest h)
  refine ⟨⟨hmem, fun y hy hyk => ?_⟩, hkey⟩
  have hle := rank_le_highest h (mem_withKey.mpr ⟨hy, hyk.trans hkey⟩)
  exact hle

theorem mem_selectedByDevice : p ∈ selectedByDevice items ↔
    ∃ x ∈ items, selectedByMonotonicSequence (withKey Observation.deviceKey items x.deviceKey) = some p := by
  unfold selectedByDevice
  rw [List.mem_filterMap]
  constructor
  · rintro ⟨g, hg, hp⟩
    obtain ⟨x, hx, rfl⟩ := mem_groupsBy.mp hg
    exact ⟨x, hx, hp⟩
  · rintro ⟨x, hx, hp⟩
    exact ⟨_, mem_groupsBy.mpr ⟨x, hx, rfl⟩, hp⟩

/-- Every device has a selection. -/
theorem exists_selectedByDevice {x : Observation} (hx : x ∈ items) :
    ∃ p ∈ selectedByDevice items, Newest items p ∧ p.deviceKey = x.deviceKey := by
  have hne : withKey Observation.deviceKey items x.deviceKey ≠ [] :=
    List.ne_nil_of_mem (mem_withKey.mpr ⟨hx, rfl⟩)
  obtain ⟨p, hp⟩ : ∃ p, selectedByMonotonicSequence (withKey Observation.deviceKey items x.deviceKey) = some p :=
    highest_isSome hne
  exact ⟨p, mem_selectedByDevice.mpr ⟨x, hx, hp⟩, newest_of_highest hp⟩

theorem newest_of_selectedByDevice (hp : p ∈ selectedByDevice items) : Newest items p := by
  obtain ⟨x, -, hp⟩ := mem_selectedByDevice.mp hp
  exact (newest_of_highest hp).1

theorem mayWin_of_dominance (h : selectedByProviderDominance (selectedByDevice items) = some o) :
    MayWin items o := by
  unfold selectedByProviderDominance at h
  split at h
  · next provider hfind =>
    cases h
    exact ⟨newest_of_selectedByDevice (List.mem_of_find?_eq_some hfind), .inl (List.find?_some hfind)⟩
  · next hnone =>
    refine ⟨newest_of_selectedByDevice (mem_of_highest h), .inr fun x hx _ => ?_⟩
    obtain ⟨q, hq, hnewest, hkey⟩ := exists_selectedByDevice hx
    have hprovider := List.find?_eq_none.mp hnone q hq
    have hle := rank_le_highest h hq
    exact ⟨q, hnewest, hkey, by simpa using hprovider, hle⟩

theorem selectedState_eq : selectedState observations =
    selectedByProviderDominance (selectedByDevice (stateObservations observations)) := by
  unfold selectedState
  dsimp only
  split
  · rfl
  · next hempty =>
    have hnil : observations.filter Observation.isState = [] := by
      by_contra hne
      obtain ⟨x, hx⟩ := List.exists_mem_of_ne_nil _ hne
      obtain ⟨p, hp, -⟩ := exists_selectedByDevice hx
      rw [not_not, List.length_eq_zero_iff] at hempty
      rw [hempty] at hp
      cases hp
    rw [stateObservations, hnil]
    rfl

theorem selectedState_isSome (h : stateObservations observations ≠ []) :
    ∃ o, selectedState observations = some o := by
  obtain ⟨x, hx⟩ := List.exists_mem_of_ne_nil _ h
  obtain ⟨p, hp, -⟩ := exists_selectedByDevice hx
  rw [selectedState_eq]
  unfold selectedByProviderDominance
  split
  · exact ⟨_, rfl⟩
  · exact highest_isSome (List.ne_nil_of_mem hp)

/-! ## What may win is selected in some order -/

/-- The first observation is selected if its device has no newer one, and it is from the provider or
nothing selected for a device is, or exceeds it. -/
theorem selected_cons {rest : List Observation} (hnewest : Newest (o :: rest) o)
    (hwins : o.fromProvider = true ∨ ∀ p ∈ selectedByDevice (o :: rest), p.fromProvider = false ∧
      numberOf p.observed_epoch ≤ numberOf o.observed_epoch) :
    selectedByProviderDominance (selectedByDevice (o :: rest)) = some o := by
  have hfirst : ∃ others, selectedByDevice (o :: rest) = o :: others := by
    have hhead := head_groupsBy Observation.deviceKey o rest
    unfold selectedByDevice
    cases hgroups : (groupsBy Observation.deviceKey (o :: rest)).entries.map Prod.snd with
    | nil =>
      rw [hgroups] at hhead
      cases hhead
    | cons g groups =>
      rw [hgroups] at hhead
      have hg : g = o :: withKey Observation.deviceKey rest o.deviceKey := by
        rw [Option.some.inj hhead, withKey, List.filter_cons_of_pos (by simp)]
        rfl
      have hselected : selectedByMonotonicSequence g = some o := by
        rw [hg]
        refine highest_cons fun x hx => ?_
        obtain ⟨hmem, hkey⟩ := mem_withKey.mp hx
        exact hnewest.top x (List.mem_cons_of_mem o hmem) hkey
      exact ⟨_, List.filterMap_cons_some hselected⟩
  obtain ⟨others, hothers⟩ := hfirst
  rw [hothers] at hwins ⊢
  unfold selectedByProviderDominance
  by_cases hprovider : o.fromProvider = true
  · rw [List.find?_cons_of_pos hprovider]
  · have hlow := hwins.resolve_left hprovider
    have hnone : (o :: others).find? Observation.fromProvider = none :=
      List.find?_eq_none.mpr fun p hp => by simp [(hlow p hp).1]
    rw [hnone]
    exact highest_cons fun p hp => (hlow p (List.mem_cons_of_mem o hp)).2

theorem newest_iff_of_perm {items' : List Observation} (h : items.Perm items') :
    Newest items o ↔ Newest items' o := by
  refine ⟨fun hn => ⟨h.mem_iff.mp hn.mem, fun x hx => hn.top x (h.mem_iff.mpr hx)⟩,
    fun hn => ⟨h.mem_iff.mpr hn.mem, fun x hx => hn.top x (h.mem_iff.mp hx)⟩⟩

theorem mayWin_iff_of_perm {items' : List Observation} (h : items.Perm items') :
    MayWin items o ↔ MayWin items' o := by
  have hone : ∀ {items items' : List Observation}, items.Perm items' → MayWin items o → MayWin items' o := by
    intro items items' h hwin
    refine ⟨(newest_iff_of_perm h).mp hwin.newest, hwin.wins.imp_right fun hall x hx hne => ?_⟩
    obtain ⟨q, hq, hrest⟩ := hall x (h.mem_iff.mpr hx) hne
    exact ⟨q, (newest_iff_of_perm h).mp hq, hrest⟩
  exact ⟨hone h, hone h.symm⟩

/-- Newest observations of every device, if they come first, are what is selected. -/
theorem selectedByDevice_subset {firsts rest : List Observation}
    (hkeys : (firsts.map Observation.deviceKey).Nodup) (hnewest : ∀ q ∈ firsts, Newest (firsts ++ rest) q)
    (hcover : ∀ x ∈ rest, ∃ q ∈ firsts, q.deviceKey = x.deviceKey) :
    ∀ p ∈ selectedByDevice (firsts ++ rest), p ∈ firsts := by
  intro p hp
  obtain ⟨x, hx, hp⟩ := mem_selectedByDevice.mp hp
  obtain ⟨q, hq, hqx⟩ : ∃ q ∈ firsts, q.deviceKey = x.deviceKey := by
    obtain hx | hx := List.mem_append.mp hx
    · exact ⟨x, hx, rfl⟩
    · exact hcover x hx
  have hgroup : withKey Observation.deviceKey (firsts ++ rest) x.deviceKey =
      q :: withKey Observation.deviceKey rest x.deviceKey := by
    rw [withKey_append, ← hqx, withKey_of_nodup hkeys hq]
    rfl
  have hselected : selectedByMonotonicSequence (withKey Observation.deviceKey (firsts ++ rest) x.deviceKey) =
      some q := by
    rw [hgroup]
    refine highest_cons fun y hy => ?_
    obtain ⟨hmem, hkey⟩ := mem_withKey.mp hy
    exact (hnewest q hq).top y (List.mem_append_right _ hmem) (hkey.trans hqx.symm)
  rw [hselected] at hp
  cases hp
  exact hq

/-- Some of the elements, each once, can be put first. -/
theorem exists_perm_append {α : Type} {firsts xs : List α} (hnodup : firsts.Nodup) (hsub : firsts ⊆ xs) :
    ∃ rest, xs.Perm (firsts ++ rest) := by
  obtain ⟨l, hl, hsublist⟩ := List.subperm_of_subset hnodup hsub
  obtain ⟨rest, hrest⟩ := hsublist.exists_perm_append
  exact ⟨rest, hrest.trans (hl.append_right rest)⟩

/-- For each device other than its own, something that does not exceed the observation. -/
theorem exists_rivals (hwins : ∀ x ∈ items, x.deviceKey ≠ o.deviceKey →
      ∃ q, Newest items q ∧ q.deviceKey = x.deviceKey ∧ q.fromProvider = false ∧
        numberOf q.observed_epoch ≤ numberOf o.observed_epoch) :
    ∃ rivals : List Observation, (rivals.map Observation.deviceKey).Nodup ∧
      o.deviceKey ∉ rivals.map Observation.deviceKey ∧
      (∀ q ∈ rivals, Newest items q ∧ q.fromProvider = false ∧
        numberOf q.observed_epoch ≤ numberOf o.observed_epoch) ∧
      ∀ x ∈ items, x.deviceKey ≠ o.deviceKey → ∃ q ∈ rivals, q.deviceKey = x.deviceKey := by
  let keys := ((items.map Observation.deviceKey).filter fun k => k ≠ o.deviceKey).dedup
  have hmem : ∀ k, k ∈ keys ↔ (∃ x ∈ items, x.deviceKey = k) ∧ k ≠ o.deviceKey := fun k => by
    rw [List.mem_dedup, List.mem_filter, List.mem_map, decide_eq_true_eq]
  have hrival : ∀ k ∈ keys, ∃ q, Newest items q ∧ q.deviceKey = k ∧ q.fromProvider = false ∧
      numberOf q.observed_epoch ≤ numberOf o.observed_epoch := by
    intro k hk
    obtain ⟨⟨x, hx, rfl⟩, hne⟩ := (hmem k).mp hk
    exact hwins x hx hne
  have : Nonempty Observation := ⟨o⟩
  choose! rival hrival using hrival
  have hkeys : (keys.map rival).map Observation.deviceKey = keys := by
    rw [List.map_map]
    exact (List.map_congr_left fun k hk => (hrival k hk).2.1).trans (List.map_id keys)
  refine ⟨keys.map rival, ?_, ?_, fun q hq => ?_, fun x hx hne => ?_⟩
  · rw [hkeys]
    exact List.nodup_dedup _
  · rw [hkeys, hmem]
    exact fun h => h.2 rfl
  · obtain ⟨k, hk, rfl⟩ := List.mem_map.mp hq
    exact ⟨(hrival k hk).1, (hrival k hk).2.2⟩
  · have hk := (hmem x.deviceKey).mpr ⟨⟨x, hx, rfl⟩, hne⟩
    exact ⟨rival x.deviceKey, List.mem_map_of_mem hk, (hrival _ hk).2.1⟩

theorem stateObservations_append (xs ys : List Observation) :
    stateObservations (xs ++ ys) = stateObservations xs ++ stateObservations ys :=
  List.filter_append ..

theorem stateObservations_of_subset {firsts : List Observation} (h : firsts ⊆ stateObservations observations) :
    stateObservations firsts = firsts :=
  List.filter_eq_self.mpr fun _ hx => (List.mem_filter.mp (h hx)).2

/-- What may win is selected in some order. -/
theorem exists_order_of_mayWin (h : MayWin (stateObservations observations) o) :
    ∃ ys, ys.Perm observations ∧ selectedState ys = some o := by
  -- the observation first and, if it is not from the provider, something lower of each other device
  obtain ⟨firsts, hkeys, hsub, hothers⟩ : ∃ rivals : List Observation,
      ((o :: rivals).map Observation.deviceKey).Nodup ∧ o :: rivals ⊆ stateObservations observations ∧
      (o.fromProvider = true ∨ (∀ q ∈ o :: rivals, Newest (stateObservations observations) q ∧
        q.fromProvider = false ∧ numberOf q.observed_epoch ≤ numberOf o.observed_epoch) ∧
        ∀ x ∈ stateObservations observations, ∃ q ∈ o :: rivals, q.deviceKey = x.deviceKey) := by
    by_cases hprovider : o.fromProvider = true
    · exact ⟨[], List.nodup_singleton _, by simpa using h.newest.mem, .inl hprovider⟩
    · obtain ⟨rivals, hnodup, hnot, hrivals, hcover⟩ := exists_rivals (h.wins.resolve_left hprovider)
      have hall : ∀ q ∈ o :: rivals, Newest (stateObservations observations) q ∧
          q.fromProvider = false ∧ numberOf q.observed_epoch ≤ numberOf o.observed_epoch :=
        List.forall_mem_cons.mpr ⟨⟨h.newest, by simpa using hprovider, Int.le_refl _⟩, hrivals⟩
      refine ⟨rivals, List.nodup_cons.mpr ⟨hnot, hnodup⟩, fun q hq => (hall q hq).1.mem,
        .inr ⟨hall, fun x hx => ?_⟩⟩
      by_cases heq : x.deviceKey = o.deviceKey
      · exact ⟨o, List.mem_cons_self, heq.symm⟩
      · obtain ⟨q, hq, hqx⟩ := hcover x hx heq
        exact ⟨q, List.mem_cons_of_mem o hq, hqx⟩
  obtain ⟨rest, hperm⟩ := exists_perm_append (List.Nodup.of_map _ hkeys)
    (fun q hq => List.mem_of_mem_filter (hsub hq))
  have hstates : stateObservations (o :: firsts ++ rest) = o :: firsts ++ stateObservations rest := by
    rw [stateObservations_append, stateObservations_of_subset hsub]
  have hsame : (stateObservations observations).Perm (o :: firsts ++ stateObservations rest) :=
    hstates ▸ hperm.filter _
  refine ⟨o :: firsts ++ rest, hperm.symm, ?_⟩
  rw [selectedState_eq, hstates]
  refine selected_cons ((newest_iff_of_perm hsame).mp h.newest) (hothers.imp_right ?_)
  rintro ⟨hall, hcover⟩ p hp
  have hmem := selectedByDevice_subset hkeys (fun q hq => (newest_iff_of_perm hsame).mp (hall q hq).1)
    (fun x hx => hcover x (hsame.mem_iff.mpr (List.mem_append_right _ hx))) p hp
  exact (hall p hmem).2

/-! ## The selected state -/

def StatesAgree (observations : List Observation) : Prop :=
  ∀ o p, MayWin (stateObservations observations) o → MayWin (stateObservations observations) p →
    o.state_hash = p.state_hash

theorem perm_stateObservations {ys : List Observation} (h : ys.Perm observations) :
    (stateObservations ys).Perm (stateObservations observations) :=
  h.filter _

theorem nonEmpty_of_filled {s : Option String} (h : filled s = true) : nonEmpty s = s := by
  unfold filled at h
  obtain ⟨t, ht⟩ := Option.isSome_iff_exists.mp h
  rw [ht, (Option.filter_eq_some_iff.mp ht).1]

theorem selectedHash_of_mayWin (hwin : MayWin (stateObservations observations) o) {ys : List Observation}
    (hselected : selectedState ys = some o) : selectedHash ys = o.state_hash := by
  unfold selectedHash
  rw [hselected]
  exact nonEmpty_of_filled (List.mem_filter.mp hwin.newest.mem).2

theorem selectedHash_agree_iff :
    (∀ ys, ys.Perm observations → selectedHash ys = selectedHash observations) ↔ StatesAgree observations := by
  constructor
  · intro hall o p ho hp
    obtain ⟨ys, hys, hyo⟩ := exists_order_of_mayWin ho
    obtain ⟨zs, hzs, hzp⟩ := exists_order_of_mayWin hp
    rw [← selectedHash_of_mayWin ho hyo, ← selectedHash_of_mayWin hp hzp, hall ys hys, hall zs hzs]
  · intro hagree ys hys
    have hperm := perm_stateObservations hys
    by_cases hnil : stateObservations observations = []
    · rw [hnil] at hperm
      unfold selectedHash
      rw [selectedState_eq, selectedState_eq, List.perm_nil.mp hperm, hnil]
    · have hwins : ∀ {zs : List Observation} {o : Observation}, zs.Perm observations →
          selectedState zs = some o → MayWin (stateObservations observations) o := by
        intro zs o hzs hzo
        rw [selectedState_eq] at hzo
        exact (mayWin_iff_of_perm (perm_stateObservations hzs)).mp (mayWin_of_dominance hzo)
      obtain ⟨o, ho⟩ := selectedState_isSome hnil
      obtain ⟨p, hp⟩ : ∃ p, selectedState ys = some p :=
        selectedState_isSome fun hys => hnil (List.perm_nil.mp (hys ▸ hperm.symm))
      have hwo := hwins (.refl _) ho
      have hwp := hwins hys hp
      rw [selectedHash_of_mayWin hwp hp, selectedHash_of_mayWin hwo ho, hagree p o hwp hwo]

/-! ## The selected proposal -/

def ProposalsAgree (observations : List Observation) : Prop :=
  (∃ p ∈ proposalsOf observations, p.status = some "approved") ∨
    ∀ p ∈ proposalsOf observations, ∀ q ∈ proposalsOf observations, nonEmpty p.status = nonEmpty q.status

theorem proposalStatus_of_approved {proposals : List Observation}
    (h : ∃ p ∈ proposals, p.status = some "approved") : proposalStatus proposals = some "approved" := by
  obtain ⟨p, hp, hstatus⟩ := h
  unfold proposalStatus selectedProposal
  cases hfind : proposals.find? fun o => o.status = some "approved" with
  | none => exact absurd hstatus (by simpa using List.find?_eq_none.mp hfind p hp)
  | some q =>
    have hq : q.status = some "approved" := by simpa using List.find?_some hfind
    rw [Option.some_or, Option.bind_some, hq]
    rfl

theorem proposalStatus_of_none {proposals : List Observation}
    (h : ¬ ∃ p ∈ proposals, p.status = some "approved") :
    proposalStatus proposals = nonEmpty (proposals.head?.bind (·.status)) := by
  have hnone : (proposals.find? fun o => o.status = some "approved") = none :=
    List.find?_eq_none.mpr fun p hp => by simpa using fun hstatus => h ⟨p, hp, hstatus⟩
  unfold proposalStatus selectedProposal
  rw [hnone]
  rfl

theorem proposalStatus_agree_iff :
    (∀ ys, ys.Perm observations → proposalStatus (proposalsOf ys) = proposalStatus (proposalsOf observations)) ↔
      ProposalsAgree observations := by
  have hmem : ∀ {ys : List Observation}, ys.Perm observations → ∀ p,
      p ∈ proposalsOf ys ↔ p ∈ proposalsOf observations := fun hys p => (hys.filter _).mem_iff
  constructor
  · intro hall
    by_cases happroved : ∃ p ∈ proposalsOf observations, p.status = some "approved"
    · exact .inl happroved
    · have hfirst : ∀ p ∈ proposalsOf observations,
          nonEmpty p.status = proposalStatus (proposalsOf observations) := by
        intro p hp
        obtain ⟨rest, hperm⟩ := exists_perm_append (List.nodup_singleton p)
          (List.cons_subset.mpr ⟨List.mem_of_mem_filter hp, List.nil_subset _⟩)
        have hnone : ¬ ∃ q ∈ proposalsOf ([p] ++ rest), q.status = some "approved" := by
          rintro ⟨q, hq, hstatus⟩
          exact happroved ⟨q, (hmem hperm.symm q).mp hq, hstatus⟩
        have hhead : proposalsOf ([p] ++ rest) = p :: proposalsOf rest :=
          List.filter_cons_of_pos (List.mem_filter.mp hp).2
        rw [← hall _ hperm.symm, proposalStatus_of_none hnone, hhead]
        rfl
      exact .inr fun p hp q hq => (hfirst p hp).trans (hfirst q hq).symm
  · rintro hagree ys hys
    by_cases happroved : ∃ p ∈ proposalsOf observations, p.status = some "approved"
    · have hys' : ∃ p ∈ proposalsOf ys, p.status = some "approved" := by
        obtain ⟨p, hp, hstatus⟩ := happroved
        exact ⟨p, (hmem hys p).mpr hp, hstatus⟩
      rw [proposalStatus_of_approved happroved, proposalStatus_of_approved hys']
    · have hsame := hagree.resolve_left happroved
      have hys' : ¬ ∃ p ∈ proposalsOf ys, p.status = some "approved" := by
        rintro ⟨p, hp, hstatus⟩
        exact happroved ⟨p, (hmem hys p).mp hp, hstatus⟩
      rw [proposalStatus_of_none happroved, proposalStatus_of_none hys']
      have hperm : (proposalsOf ys).Perm (proposalsOf observations) := hys.filter _
      cases hp : proposalsOf observations with
      | nil =>
        rw [hp] at hperm
        rw [List.perm_nil.mp hperm]
      | cons p ps =>
        cases hq : proposalsOf ys with
        | nil =>
          have := (hmem hys p).mpr (hp ▸ List.mem_cons_self)
          rw [hq] at this
          cases this
        | cons q qs =>
          exact hsame q ((hmem hys q).mp (hq ▸ List.mem_cons_self)) p (hp ▸ List.mem_cons_self)

/-! ## Bindings and replays -/

theorem differ_iff {ns : List Int} : differ ns = true ↔ ∃ a ∈ ns, ∃ b ∈ ns, a < b := by
  unfold differ
  cases hmin : ns.min? with
  | none =>
    rw [List.min?_eq_none_iff.mp hmin]
    simp
  | some lo =>
    obtain ⟨hlo, hle⟩ := List.min?_eq_some_iff.mp hmin
    cases hmax : ns.max? with
    | none =>
      rw [List.max?_eq_none_iff.mp hmax] at hlo
      cases hlo
    | some hi =>
      obtain ⟨hhi, hge⟩ := List.max?_eq_some_iff.mp hmax
      rw [Bool.and_eq_true, decide_eq_true_eq, decide_eq_true_eq]
      constructor
      · exact fun h => ⟨lo, hlo, hi, hhi, h.2⟩
      · rintro ⟨a, ha, b, hb, hab⟩
        have hlt : lo < hi := by
          have := hle a ha
          have := hge b hb
          omega
        refine ⟨?_, hlt⟩
        by_contra hshort
        match ns, ha, hb with
        | [c], ha, hb =>
          rw [List.mem_singleton.mp ha, List.mem_singleton.mp hb] at hab
          exact absurd hab (Int.lt_irrefl c)
        | c :: d :: rest, _, _ => exact hshort (by simp)

theorem replayDetected_iff {proposals : List Observation} : replayDetected proposals = true ↔
    ∃ p ∈ proposals, ∃ q ∈ proposals, p.proposal_id = q.proposal_id ∧
      numberOf p.sequence < numberOf q.sequence := by
  unfold replayDetected
  rw [List.any_eq_true]
  constructor
  · rintro ⟨g, hg, hdiffer⟩
    obtain ⟨x, -, rfl⟩ := mem_groupsBy.mp hg
    obtain ⟨a, ha, b, hb, hab⟩ := differ_iff.mp hdiffer
    obtain ⟨p, hp, rfl⟩ := List.mem_map.mp ha
    obtain ⟨q, hq, rfl⟩ := List.mem_map.mp hb
    obtain ⟨hpm, hpx⟩ := mem_withKey.mp hp
    obtain ⟨hqm, hqx⟩ := mem_withKey.mp hq
    exact ⟨p, hpm, q, hqm, hpx.trans hqx.symm, hab⟩
  · rintro ⟨p, hp, q, hq, hkey, hlt⟩
    refine ⟨_, mem_groupsBy.mpr ⟨p, hp, rfl⟩, differ_iff.mpr ⟨_, ?_, _, ?_, hlt⟩⟩
    · exact List.mem_map.mpr ⟨p, mem_withKey.mpr ⟨hp, rfl⟩, rfl⟩
    · exact List.mem_map.mpr ⟨q, mem_withKey.mpr ⟨hq, hkey.symm⟩, rfl⟩

theorem replayDetected_of_perm {ps qs : List Observation} (h : ps.Perm qs) :
    replayDetected ps = replayDetected qs := by
  rw [Bool.eq_iff_iff, replayDetected_iff, replayDetected_iff]
  simp only [h.mem_iff]

theorem eq_of_dedup_short {α : Type} [DecidableEq α] {xs : List α} (h : ¬ 1 < xs.dedup.length) {a b : α}
    (ha : a ∈ xs) (hb : b ∈ xs) : a = b := by
  rw [← List.mem_dedup] at ha hb
  match hxs : xs.dedup, ha, hb with
  | [c], ha, hb => rw [List.mem_singleton.mp ha, List.mem_singleton.mp hb]
  | c :: d :: rest, _, _ => exact absurd (by rw [hxs]; simp) h

theorem bindingStatus_of_perm {ys : List Observation} (h : ys.Perm observations) :
    bindingStatus ys = bindingStatus observations ∧ conflictOf ys = conflictOf observations := by
  have hactive : (activeBindings ys).Perm (activeBindings observations) := h.filter _
  have hconflict : conflictOf ys = conflictOf observations := by
    unfold conflictOf
    rw [((hactive.map _).dedup).length_eq]
  have hrevoked : revokedOf ys = revokedOf observations := by
    have hids : (revokedBindingIds ys).Perm (revokedBindingIds observations) := (h.filter _).map _
    rw [Bool.eq_iff_iff]
    unfold revokedOf
    simp only [List.any_eq_true, List.contains_iff_mem, hactive.mem_iff, hids.mem_iff]
  refine ⟨?_, hconflict⟩
  unfold bindingStatus
  rw [hrevoked, hconflict]
  split
  · rfl
  · split
    · rfl
    · next hagree =>
      have hsame : ∀ o ∈ activeBindings observations, ∀ p ∈ activeBindings observations,
          o.status = p.status := fun o ho p hp =>
        eq_of_dedup_short (by simpa [conflictOf] using hagree) (List.mem_map_of_mem ho) (List.mem_map_of_mem hp)
      cases hb : activeBindings observations with
      | nil =>
        rw [hb] at hactive
        rw [List.perm_nil.mp hactive]
      | cons o os =>
        cases hc : activeBindings ys with
        | nil =>
          rw [hc, hb] at hactive
          exact absurd (List.perm_nil.mp hactive.symm) (List.cons_ne_nil o os)
        | cons p ps =>
          have hp : p ∈ activeBindings observations := hactive.mem_iff.mp (hc ▸ List.mem_cons_self)
          show nonEmpty p.status = nonEmpty o.status
          rw [hsame p hp o (hb ▸ List.mem_cons_self)]

/-! ## The merge -/

/-- A revocation of the binding was observed. -/
def Revoked (observations : List Observation) (id : String) : Prop :=
  ∃ o ∈ observations, o.isRevocation = true ∧ o.binding_id = some id

/-- The status of the bindings is `active`, and the binding is one of them. -/
def ReportedActive (observations : List Observation) (id : String) : Prop :=
  (mergeIdentityStateObservations observations).binding_status = some "active" ∧
    ∃ o ∈ activeBindings observations, o.binding_id = some id

theorem not_reportedActive {id : String} (h : Revoked observations id) : ¬ ReportedActive observations id := by
  rintro ⟨hstatus, o, ho, hid⟩
  obtain ⟨r, hr, hrevocation, hrid⟩ := h
  have hrevoked : revokedOf observations = true := by
    refine List.any_eq_true.mpr ⟨o, ho, List.contains_iff_mem.mpr ?_⟩
    exact List.mem_map.mpr ⟨r, List.mem_filter.mpr ⟨hr, hrevocation⟩, hrid.trans hid.symm⟩
  have hbinding : bindingStatus observations = some "active" := hstatus
  rw [bindingStatus, if_pos hrevoked] at hbinding
  exact absurd hbinding (by decide)

/-- A merge is the same in every order, and reports no revoked binding as active, exactly when the states
that may win agree and so do the proposals, or one of these is approved. -/
theorem merge_order_independent_iff (observations : List Observation) :
    ((∀ ys, ys.Perm observations →
        mergeIdentityStateObservations ys = mergeIdentityStateObservations observations) ∧
      ∀ id, Revoked observations id → ¬ ReportedActive observations id) ↔
    StatesAgree observations ∧ ProposalsAgree observations := by
  rw [← selectedHash_agree_iff, ← proposalStatus_agree_iff]
  constructor
  · rintro ⟨hall, -⟩
    refine ⟨fun ys hys => ?_, fun ys hys => ?_⟩
    · exact congrArg MergedState.selected_state_hash (hall ys hys)
    · exact congrArg MergedState.proposal_status (hall ys hys)
  · rintro ⟨hstates, hproposals⟩
    refine ⟨fun ys hys => ?_, fun id => not_reportedActive⟩
    obtain ⟨hbinding, hconflict⟩ := bindingStatus_of_perm hys
    have hreplay : replayDetected (proposalsOf ys) = replayDetected (proposalsOf observations) :=
      replayDetected_of_perm (hys.filter _)
    unfold mergeIdentityStateObservations
    rw [hstates ys hys, hproposals ys hys, hbinding, hconflict, hreplay]

/-- Two devices are level: the first one heard is selected. -/
theorem level_devices_order_matters : ¬ ∀ xs ys : List Observation, ys.Perm xs →
    mergeIdentityStateObservations ys = mergeIdentityStateObservations xs := by
  intro hall
  have h := hall
    [{ device_key_l1_address := some "phone", sequence := some 1, state_hash := some "sha256:11" },
      { device_key_l1_address := some "laptop", sequence := some 1, state_hash := some "sha256:22" }]
    [{ device_key_l1_address := some "laptop", sequence := some 1, state_hash := some "sha256:22" },
      { device_key_l1_address := some "phone", sequence := some 1, state_hash := some "sha256:11" }]
    (.swap _ _ _)
  revert h
  decide

end SimpleL1.Mesh
