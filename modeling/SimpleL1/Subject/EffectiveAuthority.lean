import SimpleL1.Subject.Evaluation

/-!
# What the effective authority summarises

A state keeps who controls the subject twice, and sums up its owner relationships
and its delegations in lists of names. The two agree as long as no relationship is
bound as an owner by itself, and no capability is revoked while another with the
same key stands.
-/

namespace SimpleL1.Subject

open SimpleL1.Js SimpleL1.Lib

variable {p : Platform} {s s' next : SubjectState} {e e' : AuthorityEvent} {r r' : Evaluation}

/-- The domains in which capabilities are granted. -/
def AuthorityDomain.granting : List AuthorityDomain := [.finance, .organization, .application]

/-- The lists of names are those of the records they sum up. -/
structure Summaries (s : SubjectState) : Prop where
  device : ∀ x, x ∈ s.effective_authority .device ↔ ∃ rel ∈ s.relationships, rel.owns x = true
  granted : ∀ d ∈ AuthorityDomain.granting, ∀ k, k ∈ s.effective_authority d ↔
    ∃ g ∈ s.delegations, g.domain = d.name ∧ g.key = k

/-- The effective authority is what the facts say. -/
structure Agrees (s : SubjectState) : Prop extends Summaries s where
  identity : s.identity_continuity.controllers = s.effective_authority .identity

/-- The event binds no owner relationship to a device that is not held, and revokes nothing that
shares its key with another capability. -/
structure KeepsAgreement (s : SubjectState) (e : AuthorityBasis) : Prop where
  bound : e.action = "bind_relationship" → e.authority_domain = "device" →
    Node.orElse (e.metadata.get "relation") (.str "related") = .str "owner" →
    e.target ∈ s.effective_authority .device
  revoked : e.action = "revoke_capability" → ∀ g ∈ s.delegations, g.domain = e.authority_domain →
    g.key = e.delegationKey → g.granted e = true

/-! ## Sorting does not count -/

theorem delegationKey_ne_empty (target : String) (capability scope : Option String) :
    delegationKey target capability scope ≠ "" := by
  simp [delegationKey]

theorem owns_iff {x : String} {rel : Relationship} : rel.owns x = true ↔
    rel.domain = "device" ∧ rel.counterparty = x ∧ rel.relation = .str "owner" := by
  simp [Relationship.owns, strictEq_str_iff, and_assoc]

theorem granted_iff {b : AuthorityBasis} {g : Delegation} : g.granted b = true ↔
    g.domain = b.authority_domain ∧ g.target = b.target ∧ g.capability = b.capability ∧
      g.scope = b.scope := by
  simp [Delegation.granted]

/-- No list of names has an empty one. -/
def Named (s : SubjectState) : Prop := ∀ d, "" ∉ s.effective_authority d

theorem Canonical.named (hs : Canonical p s) : Named s := by
  intro d h
  rw [← hs.authority d, mem_sortedUnique] at h
  exact h.2 rfl

theorem summaries_canonical_iff (hnext : Named next) (h : canonicalSubjectState p next = .ok s') :
    Summaries s' ↔ Summaries next := by
  obtain ⟨ids, -, rfl⟩ := map_eq_ok.mp h
  have hmem : ∀ d x, x ∈ sortedUnique (next.effective_authority d) ↔ x ∈ next.effective_authority d := by
    intro d x
    rw [mem_sortedUnique, and_iff_left_iff_imp]
    rintro hx rfl
    exact hnext d hx
  have hrel : ∀ x, (∃ rel ∈ sortByText p Relationship.toJson next.relationships, rel.owns x = true) ↔
      ∃ rel ∈ next.relationships, rel.owns x = true := by
    intro x
    simp only [mem_sortByText]
  have hdel : ∀ (d : AuthorityDomain) k,
      (∃ g ∈ sortByText p Delegation.toJson next.delegations, g.domain = d.name ∧ g.key = k) ↔
        ∃ g ∈ next.delegations, g.domain = d.name ∧ g.key = k := by
    intro d k
    simp only [mem_sortByText]
  constructor
  · intro hs
    refine ⟨fun x => ?_, fun d hd k => ?_⟩
    · rw [← hmem, ← hrel]
      exact hs.device x
    · rw [← hmem, ← hdel]
      exact hs.granted d hd k
  · intro hs
    refine ⟨fun x => ?_, fun d hd k => ?_⟩
    · show x ∈ sortedUnique _ ↔ ∃ rel ∈ sortByText p _ _, _
      rw [hmem, hrel]
      exact hs.device x
    · show k ∈ sortedUnique _ ↔ ∃ g ∈ sortByText p _ _, _
      rw [hmem, hdel]
      exact hs.granted d hd k

/-! ## What one event does -/

/-- Nothing that is summed up has changed. -/
theorem Summaries.of_same (hs : Summaries s)
    (hauthority : ∀ d, d ≠ .identity → next.effective_authority d = s.effective_authority d)
    (hrelationships : ∀ x, (∃ rel ∈ next.relationships, rel.owns x = true) ↔
      ∃ rel ∈ s.relationships, rel.owns x = true)
    (hdelegations : next.delegations = s.delegations) : Summaries next where
  device x := by rw [hauthority .device (by decide), hrelationships, hs.device]
  granted d hd k := by
    have hne : d ≠ .identity := by
      rintro rfl
      exact absurd hd (by decide)
    rw [hauthority d hne, hdelegations]
    exact hs.granted d hd k

theorem exists_mem_snoc {α : Type} {xs : List α} {x : α} {q : α → Prop} :
    (∃ y ∈ xs ++ [x], q y) ↔ (∃ y ∈ xs, q y) ∨ q x := by
  simp [or_and_right, exists_or]

theorem summaries_bind_device (hs : Summaries s)
    (h : applyAction (s.applied e) e .bind_device = .ok next) : Summaries next := by
  cases h
  refine ⟨fun x => ?_, fun d hd k => ?_⟩
  · show x ∈ Function.update s.effective_authority .device (s.effective_authority .device ++ [e.target])
      .device ↔ ∃ rel ∈ s.relationships ++ [_], _
    rw [Function.update_self, List.mem_append, List.mem_singleton, exists_mem_snoc, hs.device, owns_iff]
    exact or_congr_right ⟨fun h => ⟨rfl, h.symm, rfl⟩, fun h => h.2.1.symm⟩
  · have hne : d ≠ .device := by
      rintro rfl
      exact absurd hd (by decide)
    show k ∈ Function.update s.effective_authority .device _ d ↔ _
    rw [Function.update_of_ne hne]
    exact hs.granted d hd k

theorem summaries_transfer_device (hs : Summaries s)
    (h : applyAction (s.applied e) e .transfer_device = .ok next) : Summaries next := by
  cases h
  refine ⟨fun x => ?_, fun d hd k => ?_⟩
  · show x ∈ Function.update s.effective_authority .device
      ((s.effective_authority .device).filter (· ≠ e.target)) .device ↔
      ∃ rel ∈ s.relationships.filter (fun rel => !rel.owns e.target), _
    rw [Function.update_self, List.mem_filter, hs.device]
    constructor
    · rintro ⟨⟨rel, hrel, howns⟩, hx⟩
      refine ⟨rel, List.mem_filter.mpr ⟨hrel, ?_⟩, howns⟩
      rw [Bool.not_eq_true', ← Bool.not_eq_true]
      intro howns'
      have htarget := (owns_iff.mp howns).2.1.symm.trans (owns_iff.mp howns').2.1
      exact of_decide_eq_true hx htarget
    · rintro ⟨rel, hrel, howns⟩
      obtain ⟨hrel, hne⟩ := List.mem_filter.mp hrel
      refine ⟨⟨rel, hrel, howns⟩, decide_eq_true ?_⟩
      rintro rfl
      rw [howns] at hne
      cases hne
  · have hne : d ≠ .device := by
      rintro rfl
      exact absurd hd (by decide)
    show k ∈ Function.update s.effective_authority .device _ d ↔ _
    rw [Function.update_of_ne hne]
    exact hs.granted d hd k

/-- The device list is no list of keys. -/
theorem device_of_update (hs : Summaries s) {d : AuthorityDomain} (hd : d ∈ AuthorityDomain.granting)
    (values : List String) (x : String) :
    x ∈ Function.update s.effective_authority d values .device ↔
      ∃ rel ∈ s.relationships, rel.owns x = true := by
  have hne : AuthorityDomain.device ≠ d := by
    rintro rfl
    exact absurd hd (by decide)
  rw [Function.update_of_ne hne, hs.device]

theorem summaries_grant_capability (hs : Summaries s)
    {d : AuthorityDomain} (hdomain : AuthorityDomain.ofName e.authority_domain = some d)
    (hd : d ∈ AuthorityDomain.granting)
    (h : applyAction (s.applied e) e .grant_capability = .ok next) : Summaries next := by
  obtain ⟨d₁, hd₁, h⟩ := bind_eq_ok.mp h
  rw [authorityDomain_eq_ok, hdomain] at hd₁
  cases hd₁
  cases h
  have hname := AuthorityDomain.ofName_eq_some.mp hdomain
  refine ⟨device_of_update hs hd _, fun d' hd' k => ?_⟩
  show k ∈ Function.update s.effective_authority d (s.effective_authority d ++ [_]) d' ↔
    ∃ g ∈ s.delegations ++ [_], _
  rw [exists_mem_snoc]
  by_cases hdd : d' = d
  · subst hdd
    rw [Function.update_self, List.mem_append, List.mem_singleton, hs.granted d' hd']
    simp [hname, Delegation.key, AuthorityBasis.delegationKey, eq_comm]
  · have hne : e.authority_domain ≠ d'.name := by
      rw [hname]
      exact fun h => hdd (AuthorityDomain.name_inj.mp h).symm
    rw [Function.update_of_ne hdd, hs.granted d' hd']
    simp [hne]

/-- Revoking agrees just when what has the key of the capability is the capability. -/
theorem summaries_revoke_capability_iff (hs : Summaries s)
    {d : AuthorityDomain} (hdomain : AuthorityDomain.ofName e.authority_domain = some d)
    (hd : d ∈ AuthorityDomain.granting)
    (h : applyAction (s.applied e) e .revoke_capability = .ok next) :
    Summaries next ↔ ∀ g ∈ s.delegations, g.domain = e.authority_domain →
      g.key = e.toAuthorityBasis.delegationKey → g.granted e.toAuthorityBasis = true := by
  obtain ⟨d₁, hd₁, h⟩ := bind_eq_ok.mp h
  rw [authorityDomain_eq_ok, hdomain] at hd₁
  cases hd₁
  cases h
  have hname := AuthorityDomain.ofName_eq_some.mp hdomain
  have hkey : ∀ g : Delegation, g.granted e.toAuthorityBasis = true →
      g.domain = d.name ∧ g.key = e.toAuthorityBasis.delegationKey := by
    intro g hg
    obtain ⟨hgd, hgt, hgc, hgs⟩ := granted_iff.mp hg
    exact ⟨hgd.trans hname, by rw [Delegation.key, hgt, hgc, hgs, AuthorityBasis.delegationKey]⟩
  constructor
  · intro hnext g hg hgd hgk
    by_contra hgranted
    have hkept : g ∈ s.delegations.filter (fun g => !g.granted e.toAuthorityBasis) :=
      List.mem_filter.mpr ⟨hg, by simpa using hgranted⟩
    have hmem := (hnext.granted d hd _).mpr ⟨g, hkept, hgd.trans hname, hgk⟩
    replace hmem : e.toAuthorityBasis.delegationKey ∈
        Function.update s.effective_authority d ((s.effective_authority d).filter _) d := hmem
    rw [Function.update_self, List.mem_filter] at hmem
    exact of_decide_eq_true hmem.2 rfl
  · intro hkeeps
    refine ⟨device_of_update hs hd _, fun d' hd' k => ?_⟩
    show k ∈ Function.update s.effective_authority d
      ((s.effective_authority d).filter (· ≠ e.toAuthorityBasis.delegationKey)) d' ↔
      ∃ g ∈ s.delegations.filter (fun g => !g.granted e.toAuthorityBasis), _
    by_cases hdd : d' = d
    · subst hdd
      rw [Function.update_self, List.mem_filter, hs.granted d' hd']
      constructor
      · rintro ⟨⟨g, hg, hgd, rfl⟩, hk⟩
        refine ⟨g, List.mem_filter.mpr ⟨hg, ?_⟩, hgd, rfl⟩
        rw [Bool.not_eq_true', ← Bool.not_eq_true]
        exact fun hgranted => of_decide_eq_true hk (hkey g hgranted).2
      · rintro ⟨g, hg, hgd, rfl⟩
        obtain ⟨hg, hgranted⟩ := List.mem_filter.mp hg
        refine ⟨⟨g, hg, hgd, rfl⟩, decide_eq_true fun hk => ?_⟩
        rw [hkeeps g hg (hgd.trans hname.symm) hk] at hgranted
        cases hgranted
    · rw [Function.update_of_ne hdd, hs.granted d' hd']
      refine exists_congr fun g => and_congr_left fun hg => ?_
      rw [List.mem_filter, iff_self_and]
      intro _
      rw [Bool.not_eq_true', ← Bool.not_eq_true]
      exact fun hgranted => hdd (AuthorityDomain.name_inj.mp (hg.1.symm.trans (hkey g hgranted).1))

/-- A relationship bound agrees unless it makes an owner of a device that is not held. -/
theorem summaries_bind_relationship_iff (hs : Summaries s) {relation : Json}
    (hnext : next = (s.applied e).addRelationship
      ⟨e.authority_domain, e.subject, e.target, relation, e.event_id⟩) :
    Summaries next ↔ (e.authority_domain = "device" → relation = .str "owner" →
      e.target ∈ s.effective_authority .device) := by
  subst hnext
  constructor
  · intro hnext hdomain hrelation
    refine (hnext.device e.target).mpr ⟨_, List.mem_append_right _ (.head []), ?_⟩
    exact owns_iff.mpr ⟨hdomain, rfl, hrelation⟩
  · intro hbound
    refine hs.of_same (fun _ _ => rfl) (fun x => ?_) rfl
    show (∃ rel ∈ s.relationships ++ [_], _) ↔ _
    rw [exists_mem_snoc, or_iff_left_iff_imp]
    intro howns
    obtain ⟨hdomain, rfl, hrelation⟩ := owns_iff.mp howns
    exact (hs.device _).mp (hbound hdomain hrelation)

/-- The actions of the domains. -/
theorem granting_of_grants {d : AuthorityDomain} {a : Action} (ha : a ∈ DOMAIN_ACTIONS d)
    (hgrants : a = .grant_capability ∨ a = .revoke_capability) : d ∈ AuthorityDomain.granting := by
  revert ha
  rcases hgrants with rfl | rfl <;> cases d <;> decide

theorem identity_of_accept_claim {d : AuthorityDomain} (ha : Action.accept_claim ∈ DOMAIN_ACTIONS d) :
    d = .identity := by
  revert ha
  cases d <;> decide

theorem summaries_next_iff (hs : Summaries s) (hshape : Shaped e.toAuthorityBasis)
    (h : nextState s e = .ok next) : Summaries next ↔ KeepsAgreement s e.toAuthorityBasis := by
  obtain ⟨d, a, hd, ha, hmem⟩ := hshape.action
  rw [nextState, ha] at h
  have haction := Action.ofName_eq_some.mp ha
  have hother : a ≠ .bind_relationship → a ≠ .revoke_capability →
      (Summaries next → (Summaries next ↔ KeepsAgreement s e.toAuthorityBasis)) := by
    intro hbind hrevoke hnext
    refine iff_of_true hnext ⟨fun hname => ?_, fun hname => ?_⟩
    · exact absurd (Action.name_inj.mp (haction.symm.trans hname : a.name = Action.bind_relationship.name))
        hbind
    · exact absurd
        (Action.name_inj.mp (haction.symm.trans hname : a.name = Action.revoke_capability.name)) hrevoke
  cases a with
  | genesis =>
    cases h
    exact hother (by decide) (by decide) (hs.of_same (fun _ _ => rfl) (fun _ => Iff.rfl) rfl)
  | bind_controller | rotate_key | revoke_controller =>
    cases h
    refine hother (by decide) (by decide) (hs.of_same (fun d hd => ?_) (fun _ => Iff.rfl) rfl)
    exact Function.update_of_ne hd _ _
  | bind_device => exact hother (by decide) (by decide) (summaries_bind_device hs h)
  | transfer_device => exact hother (by decide) (by decide) (summaries_transfer_device hs h)
  | grant_capability =>
    exact hother (by decide) (by decide)
      (summaries_grant_capability hs hd (granting_of_grants hmem (.inl rfl)) h)
  | revoke_capability =>
    rw [summaries_revoke_capability_iff hs hd (granting_of_grants hmem (.inr rfl)) h]
    refine ⟨fun hrevoked => ⟨fun hname => ?_, fun _ => hrevoked⟩, fun hkeeps => hkeeps.revoked haction⟩
    rw [haction] at hname
    exact absurd hname (by decide)
  | bind_relationship =>
    cases h
    rw [summaries_bind_relationship_iff hs rfl]
    refine ⟨fun hbound => ⟨fun _ => hbound, fun hname => ?_⟩, fun hkeeps => hkeeps.bound haction⟩
    rw [haction] at hname
    exact absurd hname (by decide)
  | accept_claim =>
    cases h
    cases identity_of_accept_claim hmem
    refine hother (by decide) (by decide) ((summaries_bind_relationship_iff hs rfl).mpr fun hdomain => ?_)
    rw [AuthorityDomain.ofName_eq_some.mp hd] at hdomain
    exact absurd hdomain (by decide)

/-- Who controls the subject is written to both lists alike. -/
theorem identity_next (hs : s.identity_continuity.controllers = s.effective_authority .identity)
    (hshape : Shaped e.toAuthorityBasis) (h : nextState s e = .ok next) :
    next.identity_continuity.controllers = next.effective_authority .identity := by
  obtain ⟨d, a, hd, ha, hmem⟩ := hshape.action
  rw [nextState, ha] at h
  cases a with
  | genesis | bind_relationship | accept_claim =>
    cases h
    exact hs
  | bind_controller =>
    cases h
    exact congrArg (· ++ [e.target]) hs
  | rotate_key =>
    cases h
    rfl
  | revoke_controller =>
    cases h
    exact congrArg (List.filter (· ≠ e.target)) hs
  | bind_device | transfer_device =>
    cases h
    exact hs
  | grant_capability | revoke_capability =>
    obtain ⟨d₁, hd₁, h⟩ := bind_eq_ok.mp h
    rw [authorityDomain_eq_ok, hd] at hd₁
    cases hd₁
    cases h
    have hne : AuthorityDomain.identity ≠ d := by
      rintro rfl
      exact absurd hmem (by decide)
    exact hs.trans (Function.update_of_ne hne _ _).symm

theorem named_next (hs : Named s) (hshape : Shaped e.toAuthorityBasis) (h : nextState s e = .ok next) :
    Named next := by
  have htarget := hshape.target
  have hupdate : ∀ {d values}, "" ∉ values →
      ∀ d', "" ∉ Function.update s.effective_authority d values d' := by
    intro d values hvalues d'
    by_cases hdd : d' = d
    · subst hdd
      rwa [Function.update_self]
    · rw [Function.update_of_ne hdd]
      exact hs d'
  have hsnoc : ∀ {d x}, x ≠ "" → "" ∉ s.effective_authority d ++ [x] := by
    intro d x hx hmem
    rcases List.mem_append.mp hmem with hmem | hmem
    · exact hs d hmem
    · exact hx (List.mem_singleton.mp hmem).symm
  have hfilter : ∀ {d} {q : String → Bool}, "" ∉ (s.effective_authority d).filter q :=
    fun hmem => hs _ (List.mem_filter.mp hmem).1
  obtain ⟨d, a, hd, ha, -⟩ := hshape.action
  rw [nextState, ha] at h
  cases a with
  | genesis | bind_relationship | accept_claim =>
    cases h
    exact hs
  | bind_controller | bind_device =>
    cases h
    exact hupdate (hsnoc htarget)
  | rotate_key =>
    cases h
    exact hupdate (by simpa using htarget.symm)
  | revoke_controller | transfer_device =>
    cases h
    exact hupdate hfilter
  | grant_capability =>
    obtain ⟨d₁, -, h⟩ := bind_eq_ok.mp h
    cases h
    exact hupdate (hsnoc (delegationKey_ne_empty _ _ _))
  | revoke_capability =>
    obtain ⟨d₁, -, h⟩ := bind_eq_ok.mp h
    cases h
    exact hupdate hfilter

/-- An event keeps the agreement just when it is one of those that do. -/
theorem agrees_applyAuthorityEvent_iff (hs : Canonical p s) (hagrees : Agrees s)
    (hshape : Shaped e.toAuthorityBasis) (h : applyAuthorityEvent p s e = .ok s') :
    Agrees s' ↔ KeepsAgreement s e.toAuthorityBasis := by
  obtain ⟨next, hnext, hcanonical⟩ := bind_eq_ok.mp h
  have hsummaries := (summaries_canonical_iff (named_next hs.named hshape hnext) hcanonical).trans
    (summaries_next_iff hagrees.toSummaries hshape hnext)
  refine ⟨fun hs' => hsummaries.mp hs'.toSummaries, fun hkeeps => ⟨hsummaries.mpr hkeeps, ?_⟩⟩
  obtain ⟨ids, -, rfl⟩ := map_eq_ok.mp hcanonical
  exact congrArg sortedUnique (identity_next hagrees.identity hshape hnext)

/-! ## Whole histories -/

theorem agrees_empty (subject : Option String) : Agrees (emptySubjectState subject) where
  device _ := ⟨fun h => (nomatch h), fun ⟨_, h, _⟩ => (nomatch h)⟩
  granted _ _ _ := ⟨fun h => (nomatch h), fun ⟨_, h, _⟩ => (nomatch h)⟩
  identity := rfl

/-- In the states of a history the effective authority is what the facts say just when every event
that is applied is one that keeps it so. -/
theorem effective_authority_agrees_iff (p : Platform) (events : List Json) (subject : Option String) :
    (∀ history, history <+: events → ∀ s,
        deriveCanonicalSubjectState p (.arr history) subject = .ok (some s) → Agrees s) ↔
      ∀ history, history <+: events → ∀ e r, BeforeLast p history subject e r → ∀ e' s,
        Accepts p r e e' → applyAuthorityEvent p r.currentState e' = .ok s →
        KeepsAgreement r.currentState e'.toAuthorityBasis := by
  constructor
  · intro h history hextends e r hbefore e' s haccepts happly
    obtain ⟨earlier, hnormalized, hrun⟩ := beforeLast_iff.mp hbefore
    have he := normalized_of_mapM hnormalized (List.mem_append_right earlier (.head []))
    have hcoherent : Coherent p r := coherent_of_run (fun e he =>
      normalized_of_mapM hnormalized (List.mem_append_left _ he)) hrun
    have hagrees : Agrees r.currentState := by
      by_cases hearlier : earlier = []
      · subst hearlier
        cases hrun
        exact agrees_empty _
      · obtain ⟨history', hextends', hnormalized'⟩ :=
          Runs.exists_prefix_of_mapM hnormalized (List.prefix_append earlier [e])
        refine h history' (hextends'.trans hextends) _ ?_
        rw [derive_eq hnormalized',
          selectSubject_extends (List.prefix_append earlier [e]) hearlier, hrun]
        rfl
    obtain ⟨hash, hhash⟩ := hash_of_canonical (canonical_applyAuthorityEvent happly)
    have hlast : Agrees s := by
      refine h history hextends s ?_
      rw [derive_eq hnormalized, runEvents, Runs.run_snoc_of_ok hrun, evaluateStep_of_accepts haccepts,
        acceptEvent_eq_ok.mpr ⟨s, hash, happly, hhash, rfl⟩]
      rfl
    exact (agrees_applyAuthorityEvent_iff hcoherent.canonical hagrees (haccepts.shaped he) happly).mp hlast
  · intro h history hextends s hs
    obtain ⟨normalized, r, hnormalized, hrun, rfl⟩ := derive_eq_ok.mp hs
    refine Runs.Always.last (I := fun r => Agrees r.currentState) ?_ hrun
    have hall : ∀ e ∈ normalized, Normalized e := fun e he => normalized_of_mapM hnormalized he
    refine Runs.always_of_step (J := Coherent p) (C := fun r e => ∀ e' s, Accepts p r e e' →
      applyAuthorityEvent p r.currentState e' = .ok s → KeepsAgreement r.currentState e'.toAuthorityBasis)
      (agrees_empty _) (coherent_always hall) ?_ ?_
    · intro t e t' he hcoherent hagrees hstep hkeeps
      by_cases haccepts : ∃ e', Accepts p t e e'
      · obtain ⟨e', haccepts⟩ := haccepts
        rw [evaluateStep_of_accepts haccepts] at hstep
        obtain ⟨s, hash, happly, -, rfl⟩ := acceptEvent_eq_ok.mp hstep
        exact (agrees_applyAuthorityEvent_iff hcoherent.canonical hagrees
          (haccepts.shaped (hall e he)) happly).mpr (hkeeps e' s haccepts happly)
      · obtain ⟨codes, -, heq⟩ := evaluateStep_of_refused (hall e he) fun e' h => haccepts ⟨e', h⟩
        rw [heq] at hstep
        cases hstep
        exact hagrees
    · intro earlier e hearlier t t' ht _ e' s haccepts happly
      obtain ⟨history', hextends', hnormalized'⟩ := Runs.exists_prefix_of_mapM hnormalized hearlier
      refine h history' (hextends'.trans hextends) e t (beforeLast_iff.mpr ⟨earlier, hnormalized', ?_⟩)
        e' s haccepts happly
      rw [selectSubject_extends hearlier (by simp)]
      exact ht

/-- A relationship bound by name makes an owner of a device that is not held. -/
theorem bound_owner_disagrees :
    ∃ s, deriveCanonicalSubjectState plainPlatform (.arr [signedEvent "ae_1" "sl1:id:alice" "device"
        "bind_relationship" "sl1:device:pixel" [("metadata", .obj [("relation", .str "owner")])]])
      none = .ok (some s) ∧ ¬ Agrees s := by
  have hrun : (deriveCanonicalSubjectState plainPlatform (.arr [signedEvent "ae_1" "sl1:id:alice" "device"
      "bind_relationship" "sl1:device:pixel" [("metadata", .obj [("relation", .str "owner")])]])
      none).map (Option.map fun s => (s.effective_authority .device,
        s.relationships.map (·.owns "sl1:device:pixel"))) = .ok (some ([], [true])) := by
    decide +kernel
  cases hs : deriveCanonicalSubjectState plainPlatform (.arr [signedEvent "ae_1" "sl1:id:alice" "device"
      "bind_relationship" "sl1:device:pixel" [("metadata", .obj [("relation", .str "owner")])]]) none with
  | error e =>
    rw [hs] at hrun
    cases hrun
  | ok s? =>
    rw [hs] at hrun
    obtain ⟨s, rfl, hobs⟩ := Option.map_eq_some_iff.mp (Except.ok.inj hrun)
    obtain ⟨hdevice, howns⟩ := Prod.mk.inj hobs
    refine ⟨s, rfl, fun hagrees => ?_⟩
    obtain ⟨rel, hrel, howned⟩ : ∃ rel ∈ s.relationships, rel.owns "sl1:device:pixel" = true := by
      have hmem : true ∈ s.relationships.map (·.owns "sl1:device:pixel") := by
        rw [howns]
        exact .head []
      exact List.mem_map.mp hmem
    have hheld := (hagrees.device _).mpr ⟨rel, hrel, howned⟩
    rw [hdevice] at hheld
    cases hheld

end SimpleL1.Subject
