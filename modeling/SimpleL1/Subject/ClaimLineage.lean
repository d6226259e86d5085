import SimpleL1.Lib.Forest
import SimpleL1.Subject.ClaimHistory

/-!
# One active claim in a lineage

A supersession may name any claim of the same subject and type, also one that is superseded
or revoked already, and a revocation any claim, also one that has been superseded. What the
projection says of a lineage holds if no event does so: `lineage_holds`.
-/

namespace SimpleL1.Subject.ClaimHistory

open SimpleL1.Js SimpleL1.Lib

/-! ## Lineages of the projection -/

def Projection.claims (p : Projection) : List PublicClaim := p.active_claims ++ p.inactive_claims

/-- `c` is `d`, or supersedes it directly or indirectly. -/
def Projection.Over (p : Projection) : PublicClaim → PublicClaim → Prop :=
  Relation.ReflTransGen fun c d => d ∈ p.claims ∧ c.supersedes = some d.claim_id

/-- A lineage has at most one active claim, and none over a revoked claim. -/
structure Projection.Sound (p : Projection) : Prop where
  single : ∀ d ∈ p.claims, ∀ c₁ ∈ p.claims, ∀ c₂ ∈ p.claims, p.Over c₁ d → p.Over c₂ d →
    c₁.status = .active → c₂.status = .active → c₁ = c₂
  dead : ∀ d ∈ p.claims, ∀ c ∈ p.claims, p.Over c d → d.status = .revoked → c.status ≠ .active

/-! ## Lineages of the state -/

def parentOf (claims : OrderedMap String Claim) (id : String) : Option String :=
  (claims.find id).bind (·.supersedes)

def HasStatus (claims : OrderedMap String Claim) (status : ClaimStatus) (id : String) : Prop :=
  ∃ claim, claims.find id = some claim ∧ claim.status = status

/-- Claims are stored under their ids, which have been seen, and supersede stored claims. -/
structure WellKeyed (claims : OrderedMap String Claim) (seen : List String) : Prop where
  keyed : ∀ id claim, claims.find id = some claim → claim.claim_id = id
  named : ∀ id claim, claims.find id = some claim → id ≠ ""
  seen : ∀ id claim, claims.find id = some claim → id ∈ seen
  parents : ∀ id t, parentOf claims id = some t → ∃ claim, claims.find t = some claim

structure Inv (s : State) : Prop where
  wellKeyed : WellKeyed s.claims s.seenEventIds
  sound : Forest.Sound (parentOf s.claims) (HasStatus s.claims .active) (HasStatus s.claims .revoked)

/-- The event is valid, its id is new, and it is of the type. -/
structure Accepts (s : State) (event : Json) (type : ClaimEventType) : Prop where
  valid : validateClaimEvent event = .ok []
  fresh : ∀ id, normalizeString (event.prop "event_id") = .ok id → id ∉ s.seenEventIds
  type : isOfType event type = true

/-- The event is accepted, and names the claim. -/
structure Targets (s : State) (event : Json) (type : ClaimEventType) (k id : String) : Prop
    extends Accepts s event type where
  target : ∃ claim, findTarget s.claims event k = .ok (some (id, claim))

/-- An issued claim supersedes nothing. A superseded claim is not revoked, nor is what it supersedes,
and no other claim of the lineage is active. No other claim over a revoked one is active. -/
structure Orderly (s : State) (event : Json) : Prop where
  issued : Accepts s event .issued → normalizeString (event.prop "supersedes") = .ok ""
  superseded : ∀ t, Targets s event .superseded "supersedes" t →
    ∀ r, Forest.Over (parentOf s.claims) t r → ¬ HasStatus s.claims .revoked r ∧
      ∀ i, Forest.Over (parentOf s.claims) i r → HasStatus s.claims .active i → i = t
  revoked : ∀ t, Targets s event .revoked "revokes" t →
    ∀ i, Forest.Over (parentOf s.claims) i t → HasStatus s.claims .active i → i = t

def EveryOrderly : State → List Json → Prop
  | _, [] => True
  | s, event :: events => Orderly s event ∧ ∀ s', applyEvent s event = .ok s' → EveryOrderly s' events

/-! ## What an event does -/

variable {s s' : State} {event : Json}

theorem ne_empty_of_valid {id : String} (h : validateClaimEvent event = .ok [])
    (hid : normalizeString (event.prop "event_id") = .ok id) : id ≠ "" := by
  obtain ⟨eventType, -, h⟩ := bind_eq_ok.mp h
  obtain ⟨eventType, -, h⟩ := bind_eq_ok.mp h
  obtain ⟨eventId, hid', h⟩ := bind_eq_ok.mp h
  obtain ⟨subject, -, h⟩ := bind_eq_ok.mp h
  obtain ⟨claimType, -, h⟩ := bind_eq_ok.mp h
  obtain ⟨valueHash, -, h⟩ := bind_eq_ok.mp h
  obtain ⟨supersedes, -, h⟩ := bind_eq_ok.mp h
  obtain ⟨revokes, -, h⟩ := bind_eq_ok.mp h
  rw [hid] at hid'
  cases hid'
  rintro rfl
  simpa using Except.ok.inj h

theorem createActiveClaim_eq_ok {claim : Claim} (h : createActiveClaimFromEvent event = .ok claim) :
    normalizeString (event.prop "event_id") = .ok claim.claim_id ∧ claim.status = .active ∧
      ∃ supersedes, normalizeString (event.prop "supersedes") = .ok supersedes ∧
        claim.supersedes = nonEmpty supersedes := by
  obtain ⟨id, hid, h⟩ := bind_eq_ok.mp h
  obtain ⟨subject, -, h⟩ := bind_eq_ok.mp h
  obtain ⟨claimType, -, h⟩ := bind_eq_ok.mp h
  obtain ⟨valueHash, -, h⟩ := bind_eq_ok.mp h
  obtain ⟨issuedAt, -, h⟩ := bind_eq_ok.mp h
  obtain ⟨supersedes, hsupersedes, h⟩ := bind_eq_ok.mp h
  cases h
  exact ⟨hid, rfl, supersedes, hsupersedes, rfl⟩

theorem findTarget_eq_some {claims : OrderedMap String Claim} {k t : String} {target : Claim}
    (h : findTarget claims event k = .ok (some (t, target))) :
    normalizeString (event.prop k) = .ok t ∧ claims.find t = some target := by
  obtain ⟨targetId, hid, h⟩ := bind_eq_ok.mp h
  cases hfind : claims.find targetId with
  | none =>
    rw [hfind] at h
    cases h
  | some found =>
    rw [hfind] at h
    obtain ⟨subject, -, h⟩ := bind_eq_ok.mp h
    obtain ⟨claimType, -, h⟩ := bind_eq_ok.mp h
    split at h
    · cases h
      exact ⟨hid, hfind⟩
    · cases h

/-- The claim of an accepted event, under a new id. -/
structure NewClaim (s s' : State) (event : Json) (claim : Claim) : Prop where
  fresh : claim.claim_id ∉ s.seenEventIds
  seen : claim.claim_id ∈ s'.seenEventIds
  named : claim.claim_id ≠ ""
  active : claim.status = .active
  created : createActiveClaimFromEvent event = .ok claim
  supersedes : ∃ supersedes, normalizeString (event.prop "supersedes") = .ok supersedes ∧
    claim.supersedes = nonEmpty supersedes

/-- What an event does to the claims: nothing, a new claim, a new claim for one that is superseded, or
a revocation. -/
inductive Effect (s s' : State) (event : Json) : Prop where
  | none (h : s'.claims = s.claims)
  | issued (claim : Claim) (hnew : NewClaim s s' event claim) (haccepts : Accepts s event .issued)
      (h : s'.claims = s.claims.insert claim.claim_id claim)
  | superseded (claim : Claim) (t : String) (target : Claim) (hnew : NewClaim s s' event claim)
      (htargets : Targets s event .superseded "supersedes" t)
      (hid : normalizeString (event.prop "supersedes") = .ok t) (hfind : s.claims.find t = some target)
      (h : s'.claims =
        (s.claims.insert t (target.markSuperseded claim.claim_id)).insert claim.claim_id claim)
  | revoked (t : String) (target : Claim) (eventId : String)
      (htargets : Targets s event .revoked "revokes" t) (hfind : s.claims.find t = some target)
      (h : s'.claims = s.claims.insert t (target.markRevoked eventId))

theorem applyAccepted_effect {eventId : String} (haccepts : ∀ type, isOfType event type = true →
      Accepts s event type) (hid : normalizeString (event.prop "event_id") = .ok eventId)
    (hvalid : validateClaimEvent event = .ok []) (hfresh : eventId ∉ s.seenEventIds)
    (h : applyAccepted { s with seenEventIds := s.seenEventIds ++ [eventId] } event eventId = .ok s') :
    s'.seenEventIds = s.seenEventIds ++ [eventId] ∧ Effect s s' event := by
  have hnew : ∀ (s'' : State) {claim : Claim}, createActiveClaimFromEvent event = .ok claim →
      s''.seenEventIds = s.seenEventIds ++ [eventId] →
        claim.claim_id = eventId ∧ NewClaim s s'' event claim := by
    intro s'' claim hcreate hseen
    obtain ⟨hclaim, hactive, hsupersedes⟩ := createActiveClaim_eq_ok hcreate
    rw [hid] at hclaim
    cases hclaim
    refine ⟨rfl, hfresh, ?_, ne_empty_of_valid hvalid hid, hactive, hcreate, hsupersedes⟩
    rw [hseen]
    exact List.mem_append_right _ List.mem_cons_self
  unfold applyAccepted at h
  split at h
  · next htype =>
    obtain ⟨claim, hcreate, h⟩ := bind_eq_ok.mp h
    obtain ⟨rfl, hnew⟩ := hnew s' hcreate (by cases h; rfl)
    cases h
    exact ⟨rfl, .issued claim hnew (haccepts _ htype) rfl⟩
  · split at h
    · next htype =>
      obtain ⟨found, hfound, h⟩ := bind_eq_ok.mp h
      match found, hfound with
      | none, _ =>
        cases h
        exact ⟨rfl, .none rfl⟩
      | some (t, target), hfound =>
        obtain ⟨claim, hcreate, h⟩ := bind_eq_ok.mp h
        obtain ⟨rfl, hnew⟩ := hnew s' hcreate (by cases h; rfl)
        cases h
        obtain ⟨hsupersedes, hfind⟩ := findTarget_eq_some hfound
        exact ⟨rfl, .superseded claim t target hnew ⟨haccepts _ htype, target, hfound⟩ hsupersedes hfind rfl⟩
    · split at h
      · next htype =>
        obtain ⟨found, hfound, h⟩ := bind_eq_ok.mp h
        match found, hfound with
        | none, _ =>
          cases h
          exact ⟨rfl, .none rfl⟩
        | some (t, target), hfound =>
          cases h
          obtain ⟨-, hfind⟩ := findTarget_eq_some hfound
          exact ⟨rfl, .revoked t target eventId ⟨haccepts _ htype, target, hfound⟩ hfind rfl⟩
      · cases h
        exact ⟨rfl, .none rfl⟩

theorem seen_reject (s : State) (eventId : String) (codes : List String) :
    s.seenEventIds ⊆
      ((if eventId = "" then s else { s with seenEventIds := s.seenEventIds ++ [eventId] }).reject
        (nonEmpty eventId) codes).seenEventIds := by
  unfold State.reject
  split
  · exact fun _ h => h
  · exact List.subset_append_left _ _

theorem applyEvent_effect (h : applyEvent s event = .ok s') :
    s.seenEventIds ⊆ s'.seenEventIds ∧ Effect s s' event := by
  obtain ⟨codes, hvalid, hrest⟩ := bind_eq_ok.mp h
  obtain ⟨eventId, hid, hresult⟩ := bind_eq_ok.mp hrest
  dsimp only at hresult
  by_cases hcodes : (if eventId ≠ "" ∧ eventId ∈ s.seenEventIds then
      (codes ++ ["CLAIM_EVENT_ID_DUPLICATE"]).eraseDups else codes) = []
  · rw [if_pos hcodes] at hresult
    by_cases hdup : eventId ≠ "" ∧ eventId ∈ s.seenEventIds
    · rw [if_pos hdup] at hcodes
      have hmem : "CLAIM_EVENT_ID_DUPLICATE" ∈ (codes ++ ["CLAIM_EVENT_ID_DUPLICATE"]).eraseDups :=
        List.mem_eraseDups.mpr (List.mem_append_right _ List.mem_cons_self)
      rw [hcodes] at hmem
      cases hmem
    · rw [if_neg hdup] at hcodes
      rw [hcodes] at hvalid
      have hne := ne_empty_of_valid hvalid hid
      have hfresh : eventId ∉ s.seenEventIds := fun hmem => hdup ⟨hne, hmem⟩
      rw [if_neg hne] at hresult
      have haccepts : ∀ type, isOfType event type = true → Accepts s event type := fun type htype =>
        ⟨hvalid, fun id hid' => by rw [hid] at hid'; cases hid'; exact hfresh, htype⟩
      obtain ⟨hseen, heffect⟩ := applyAccepted_effect haccepts hid hvalid hfresh hresult
      exact ⟨hseen ▸ List.subset_append_left _ _, heffect⟩
  · rw [if_neg hcodes] at hresult
    cases hresult
    refine ⟨seen_reject s eventId _, .none ?_⟩
    unfold State.reject
    split <;> rfl

/-! ## One event keeps the lineages -/

variable {claims : OrderedMap String Claim} {seen seen' : List String} {id t : String} {claim target : Claim}

theorem parentOf_insert : parentOf (claims.insert t claim) id =
    if t = id then claim.supersedes else parentOf claims id := by
  unfold parentOf
  rw [OrderedMap.find_insert]
  split <;> rfl

theorem hasStatus_insert {status : ClaimStatus} : HasStatus (claims.insert t claim) status id ↔
    if t = id then claim.status = status else HasStatus claims status id := by
  unfold HasStatus
  rw [OrderedMap.find_insert]
  split
  · exact ⟨fun ⟨c, hc, hs⟩ => Option.some.inj hc ▸ hs, fun hs => ⟨claim, rfl, hs⟩⟩
  · exact Iff.rfl

theorem parentOf_update (hfind : claims.find t = some target) (h : claim.supersedes = target.supersedes) :
    parentOf (claims.insert t claim) = parentOf claims := by
  funext id
  rw [parentOf_insert]
  split
  · next heq =>
    subst heq
    rw [h, parentOf, hfind]
    rfl
  · rfl

theorem WellKeyed.update (h : WellKeyed claims seen) (hfind : claims.find t = some target)
    (hid : claim.claim_id = target.claim_id) (hparent : claim.supersedes = target.supersedes) :
    WellKeyed (claims.insert t claim) seen := by
  have hold : ∀ id c, (claims.insert t claim).find id = some c →
      ∃ c', claims.find id = some c' ∧ c.claim_id = c'.claim_id := by
    intro id c hc
    rw [OrderedMap.find_insert] at hc
    split at hc
    · next heq =>
      cases hc
      exact ⟨target, heq ▸ hfind, hid⟩
    · exact ⟨c, hc, rfl⟩
  refine ⟨fun id c hc => ?_, fun id c hc => ?_, fun id c hc => ?_, fun id u hu => ?_⟩
  · obtain ⟨c', hc', heq⟩ := hold id c hc
    rw [heq, h.keyed id c' hc']
  · obtain ⟨c', hc', -⟩ := hold id c hc
    exact h.named id c' hc'
  · obtain ⟨c', hc', -⟩ := hold id c hc
    exact h.seen id c' hc'
  · rw [parentOf_update hfind hparent] at hu
    obtain ⟨c, hc⟩ := h.parents id u hu
    rw [OrderedMap.find_insert]
    split
    · exact ⟨claim, rfl⟩
    · exact ⟨c, hc⟩

theorem WellKeyed.add (h : WellKeyed claims seen) (hsub : seen ⊆ seen') (hseen : claim.claim_id ∈ seen')
    (hnamed : claim.claim_id ≠ "")
    (hparent : ∀ t, claim.supersedes = some t → ∃ c, claims.find t = some c) :
    WellKeyed (claims.insert claim.claim_id claim) seen' := by
  have hstored : ∀ t, (∃ c, claims.find t = some c) →
      ∃ c, (claims.insert claim.claim_id claim).find t = some c := by
    rintro t ⟨c, hc⟩
    rw [OrderedMap.find_insert]
    split
    · exact ⟨claim, rfl⟩
    · exact ⟨c, hc⟩
  refine ⟨fun id c hc => ?_, fun id c hc => ?_, fun id c hc => ?_, fun id t ht => ?_⟩
  · rw [OrderedMap.find_insert] at hc
    split at hc
    · next heq =>
      cases hc
      exact heq
    · exact h.keyed id c hc
  · rw [OrderedMap.find_insert] at hc
    split at hc
    · next heq => exact heq ▸ hnamed
    · exact h.named id c hc
  · rw [OrderedMap.find_insert] at hc
    split at hc
    · next heq => exact heq ▸ hseen
    · exact hsub (h.seen id c hc)
  · rw [parentOf_insert] at ht
    split at ht
    · exact hstored t (hparent t ht)
    · exact hstored t (h.parents id t ht)

theorem sound_add (hkeyed : WellKeyed claims seen)
    (hsound : Forest.Sound (parentOf claims) (HasStatus claims .active) (HasStatus claims .revoked))
    (hfresh : claim.claim_id ∉ seen) (hactive : claim.status = .active)
    (htop : ∀ t, claim.supersedes = some t → t ∈ seen ∧ ∀ r, Forest.Over (parentOf claims) t r →
      ¬ HasStatus claims .revoked r ∧ ∀ i, Forest.Over (parentOf claims) i r → ¬ HasStatus claims .active i) :
    Forest.Sound (parentOf (claims.insert claim.claim_id claim))
      (HasStatus (claims.insert claim.claim_id claim) .active)
      (HasStatus (claims.insert claim.claim_id claim) .revoked) := by
  have hparent : parentOf (claims.insert claim.claim_id claim) claim.claim_id = claim.supersedes := by
    rw [parentOf_insert, if_pos rfl]
  have hstatus : ∀ status i, i ≠ claim.claim_id →
      HasStatus (claims.insert claim.claim_id claim) status i → HasStatus claims status i := by
    intro status i hi h
    rw [hasStatus_insert, if_neg (Ne.symm hi)] at h
    exact h
  have hparents : ∀ i, parentOf claims i ≠ some claim.claim_id := by
    intro i hi
    obtain ⟨c, hc⟩ := hkeyed.parents i _ hi
    exact hfresh (hkeyed.seen _ c hc)
  refine Forest.Sound.insert (n := claim.claim_id) (fun i hi => ?_) hparents hsound ?_ (hstatus _) (hstatus _) ?_ ?_
  · rw [parentOf_insert, if_neg (Ne.symm hi)]
  · rw [hparent]
    exact fun hself => hfresh (htop _ hself).1
  · rw [hasStatus_insert, if_pos rfl, hactive]
    nofun
  · intro t ht r hr
    rw [hparent] at ht
    obtain ⟨hrevoked, hothers⟩ := (htop t ht).2 r hr
    refine ⟨fun h => ?_, fun i hi hover h => hothers i hover (hstatus _ i hi h)⟩
    by_cases hrn : r = claim.claim_id
    · rw [hrn, hasStatus_insert, if_pos rfl, hactive] at h
      cases h
    · exact hrevoked (hstatus _ r hrn h)

theorem Inv.step (h : Inv s) (horderly : Orderly s event) (heffect : Effect s s' event)
    (hsub : s.seenEventIds ⊆ s'.seenEventIds) : Inv s' := by
  cases heffect with
  | none hclaims =>
    refine ⟨?_, ?_⟩
    · rw [hclaims]
      exact ⟨h.wellKeyed.keyed, h.wellKeyed.named, fun id c hc => hsub (h.wellKeyed.seen id c hc),
        h.wellKeyed.parents⟩
    · rw [hclaims]
      exact h.sound
  | issued claim hnew haccepts hclaims =>
    obtain ⟨supersedes, hsupersedes, hclaim⟩ := hnew.supersedes
    rw [horderly.issued haccepts] at hsupersedes
    cases hsupersedes
    have hroot : ∀ t, claim.supersedes ≠ some t := by
      rw [hclaim]
      nofun
    refine ⟨?_, ?_⟩
    · rw [hclaims]
      exact h.wellKeyed.add hsub hnew.seen hnew.named fun t ht => absurd ht (hroot t)
    · rw [hclaims]
      exact sound_add h.wellKeyed h.sound hnew.fresh hnew.active fun t ht => absurd ht (hroot t)
  | superseded claim t target hnew htargets hid hfind hclaims =>
    obtain ⟨supersedes, hsupersedes, hclaim⟩ := hnew.supersedes
    rw [hid] at hsupersedes
    cases hsupersedes
    rw [nonEmpty, if_neg (h.wellKeyed.named t target hfind)] at hclaim
    have hkeyed : WellKeyed (s.claims.insert t (target.markSuperseded claim.claim_id)) s.seenEventIds :=
      h.wellKeyed.update hfind rfl rfl
    have hparents : parentOf (s.claims.insert t (target.markSuperseded claim.claim_id)) = parentOf s.claims :=
      parentOf_update hfind rfl
    -- the target is neither active nor revoked any more
    have hstatus : ∀ status, status ≠ .superseded → ∀ i,
        HasStatus (s.claims.insert t (target.markSuperseded claim.claim_id)) status i →
          i ≠ t ∧ HasStatus s.claims status i := by
      intro status hne i hi
      rw [hasStatus_insert] at hi
      split at hi
      · exact absurd hi.symm hne
      · next hti => exact ⟨Ne.symm hti, hi⟩
    have hactive := hstatus .active nofun
    have hrevoked := hstatus .revoked nofun
    have hsound : Forest.Sound (parentOf s.claims)
        (HasStatus (s.claims.insert t (target.markSuperseded claim.claim_id)) .active)
        (HasStatus (s.claims.insert t (target.markSuperseded claim.claim_id)) .revoked) :=
      h.sound.mono (fun i hi => (hactive i hi).2) fun i hi => (hrevoked i hi).2
    refine ⟨?_, ?_⟩
    · rw [hclaims]
      refine hkeyed.add hsub hnew.seen hnew.named fun u hu => ?_
      rw [hclaim] at hu
      cases hu
      exact ⟨_, OrderedMap.find_insert_self _ _ _⟩
    · rw [hclaims]
      refine sound_add hkeyed (hparents ▸ hsound) hnew.fresh hnew.active fun u hu => ?_
      rw [hclaim] at hu
      cases hu
      rw [hparents]
      refine ⟨h.wellKeyed.seen t target hfind, fun r hr => ?_⟩
      obtain ⟨halive, hothers⟩ := horderly.superseded t htargets r hr
      refine ⟨fun hdead => halive (hrevoked r hdead).2, fun i hi hai => ?_⟩
      obtain ⟨hne, hold⟩ := hactive i hai
      exact hne (hothers i hi hold)
  | revoked t target eventId htargets hfind hclaims =>
    have hparents : parentOf (s.claims.insert t (target.markRevoked eventId)) = parentOf s.claims :=
      parentOf_update hfind rfl
    have hactive : ∀ i, HasStatus (s.claims.insert t (target.markRevoked eventId)) .active i →
        i ≠ t ∧ HasStatus s.claims .active i := by
      intro i hi
      rw [hasStatus_insert] at hi
      split at hi
      · cases hi
      · next hti => exact ⟨Ne.symm hti, hi⟩
    have hrevoked : ∀ i, HasStatus (s.claims.insert t (target.markRevoked eventId)) .revoked i →
        HasStatus s.claims .revoked i ∨ i = t := by
      intro i hi
      rw [hasStatus_insert] at hi
      split at hi
      · next hti => exact .inr hti.symm
      · exact .inl hi
    refine ⟨?_, ?_⟩
    · rw [hclaims]
      obtain ⟨hkeyed, hnamed, hseen, hstored⟩ :
          WellKeyed (s.claims.insert t (target.markRevoked eventId)) s.seenEventIds :=
        h.wellKeyed.update hfind rfl rfl
      exact ⟨hkeyed, hnamed, fun id c hc => hsub (hseen id c hc), hstored⟩
    · rw [hclaims, hparents]
      refine h.sound.revoke (fun i hi => (hactive i hi).2) hrevoked fun i hi hai => ?_
      obtain ⟨hne, hold⟩ := hactive i hai
      exact hne (horderly.revoked t htargets i hi hold)

/-- A revoked claim stays revoked. -/
theorem revoked_step (h : Inv s) (horderly : Orderly s event) (heffect : Effect s s' event)
    (hrevoked : HasStatus s.claims .revoked t) : HasStatus s'.claims .revoked t := by
  have hseen : t ∈ s.seenEventIds := by
    obtain ⟨claim, hclaim, -⟩ := hrevoked
    exact h.wellKeyed.seen t claim hclaim
  cases heffect with
  | none hclaims => rwa [hclaims]
  | issued claim hnew haccepts hclaims =>
    have hne : claim.claim_id ≠ t := fun heq => hnew.fresh (heq ▸ hseen)
    rw [hclaims, hasStatus_insert, if_neg hne]
    exact hrevoked
  | superseded claim u target hnew htargets hid hfind hclaims =>
    have hne : claim.claim_id ≠ t := fun heq => hnew.fresh (heq ▸ hseen)
    have hut : u ≠ t := fun heq => (horderly.superseded u htargets u .refl).1 (heq ▸ hrevoked)
    rw [hclaims, hasStatus_insert, if_neg hne, hasStatus_insert, if_neg hut]
    exact hrevoked
  | revoked u target eventId htargets hfind hclaims =>
    rw [hclaims, hasStatus_insert]
    split
    · rfl
    · exact hrevoked

/-! ## Histories -/

variable {events : List Json}

theorem foldlM_cons_eq_ok : (event :: events).foldlM applyEvent s = .ok s' ↔
    ∃ s₁, applyEvent s event = .ok s₁ ∧ events.foldlM applyEvent s₁ = .ok s' := by
  rw [List.foldlM_cons]
  exact bind_eq_ok

theorem inv_empty : Inv .empty := by
  have hnone : ∀ status id, ¬ HasStatus State.empty.claims status id := by
    rintro status id ⟨claim, hclaim, -⟩
    cases hclaim
  exact ⟨⟨nofun, nofun, nofun, nofun⟩, ⟨fun _ _ hi => absurd hi (hnone _ _), fun _ hr => absurd hr (hnone _ _)⟩⟩

theorem Inv.run (h : Inv s) (horderly : EveryOrderly s events)
    (hrun : events.foldlM applyEvent s = .ok s') : Inv s' := by
  induction events generalizing s with
  | nil =>
    cases hrun
    exact h
  | cons event events ih =>
    obtain ⟨s₁, hstep, hrun⟩ := foldlM_cons_eq_ok.mp hrun
    obtain ⟨hsub, heffect⟩ := applyEvent_effect hstep
    exact ih (h.step horderly.1 heffect hsub) (horderly.2 s₁ hstep) hrun

theorem revoked_run (h : Inv s) (horderly : EveryOrderly s events)
    (hrun : events.foldlM applyEvent s = .ok s') (hrevoked : HasStatus s.claims .revoked t) :
    HasStatus s'.claims .revoked t := by
  induction events generalizing s with
  | nil =>
    cases hrun
    exact hrevoked
  | cons event events ih =>
    obtain ⟨s₁, hstep, hrun⟩ := foldlM_cons_eq_ok.mp hrun
    obtain ⟨hsub, heffect⟩ := applyEvent_effect hstep
    exact ih (h.step horderly.1 heffect hsub) (horderly.2 s₁ hstep) hrun
      (revoked_step h horderly.1 heffect hrevoked)

theorem EveryOrderly.append {pre post : List Json} (h : EveryOrderly s (pre ++ post))
    (hrun : pre.foldlM applyEvent s = .ok s') : EveryOrderly s pre ∧ EveryOrderly s' post := by
  induction pre generalizing s with
  | nil =>
    cases hrun
    exact ⟨trivial, h⟩
  | cons event pre ih =>
    obtain ⟨s₁, hstep, hrun⟩ := foldlM_cons_eq_ok.mp hrun
    refine ⟨⟨h.1, fun s₂ hs₂ => ?_⟩, (ih (h.2 s₁ hstep) hrun).2⟩
    rw [hstep] at hs₂
    cases hs₂
    exact (ih (h.2 s₁ hstep) hrun).1

theorem isOfType_of_revoked (h : isOfType event .revoked = true) :
    isOfType event .issued = false ∧ isOfType event .superseded = false := by
  unfold isOfType at h ⊢
  rw [strictEq_str_iff.mp h]
  exact ⟨by decide, by decide⟩

/-- A revocation that is accepted makes its target revoked. -/
theorem revoked_of_targets (htargets : Targets s event .revoked "revokes" t)
    (hstep : applyEvent s event = .ok s') : HasStatus s'.claims .revoked t := by
  obtain ⟨codes, hvalid, hrest⟩ := bind_eq_ok.mp hstep
  obtain ⟨eventId, hid, hresult⟩ := bind_eq_ok.mp hrest
  rw [htargets.valid] at hvalid
  cases hvalid
  have hnew : ¬ (eventId ≠ "" ∧ eventId ∈ s.seenEventIds) := fun hdup => htargets.fresh eventId hid hdup.2
  dsimp only at hresult
  rw [if_neg hnew, if_pos rfl, if_neg (ne_empty_of_valid htargets.valid hid)] at hresult
  obtain ⟨hissued, hsuperseded⟩ := isOfType_of_revoked htargets.type
  unfold applyAccepted at hresult
  rw [if_neg (by simp [hissued]), if_neg (by simp [hsuperseded]), if_pos htargets.type] at hresult
  obtain ⟨found, hfound, hset⟩ := bind_eq_ok.mp hresult
  obtain ⟨target, htarget⟩ := htargets.target
  rw [htarget] at hfound
  cases hfound
  cases hset
  exact hasStatus_insert.mpr (by rw [if_pos rfl]; rfl)

/-! ## The projection of a state -/

variable {claimHistory : Option Json} {filters : Json} {p : Projection}

/-- What is reported is what passes the filters. -/
theorem derive_eq_ok (h : deriveActiveClaimProjection claimHistory filters = .ok p) :
    ∃ s subjectFilter claimTypeFilter, (historyOf claimHistory).foldlM applyEvent .empty = .ok s ∧
      (filters = .obj [] → subjectFilter = "" ∧ claimTypeFilter = "") ∧
      ∀ c, c ∈ p.claims ↔ ∃ id claim, s.claims.find id = some claim ∧
        matchesFilters subjectFilter claimTypeFilter claim = true ∧ publicClaim claim = c := by
  obtain ⟨s, hrun, h⟩ := bind_eq_ok.mp h
  obtain ⟨subject, hsubject, h⟩ := bind_eq_ok.mp h
  obtain ⟨subjectFilter, hsf, h⟩ := bind_eq_ok.mp h
  obtain ⟨claimTypeFilter, hcf, h⟩ := bind_eq_ok.mp h
  cases h
  refine ⟨s, subjectFilter, claimTypeFilter, hrun, ?_, fun c => ?_⟩
  · rintro rfl
    cases hsubject
    cases hsf
    cases hcf
    exact ⟨rfl, rfl⟩
  · unfold Projection.claims
    dsimp only
    constructor
    · intro hc
      have hc : ∃ claim ∈ (s.claims.entries.map Prod.snd).filter (matchesFilters subjectFilter claimTypeFilter),
          publicClaim claim = c := by
        obtain hc | hc := List.mem_append.mp hc
        · obtain ⟨claim, hclaim, heq⟩ := List.mem_map.mp hc
          exact ⟨claim, List.mem_of_mem_filter hclaim, heq⟩
        · obtain ⟨claim, hclaim, heq⟩ := List.mem_map.mp hc
          exact ⟨claim, List.mem_of_mem_filter hclaim, heq⟩
      obtain ⟨claim, hclaim, heq⟩ := hc
      obtain ⟨hmem, hmatches⟩ := List.mem_filter.mp hclaim
      obtain ⟨⟨id, claim⟩, hentry, rfl⟩ := List.mem_map.mp hmem
      exact ⟨id, claim, OrderedMap.find_eq_some.mpr hentry, hmatches, heq⟩
    · rintro ⟨id, claim, hfind, hmatches, rfl⟩
      have hclaim : claim ∈ (s.claims.entries.map Prod.snd).filter
          (matchesFilters subjectFilter claimTypeFilter) :=
        List.mem_filter.mpr ⟨List.mem_map.mpr ⟨(id, claim), OrderedMap.find_eq_some.mp hfind, rfl⟩, hmatches⟩
      by_cases hactive : claim.status = .active
      · exact List.mem_append_left _ (List.mem_map_of_mem (List.mem_filter.mpr ⟨hclaim, by simpa using hactive⟩))
      · exact List.mem_append_right _ (List.mem_map_of_mem (List.mem_filter.mpr ⟨hclaim, by simpa using hactive⟩))

/-- The public claims are those of the state, under their ids. -/
def Reports (p : Projection) (s : State) : Prop :=
  ∀ c ∈ p.claims, ∃ claim, s.claims.find c.claim_id = some claim ∧ publicClaim claim = c

theorem over_of_projection (h : Reports p s) {c d : PublicClaim} (hc : c ∈ p.claims) (hover : p.Over c d) :
    Forest.Over (parentOf s.claims) c.claim_id d.claim_id := by
  induction hover using Relation.ReflTransGen.head_induction_on with
  | refl => exact .refl
  | head hstep _ ih =>
    obtain ⟨hmem, hsupersedes⟩ := hstep
    obtain ⟨claim, hfind, heq⟩ := h _ hc
    refine .head ?_ (ih hmem)
    rw [parentOf, hfind]
    rw [← heq] at hsupersedes
    exact (Option.filter_eq_some_iff.mp hsupersedes).1

theorem sound_of_reports (h : Reports p s) (hinv : Inv s) : p.Sound := by
  have hstatus : ∀ c ∈ p.claims, HasStatus s.claims c.status c.claim_id := by
    intro c hc
    obtain ⟨claim, hfind, heq⟩ := h c hc
    exact ⟨claim, hfind, congrArg PublicClaim.status heq⟩
  refine ⟨fun d _ c₁ hc₁ c₂ hc₂ h₁ h₂ ha₁ ha₂ => ?_, fun d hd c hc hover hdead halive => ?_⟩
  · have hid : c₁.claim_id = c₂.claim_id :=
      hinv.sound.single (over_of_projection h hc₁ h₁) (over_of_projection h hc₂ h₂)
        (ha₁ ▸ hstatus c₁ hc₁) (ha₂ ▸ hstatus c₂ hc₂)
    obtain ⟨claim₁, hfind₁, rfl⟩ := h c₁ hc₁
    obtain ⟨claim₂, hfind₂, rfl⟩ := h c₂ hc₂
    rw [hid, hfind₂] at hfind₁
    cases hfind₁
    rfl
  · exact hinv.sound.dead (over_of_projection h hc hover) (hdead ▸ hstatus d hd) (halive ▸ hstatus c hc)

theorem reports_of_derive (horderly : EveryOrderly .empty (historyOf claimHistory))
    (h : deriveActiveClaimProjection claimHistory filters = .ok p) :
    ∃ s, (historyOf claimHistory).foldlM applyEvent .empty = .ok s ∧ Inv s ∧ Reports p s ∧
      (filters = .obj [] → ∀ id claim, s.claims.find id = some claim → publicClaim claim ∈ p.claims) := by
  obtain ⟨s, subjectFilter, claimTypeFilter, hrun, hfilters, hclaims⟩ := derive_eq_ok h
  have hinv := inv_empty.run horderly hrun
  refine ⟨s, hrun, hinv, fun c hc => ?_, fun hnone id claim hfind => ?_⟩
  · obtain ⟨id, claim, hfind, -, rfl⟩ := (hclaims c).mp hc
    refine ⟨claim, ?_, rfl⟩
    show s.claims.find claim.claim_id = some claim
    rw [hinv.wellKeyed.keyed id claim hfind, hfind]
  · obtain ⟨rfl, rfl⟩ := hfilters hnone
    exact (hclaims _).mpr ⟨id, claim, hfind, rfl, rfl⟩

/-- What an accepted event revokes is revoked at the end of the history. -/
theorem revoked_at_end {pre post : List Json} (horderly : EveryOrderly .empty (pre ++ event :: post))
    (hpre : pre.foldlM applyEvent .empty = .ok s) (htargets : Targets s event .revoked "revokes" t)
    (hrun : (pre ++ event :: post).foldlM applyEvent .empty = .ok s') : HasStatus s'.claims .revoked t := by
  obtain ⟨hpreOrderly, hevent, hpost⟩ := horderly.append hpre
  rw [List.foldlM_append, hpre] at hrun
  obtain ⟨s₁, hstep, hpostRun⟩ := foldlM_cons_eq_ok.mp hrun
  obtain ⟨hsub, heffect⟩ := applyEvent_effect hstep
  exact revoked_run ((inv_empty.run hpreOrderly hpre).step hevent heffect hsub) (hpost s₁ hstep) hpostRun
    (revoked_of_targets htargets hstep)

/-- If every event of the history is orderly, the projection has at most one active claim in a lineage,
none over a revoked claim, and reports as revoked what an accepted event of the history revoked. -/
theorem lineage_holds (claimHistory : Option Json) (horderly : EveryOrderly .empty (historyOf claimHistory)) :
    (∀ filters p, deriveActiveClaimProjection claimHistory filters = .ok p → p.Sound) ∧
    ∀ pre event post s t, historyOf claimHistory = pre ++ event :: post →
      pre.foldlM applyEvent .empty = .ok s → Targets s event .revoked "revokes" t →
        (∀ filters p, deriveActiveClaimProjection claimHistory filters = .ok p →
          ∀ c ∈ p.claims, c.claim_id = t → c.status = .revoked) ∧
        ∀ p, deriveActiveClaimProjection claimHistory (.obj []) = .ok p → ∃ c ∈ p.claims, c.claim_id = t := by
  refine ⟨fun filters p hp => ?_, fun pre event post s t hsplit hpre htargets => ⟨?_, ?_⟩⟩
  · obtain ⟨s, -, hinv, hreports, -⟩ := reports_of_derive horderly hp
    exact sound_of_reports hreports hinv
  · rintro filters p hp c hc rfl
    obtain ⟨s', hrun, -, hreports, -⟩ := reports_of_derive horderly hp
    rw [hsplit] at horderly hrun
    obtain ⟨claim, hfind, hstatus⟩ := revoked_at_end horderly hpre htargets hrun
    obtain ⟨claim', hfind', heq⟩ := hreports c hc
    rw [hfind] at hfind'
    cases hfind'
    rw [← heq]
    exact hstatus
  · intro p hp
    obtain ⟨s', hrun, hinv, -, hall⟩ := reports_of_derive horderly hp
    rw [hsplit] at horderly hrun
    obtain ⟨claim, hfind, -⟩ := revoked_at_end horderly hpre htargets hrun
    exact ⟨_, hall rfl t claim hfind, hinv.wellKeyed.keyed t claim hfind⟩

/-! ## A claim superseded twice -/

def claimEvent (type : ClaimEventType) (id : String) (fields : Fields) : Json :=
  .obj ([("event_type", .str type.name), ("event_id", .str id), ("subject", .str "alice"),
    ("claim_type", .str "controls_email"),
    ("value_hash", .str "sha256:0000000000000000000000000000000000000000000000000000000000000000")] ++ fields)

/-- One claim, and two that supersede it. -/
def fork : Json :=
  .arr [claimEvent .issued "a" [], claimEvent .superseded "b" [("supersedes", .str "a")],
    claimEvent .superseded "c" [("supersedes", .str "a")]]

def aliceClaim (id : String) (status : ClaimStatus) (supersedes superseded_by revoked_by : Option String) :
    PublicClaim where
  claim_id := id
  subject := "alice"
  claim_type := "controls_email"
  status
  value_hash := "sha256:0000000000000000000000000000000000000000000000000000000000000000"
  evidence_ref := none
  issued_at := none
  supersedes
  superseded_by
  revoked_by
  disclosure_value := none

theorem derive_fork : ∃ p, deriveActiveClaimProjection (some fork) (.obj []) = .ok p ∧
    p.claims = [aliceClaim "b" .active (some "a") none none, aliceClaim "c" .active (some "a") none none,
      aliceClaim "a" .superseded none (some "c") none] :=
  ⟨_, rfl, rfl⟩

/-- Both claims of the fork are active. -/
theorem fork_two_active : ¬ ∀ claimHistory filters p,
    deriveActiveClaimProjection claimHistory filters = .ok p → p.Sound := by
  intro hall
  obtain ⟨p, hp, hclaims⟩ := derive_fork
  have hover : ∀ id, p.Over (aliceClaim id .active (some "a") none none)
      (aliceClaim "a" .superseded none (some "c") none) := fun id =>
    .single ⟨by rw [hclaims]; simp, rfl⟩
  have heq := (hall _ _ p hp).single _ (by rw [hclaims]; simp) (aliceClaim "b" .active (some "a") none none)
    (by rw [hclaims]; simp) (aliceClaim "c" .active (some "a") none none) (by rw [hclaims]; simp)
    (hover "b") (hover "c") rfl rfl
  exact absurd (congrArg PublicClaim.claim_id heq) (by decide)

/-- A claim, one that supersedes it, and the revocation of that one. -/
def chain : Json :=
  .arr [claimEvent .issued "a" [], claimEvent .superseded "b" [("supersedes", .str "a")],
    claimEvent .revoked "c" [("revokes", .str "b")]]

theorem orderly_chain : EveryOrderly .empty (historyOf (some chain)) := by
  refine ⟨⟨fun _ => rfl, fun t h => absurd h.type (by decide), fun t h => absurd h.type (by decide)⟩,
    fun s₁ h₁ => ?_⟩
  cases h₁
  refine ⟨⟨fun h => absurd h.type (by decide), fun t h => ?_, fun t h => absurd h.type (by decide)⟩,
    fun s₂ h₂ => ?_⟩
  · obtain ⟨claim, hfound⟩ := h.target
    cases hfound
    intro r hr
    obtain rfl | ⟨k, hk, -⟩ := Relation.ReflTransGen.cases_head hr
    · refine ⟨fun ⟨claim, hfind, hstatus⟩ => ?_, fun i _ ⟨claim, hfind, hstatus⟩ => ?_⟩
      · cases hfind
        cases hstatus
      · exact (Prod.mk.inj (List.mem_singleton.mp (OrderedMap.find_eq_some.mp hfind))).1
    · cases hk
  cases h₂
  refine ⟨⟨fun h => absurd h.type (by decide), fun t h => absurd h.type (by decide), fun t h => ?_⟩,
    fun _ _ => trivial⟩
  obtain ⟨claim, hfound⟩ := h.target
  cases hfound
  rintro i - ⟨claim, hfind, hstatus⟩
  obtain heq | hmem := List.mem_cons.mp (OrderedMap.find_eq_some.mp hfind)
  · cases heq
    cases hstatus
  · exact (Prod.mk.inj (List.mem_singleton.mp hmem)).1

theorem derive_chain : ∃ p, deriveActiveClaimProjection (some chain) (.obj []) = .ok p ∧
    p.claims = [aliceClaim "a" .superseded none (some "b") none,
      aliceClaim "b" .revoked (some "a") none (some "c")] :=
  ⟨_, rfl, rfl⟩

theorem chain_sound : ∃ p, deriveActiveClaimProjection (some chain) (.obj []) = .ok p ∧ p.Sound ∧
    p.claims = [aliceClaim "a" .superseded none (some "b") none,
      aliceClaim "b" .revoked (some "a") none (some "c")] := by
  obtain ⟨p, hp, hclaims⟩ := derive_chain
  exact ⟨p, hp, (lineage_holds (some chain) orderly_chain).1 (.obj []) p hp, hclaims⟩

end SimpleL1.Subject.ClaimHistory
