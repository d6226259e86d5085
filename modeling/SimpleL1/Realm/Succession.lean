import SimpleL1.Realm.LiveState
import SimpleL1.Realm.Payload

/-!
# Root succession

The log names its roots: a creation or a rotation establishes an id and an
authority reference, and `establishedRoot` is the pair the latest of them wrote.
In a reachable ledger that pair is the active root of the projection, the first
realm event is the one creation, and the events only a root may issue were
signed by the root established last before them.
-/

namespace SimpleL1.Realm

open SimpleL1.Js

/-! ## Roots in the log -/

def hasType (event : Json) (t : EventType) : Bool := strictEq (event.prop "type") (some (.str t.name))

/-- The id and the authority reference of the root an event establishes. -/
def rootNames (event : Json) : Option (String × String) :=
  let payload := eventPayload event
  if hasType event .rootAuthorityCreated then
    some (textOf (payload.prop "root_id"), textOf (event.prop "authority_reference"))
  else if hasType event .authorityRotated then
    let ref := textOf (payload.prop "new_authority_ref")
    let id := textOf (payload.prop "new_root_id")
    some (if id = "" then ref else id, ref)
  else none

/-- The names written by the latest creation or rotation of the log. -/
def establishedRoot (log : List Json) : Option (String × String) :=
  log.reverse.findSome? rootNames

/-- The types only a root may issue. -/
def rootSigned : List EventType :=
  [.authorityRotated, .recoveryAuthorityIssued, .recoveryAuthorityRevoked,
    .federationTrustEstablished, .federationTrustUpdated, .federationTrustRevoked]

def IsRealmEvent (event : Json) : Prop := isCanonicalRealmEvent event = .ok true

theorem establishedRoot_snoc (log : List Json) (event : Json) :
    establishedRoot (log ++ [event]) = (rootNames event).or (establishedRoot log) := by
  simp only [establishedRoot, List.reverse_append, List.reverse_cons, List.reverse_nil,
    List.nil_append, List.singleton_append, List.findSome?_cons]
  cases rootNames event <;> rfl

/-- The names of a later root are those of one of the later events. -/
theorem establishedRoot_append (pre mid : List Json) {event : Json} (h : rootNames event ≠ none) :
    ∃ e ∈ event :: mid, ∃ names, rootNames e = some names ∧
      establishedRoot (pre ++ event :: mid) = some names := by
  induction mid using List.reverseRecOn with
  | nil =>
    obtain ⟨names, hnames⟩ := Option.ne_none_iff_exists'.mp h
    refine ⟨event, List.mem_singleton_self _, names, hnames, ?_⟩
    rw [establishedRoot_snoc, hnames]; rfl
  | append_singleton mid last ih =>
    rw [← List.cons_append, ← List.append_assoc, establishedRoot_snoc]
    cases hlast : rootNames last with
    | some names => exact ⟨last, by simp, names, hlast, rfl⟩
    | none =>
      obtain ⟨e, he, names, hnames, hest⟩ := ih
      refine ⟨e, ?_, names, hnames, hest⟩
      exact List.mem_append_left _ he

namespace Shows

variable {event : Json} {n : NormalizedProposal}

theorem hasType_iff {t u : EventType} (h : Shows event n) (ht : n.envelope.type = t.name) :
    hasType event u = true ↔ u = t := by
  rw [hasType, h.type, ht, strictEq_str, beq_iff_eq]
  exact ⟨fun he => (EventType.name_injective he).symm, fun he => he ▸ rfl⟩

end Shows

theorem Foreign.hasType {event : Json} (h : Foreign event) (t : EventType) :
    hasType event t = false := by
  by_contra hne
  rw [Bool.not_eq_false, Realm.hasType, strictEq_str_iff] at hne
  -- an event with the name of a type is chained
  have hchained : isHashChainedRealmEvent event = .ok true := by
    have htype : hasRealmEventContract (chainedType event) = .ok true := by
      rw [chainedType, hne, or_str t.name_ne_empty, hasRealmEventContract, getRealmEventContract,
        strOrEmpty_str]
      simp [Except.map, registryLookup_name]
    simp only [isHashChainedRealmEvent, htype]
    split <;> rfl
  rw [h.2] at hchained
  cases hchained

theorem Foreign.rootNames {event : Json} (h : Foreign event) : rootNames event = none := by
  simp [Realm.rootNames, h.hasType]

/-! ## The root of an accepted event -/

section
variable {host : Host} {clock : Clock} {s s' : AuthorityState} {fs : List HashedFields}
  {n : NormalizedProposal} {event : Json}

theorem textOf_or {v : Option Json} (h : OptionalString v) (s : String) :
    toStr (or v (some (.str s))) = .ok (if textOf v = "" then s else textOf v) := by
  cases h with
  | none => rfl
  | null => rfl
  | str x =>
    by_cases hx : x = ""
    · subst hx; rfl
    · rw [or_str hx]; simp [textOf, hx]

theorem Accepts.rootCreated (h : Accepts host clock s fs .rootAuthorityCreated n event s') :
    ∃ root, s'.rootAuthority = some root ∧ root.status = .active
      ∧ rootNames event = some (root.id, root.authorityRef) := by
  obtain ⟨c, hc, rfl⟩ := h.change
  obtain ⟨id, hid, hne⟩ :=
    (validatePayload_eq_nil.mp h.payload).string "root_id" (by decide) (by decide)
  have href : n.envelope.toJson.prop "authority_reference" =
      some (.str n.envelope.authority_reference) := rfl
  have hadapter : (realmEventRegistry .rootAuthorityCreated).migrationAdapter (.obj n.payload) =
      n.payload := rfl
  simp only [changeOf, readEstablishRoot, href, or_str h.authority_reference, toStr_str, ok_bind,
    hadapter, hid, or_str (ne_empty_of_trim hne), pure_eq_ok, Except.ok.injEq] at hc
  subst hc
  refine ⟨_, rfl, rfl, ?_⟩
  have htype : hasType event .rootAuthorityCreated = true := (h.shows.hasType_iff h.type).mpr rfl
  simp only [rootNames, htype, if_true, h.shows.eventPayload_eq, h.shows.authority_reference,
    Json.prop_obj, hid]
  rfl

theorem Accepts.rootRotated (h : Accepts host clock s fs .authorityRotated n event s') :
    ∃ root, s'.rootAuthority = some root ∧ root.status = .active
      ∧ rootNames event = some (root.id, root.authorityRef) := by
  obtain ⟨c, hc, rfl⟩ := h.change
  have hpayload := validatePayload_eq_nil.mp h.payload
  obtain ⟨ref, href, hne⟩ := hpayload.string "new_authority_ref" (by decide) (by decide)
  have hid := hpayload.optional "new_root_id" (by decide)
  have hadapter : (realmEventRegistry .authorityRotated).migrationAdapter (.obj n.payload) =
      n.payload := rfl
  simp only [changeOf, readRotateRoot, hadapter, href, or_str (ne_empty_of_trim hne),
    strOrEmpty_str, ok_bind, textOf_or hid, pure_eq_ok,
    Except.ok.injEq] at hc
  subst hc
  refine ⟨_, rfl, rfl, ?_⟩
  have hcreated : hasType event .rootAuthorityCreated = false :=
    Bool.eq_false_iff.mpr fun hf => by cases (h.shows.hasType_iff h.type).mp hf
  have htype : hasType event .authorityRotated = true := (h.shows.hasType_iff h.type).mpr rfl
  simp only [rootNames, hcreated, htype, if_true, h.shows.eventPayload_eq, Json.prop_obj, href]
  rfl

theorem Accepts.rootKept {t : EventType} (h : Accepts host clock s fs t n event s')
    (hc : t ≠ .rootAuthorityCreated) (hr : t ≠ .authorityRotated) :
    s'.rootAuthority = s.rootAuthority ∧ rootNames event = none := by
  obtain ⟨c, hchange, rfl⟩ := h.change
  constructor
  · apply Change.apply_rootAuthority
    rintro id ref rfl
    have hmem := mem_types_of_changeOf hchange
    simp [Change.types, hc, hr] at hmem
  · have hcreated : hasType event .rootAuthorityCreated = false :=
      Bool.eq_false_iff.mpr fun hf => hc ((h.shows.hasType_iff h.type).mp hf).symm
    have hrotated : hasType event .authorityRotated = false :=
      Bool.eq_false_iff.mpr fun hf => hr ((h.shows.hasType_iff h.type).mp hf).symm
    simp [rootNames, hcreated, hrotated]

end

/-! ## The invariant -/

/-- Before the first realm event nothing is known; from then on the log's latest root is active. -/
structure RootInv (log : List Json) (s : AuthorityState) (fs : List HashedFields) : Prop where
  initial : fs = [] → s = emptyAuthorityState
  established : fs ≠ [] → ∃ root, s.rootAuthority = some root ∧ root.status = .active
    ∧ establishedRoot log = some (root.id, root.authorityRef)
  realm : fs = [] ↔ ∀ event ∈ log, ¬ IsRealmEvent event

/-- In the empty projection only a creation passes its policy. -/
theorem policy_empty {signer : String} {t : EventType}
    (h : canSignerSatisfyAuthorityPolicy emptyAuthorityState signer
      (realmEventRegistry t).requiredAuthority = true) : t = .rootAuthorityCreated := by
  cases t with
  | rootAuthorityCreated => rfl
  | _ => cases h

theorem Accepts.created_iff {host : Host} {clock : Clock} {log : List Json}
    {s s' : AuthorityState} {fs : List HashedFields} {t : EventType} {n : NormalizedProposal}
    {event : Json} (hinv : RootInv log s fs) (h : Accepts host clock s fs t n event s') :
    fs = [] ↔ t = .rootAuthorityCreated := by
  constructor
  · intro hfs
    have hpolicy := h.policy
    rw [hinv.initial hfs] at hpolicy
    exact policy_empty hpolicy
  · rintro rfl
    by_contra hfs
    obtain ⟨root, hroot, -⟩ := hinv.established hfs
    have hpolicy := h.policy
    simp [realmEventRegistry, canSignerSatisfyAuthorityPolicy, hroot] at hpolicy

theorem RootInv.accept {host : Host} {clock : Clock} {log : List Json} {s s' : AuthorityState}
    {fs : List HashedFields} {t : EventType} {n : NormalizedProposal} {event : Json}
    (hinv : RootInv log s fs) (h : Accepts host clock s fs t n event s') :
    RootInv (log ++ [event]) s' (fs ++ [n.hashed]) where
  initial hnil := by simp at hnil
  established _ := by
    rw [establishedRoot_snoc]
    by_cases hc : t = .rootAuthorityCreated
    · subst hc
      obtain ⟨root, hroot, hactive, hnames⟩ := h.rootCreated
      exact ⟨root, hroot, hactive, by rw [hnames]; rfl⟩
    by_cases hr : t = .authorityRotated
    · subst hr
      obtain ⟨root, hroot, hactive, hnames⟩ := h.rootRotated
      exact ⟨root, hroot, hactive, by rw [hnames]; rfl⟩
    obtain ⟨hroot, hnames⟩ := h.rootKept hc hr
    have hfs : fs ≠ [] := fun hnil => hc ((h.created_iff hinv).mp hnil)
    rw [hroot, hnames]
    exact hinv.established hfs
  realm := by
    constructor
    · intro hnil; simp at hnil
    · intro hno; exact absurd h.shows.canonical (hno event (by simp))

theorem RootInv.foreign {log : List Json} {s : AuthorityState} {fs : List HashedFields}
    {event : Json} (hinv : RootInv log s fs) (hf : Foreign event) : RootInv (log ++ [event]) s fs where
  initial := hinv.initial
  established hfs := by
    rw [establishedRoot_snoc, hf.rootNames]
    exact hinv.established hfs
  realm := by
    have hno : ¬ IsRealmEvent event := by
      intro h
      rw [IsRealmEvent, hf.1] at h
      cases h
    rw [hinv.realm]
    simp [or_imp, forall_and, hno]

theorem Reachable.rootInv {host : Host} {ledger : Ledger} (h : Reachable host ledger) :
    ∃ s fs, Live host ledger s fs ∧ RootInv ledger.event_log s fs :=
  h.invariant (P := RootInv)
    { initial := fun _ => rfl, established := fun h => absurd rfl h, realm := by simp }
    RootInv.accept RootInv.foreign

/-! ## Linear succession -/

/-- One root at a time: the first realm event creates it, rotations replace it, and only the
root in force issues what only a root may issue. -/
structure LinearSuccession (host : Host) (ledger : Ledger) : Prop where
  /-- A realm event is the first one of the log exactly when it is a creation. -/
  first : ∀ {pre post : List Json} {event : Json}, ledger.event_log = pre ++ event :: post →
    IsRealmEvent event →
    ((∀ e ∈ pre, ¬ IsRealmEvent e) ↔ hasType event .rootAuthorityCreated = true)
  /-- After any realm event there is a root, and it is active. -/
  active : ∀ {pre post : List Json}, ledger.event_log = pre ++ post →
    (∃ e ∈ pre, IsRealmEvent e) →
    ∃ s root, buildCurrentAuthorityState host pre = .ok s ∧ s.rootAuthority = some root
      ∧ root.status = .active
  /-- The live projection is the one after the whole log. -/
  live : ∃ s, ledger.current_authority_state = some s
    ∧ buildCurrentAuthorityState host ledger.event_log = .ok s
  /-- What only a root may issue was signed by the root established last before. -/
  signed : ∀ {pre post : List Json} {event : Json} {t : EventType},
    ledger.event_log = pre ++ event :: post → t ∈ rootSigned → hasType event t = true →
    ∃ signer id ref, event.prop "signer" = some (.str signer)
      ∧ establishedRoot pre = some (id, ref) ∧ (signer = id ∨ signer = ref)
  /-- A name that no root has had since some rotation signs none of it. -/
  retired : ∀ {pre mid post : List Json} {rotation event : Json} {t : EventType} {name : String},
    ledger.event_log = pre ++ rotation :: mid ++ event :: post →
    hasType rotation .authorityRotated = true → t ∈ rootSigned → hasType event t = true →
    (∀ e ∈ rotation :: mid, ∀ names, rootNames e = some names → name ≠ names.1 ∧ name ≠ names.2) →
    event.prop "signer" ≠ some (.str name)

/-- An event of a root-signed type names a root in force as its signer. -/
theorem Accepts.signed {host : Host} {clock : Clock} {log : List Json} {s s' : AuthorityState}
    {fs : List HashedFields} {t : EventType} {n : NormalizedProposal} {event : Json}
    (hinv : RootInv log s fs) (h : Accepts host clock s fs t n event s') (ht : t ∈ rootSigned) :
    ∃ id ref, establishedRoot log = some (id, ref)
      ∧ (n.envelope.signer = id ∨ n.envelope.signer = ref) := by
  have hfs : fs ≠ [] := by
    intro hnil
    have := (h.created_iff hinv).mp hnil
    subst this
    simp [rootSigned] at ht
  obtain ⟨root, hroot, hactive, hest⟩ := hinv.established hfs
  have hpolicy : isActiveRoot s n.envelope.signer = true := by
    have hp := h.policy
    simp only [rootSigned, List.mem_cons, List.not_mem_nil, or_false] at ht
    rcases ht with rfl | rfl | rfl | rfl | rfl | rfl <;> exact hp
  simp only [isActiveRoot, hroot, hactive, RootAuthority.named, beq_self_eq_true, Bool.true_and,
    Bool.or_eq_true, beq_iff_eq] at hpolicy
  refine ⟨root.id, root.authorityRef, hest, ?_⟩
  rcases hpolicy with hid | href
  · exact .inl hid.symm
  · exact .inr href.symm

theorem root_succession_signed {host : Host} {ledger : Ledger} (h : Reachable host ledger)
    {pre post : List Json} {event : Json} {t : EventType}
    (hlog : ledger.event_log = pre ++ event :: post) (ht : t ∈ rootSigned)
    (htype : hasType event t = true) :
    ∃ signer id ref, event.prop "signer" = some (.str signer)
      ∧ establishedRoot pre = some (id, ref) ∧ (signer = id ∨ signer = ref) := by
  obtain ⟨l, l', hl, rfl, hstep⟩ := h.cut hlog
  obtain ⟨s, fs, hlive, hinv⟩ := hl.rootInv
  cases hstep with
  | accept hcall =>
    obtain ⟨u, s', hacc, -, -⟩ := hlive.accept hcall
    cases (hacc.shows.hasType_iff hacc.type).mp htype
    obtain ⟨id, ref, hest, hsigner⟩ := hacc.signed hinv ht
    exact ⟨_, id, ref, hacc.shows.signer, hest, hsigner⟩
  | foreign hf => rw [hf.hasType] at htype; cases htype

theorem root_succession_linear {host : Host} {ledger : Ledger} (h : Reachable host ledger) :
    LinearSuccession host ledger where
  first := by
    intro pre post event hlog hrealm
    obtain ⟨l, l', hl, rfl, hstep⟩ := h.cut hlog
    obtain ⟨s, fs, hlive, hinv⟩ := hl.rootInv
    cases hstep with
    | accept hcall =>
      obtain ⟨t, s', hacc, -, -⟩ := hlive.accept hcall
      rw [← hinv.realm, hacc.created_iff hinv, hacc.shows.hasType_iff hacc.type, eq_comm]
    | foreign hf => rw [IsRealmEvent, hf.1] at hrealm; cases hrealm
  active := by
    rintro pre post hlog ⟨e, he, hrealm⟩
    obtain ⟨l, hl, rfl⟩ := h.of_prefix hlog
    obtain ⟨s, fs, hlive, hinv⟩ := hl.rootInv
    have hfs : fs ≠ [] := fun hnil => hinv.realm.mp hnil e he hrealm
    obtain ⟨root, hroot, hactive, -⟩ := hinv.established hfs
    exact ⟨s, root, hlive.build, hroot, hactive⟩
  live := by
    obtain ⟨s, fs, hlive⟩ := h.live
    exact ⟨s, hlive.state, hlive.build⟩
  signed := root_succession_signed h
  retired := by
    intro pre mid post rotation event t name hlog hrotation ht htype hfresh hsigner
    obtain ⟨signer, id, ref, hs, hest, hnamed⟩ := root_succession_signed h hlog ht htype
    rw [hsigner] at hs
    cases hs
    have hne : rootNames rotation ≠ none := by
      unfold rootNames
      split <;> simp
    obtain ⟨e, he, names, hnames, hest'⟩ := establishedRoot_append pre mid hne
    cases hest.symm.trans hest'
    obtain ⟨hid, href⟩ := hfresh e he _ hnames
    rcases hnamed with hn | hn
    · exact hid hn
    · exact href hn

/-- Alice's realm, after the five events of its script. -/
theorem root_succession_alice :
    (aliceLedger (scriptHost aliceScript [] (by decide))).event_log.length = 5
    ∧ LinearSuccession (scriptHost aliceScript [] (by decide))
        (aliceLedger (scriptHost aliceScript [] (by decide))) :=
  ⟨by decide +kernel, root_succession_linear (reachable_alice _)⟩

end SimpleL1.Realm
