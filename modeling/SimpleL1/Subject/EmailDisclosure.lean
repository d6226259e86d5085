import SimpleL1.Subject.ClaimLineage
import SimpleL1.Subject.EmailClaims
import Mathlib.Data.List.Induction

/-!
# What an email disclosure rests on

Every claim the replay holds was made by an accepted event, and an active one has been
named by no accepted supersession or revocation. A disclosure therefore rests on a live
claim. It is the claim of the subject that was asked for unless none was, and the hash
that leaves is the claim's unless its stored address hashes to another one.
-/

namespace SimpleL1.Subject.ClaimHistory

open SimpleL1.Js SimpleL1.Lib

/-! ## Live claims of a history -/

/-- An accepted event of the history makes the claim. -/
def Made (history : List Json) (claim : Claim) : Prop :=
  ∃ pre event post s, history = pre ++ event :: post ∧ pre.foldlM applyEvent .empty = .ok s ∧
    (Accepts s event .issued ∨ ∃ t, Targets s event .superseded "supersedes" t) ∧
    createActiveClaimFromEvent event = .ok claim

/-- An accepted event of the history supersedes or revokes the claim. -/
def Ended (history : List Json) (id : String) : Prop :=
  ∃ pre event post s, history = pre ++ event :: post ∧ pre.foldlM applyEvent .empty = .ok s ∧
    (Targets s event .superseded "supersedes" id ∨ Targets s event .revoked "revokes" id)

/-- What no later event changes of a claim. -/
structure Claim.Keeps (c d : Claim) : Prop where
  claim_id : d.claim_id = c.claim_id
  subject : d.subject = c.subject
  claim_type : d.claim_type = c.claim_type
  value_hash : d.value_hash = c.value_hash
  disclosure_value : d.disclosure_value = c.disclosure_value

theorem Claim.Keeps.refl (c : Claim) : c.Keeps c := ⟨rfl, rfl, rfl, rfl, rfl⟩

theorem Claim.Keeps.trans {a b c : Claim} (h : a.Keeps b) (h' : b.Keeps c) : a.Keeps c :=
  ⟨h'.claim_id.trans h.claim_id, h'.subject.trans h.subject, h'.claim_type.trans h.claim_type,
    h'.value_hash.trans h.value_hash, h'.disclosure_value.trans h.disclosure_value⟩

variable {s s' : State} {event : Json} {history : List Json} {id t : String} {claim : Claim}

/-- A claim after the event is one from before, or the event's own. -/
theorem Effect.origin (heffect : Effect s s' event) (hfind : s'.claims.find id = some claim) :
    (∃ old, s.claims.find id = some old ∧ old.Keeps claim ∧ (claim.status = .active → old.status = .active)) ∨
      (claim.claim_id = id ∧ NewClaim s s' event claim ∧
        (Accepts s event .issued ∨ ∃ t, Targets s event .superseded "supersedes" t)) := by
  have hsame : s.claims.find id = some claim → ∃ old, s.claims.find id = some old ∧ old.Keeps claim ∧
      (claim.status = .active → old.status = .active) := fun h => ⟨claim, h, .refl claim, fun h => h⟩
  cases heffect with
  | none h =>
    rw [h] at hfind
    exact .inl (hsame hfind)
  | issued made hnew haccepts h =>
    rw [h, OrderedMap.find_insert] at hfind
    split at hfind
    · rename_i hid
      cases hfind
      exact .inr ⟨hid, hnew, .inl haccepts⟩
    · exact .inl (hsame hfind)
  | superseded made t target hnew htargets hid htarget h =>
    rw [h, OrderedMap.find_insert, OrderedMap.find_insert] at hfind
    split at hfind
    · rename_i hid
      cases hfind
      exact .inr ⟨hid, hnew, .inr ⟨t, htargets⟩⟩
    · split at hfind
      · rename_i heq
        cases hfind
        subst heq
        exact .inl ⟨target, htarget, ⟨rfl, rfl, rfl, rfl, rfl⟩, fun h => by cases h⟩
      · exact .inl (hsame hfind)
  | revoked t target eventId htargets htarget h =>
    rw [h, OrderedMap.find_insert] at hfind
    split at hfind
    · rename_i heq
      cases hfind
      subst heq
      exact .inl ⟨target, htarget, ⟨rfl, rfl, rfl, rfl, rfl⟩, fun h => by cases h⟩
    · exact .inl (hsame hfind)

theorem not_issued_of_superseded (h : isOfType event .superseded = true) :
    isOfType event .issued = false := by
  unfold isOfType at h ⊢
  rw [strictEq_str_iff.mp h]
  decide

/-- A supersession that is accepted makes its target superseded. -/
theorem superseded_of_targets (hstored : ∀ id claim, s.claims.find id = some claim → id ∈ s.seenEventIds)
    (htargets : Targets s event .superseded "supersedes" t) (hstep : applyEvent s event = .ok s') :
    HasStatus s'.claims .superseded t := by
  obtain ⟨codes, hvalid, hrest⟩ := bind_eq_ok.mp hstep
  obtain ⟨eventId, hid, hresult⟩ := bind_eq_ok.mp hrest
  rw [htargets.valid] at hvalid
  cases hvalid
  have hfresh := htargets.fresh eventId hid
  have hnew : ¬ (eventId ≠ "" ∧ eventId ∈ s.seenEventIds) := fun hdup => hfresh hdup.2
  dsimp only at hresult
  rw [if_neg hnew, if_pos rfl, if_neg (ne_empty_of_valid htargets.valid hid)] at hresult
  unfold applyAccepted at hresult
  rw [if_neg (by simp [not_issued_of_superseded htargets.type]), if_pos htargets.type] at hresult
  obtain ⟨found, hfound, hset⟩ := bind_eq_ok.mp hresult
  obtain ⟨target, htarget⟩ := htargets.target
  rw [htarget] at hfound
  cases hfound
  obtain ⟨made, -, hset⟩ := bind_eq_ok.mp hset
  cases hset
  have hne : eventId ≠ t := by
    rintro rfl
    exact hfresh (hstored _ _ (findTarget_eq_some htarget).2)
  refine hasStatus_insert.mpr ?_
  rw [if_neg hne]
  exact hasStatus_insert.mpr (by rw [if_pos rfl]; rfl)

/-! ## The invariant of the replay -/

/-- What the replay holds after the history. -/
structure Traced (history : List Json) (s : State) : Prop where
  run : history.foldlM applyEvent .empty = .ok s
  stored : ∀ id claim, s.claims.find id = some claim → id ∈ s.seenEventIds
  made : ∀ id claim, s.claims.find id = some claim → ∃ c, Made history c ∧ c.claim_id = id ∧ c.Keeps claim
  live : ∀ id claim, s.claims.find id = some claim → claim.status = .active → ¬ Ended history id
  named : ∀ id, Ended history id → id ∈ s.seenEventIds

theorem traced_empty : Traced [] .empty where
  run := rfl
  stored := fun _ _ h => nomatch h
  made := fun _ _ h => nomatch h
  live := fun _ _ h => nomatch h
  named := by
    rintro id ⟨pre, event, post, s, h, -⟩
    cases pre <;> cases h

theorem Made.snoc (h : Made history claim) : Made (history ++ [event]) claim := by
  obtain ⟨pre, e, post, s, rfl, hrest⟩ := h
  exact ⟨pre, e, post ++ [event], s, by simp, hrest⟩

theorem ended_snoc (hrun : history.foldlM applyEvent .empty = .ok s) :
    Ended (history ++ [event]) id ↔ Ended history id ∨
      Targets s event .superseded "supersedes" id ∨ Targets s event .revoked "revokes" id := by
  constructor
  · rintro ⟨pre, e, post, s₀, hsplit, hpre, htargets⟩
    rcases List.eq_nil_or_concat post with rfl | ⟨post, last, rfl⟩
    · obtain ⟨rfl, he⟩ := List.append_inj' hsplit rfl
      cases he
      cases hrun.symm.trans hpre
      exact .inr htargets
    · rw [List.concat_eq_append, ← List.cons_append, ← List.append_assoc] at hsplit
      obtain ⟨rfl, -⟩ := List.append_inj' hsplit rfl
      exact .inl ⟨pre, e, post, s₀, rfl, hpre, htargets⟩
  · rintro (⟨pre, e, post, s₀, rfl, hrest⟩ | htargets)
    · exact ⟨pre, e, post ++ [event], s₀, by simp, hrest⟩
    · exact ⟨history, event, [], s, rfl, hrun, htargets⟩

/-- A target is a stored claim. -/
theorem stored_of_targets {type : ClaimEventType} {k : String} (htargets : Targets s event type k t) :
    ∃ target, s.claims.find t = some target := by
  obtain ⟨target, htarget⟩ := htargets.target
  exact ⟨target, (findTarget_eq_some htarget).2⟩

theorem Traced.step (h : Traced history s) (hstep : applyEvent s event = .ok s') :
    Traced (history ++ [event]) s' := by
  obtain ⟨hsub, heffect⟩ := applyEvent_effect hstep
  refine ⟨?_, fun id claim hfind => ?_, fun id claim hfind => ?_, fun id claim hfind hactive => ?_, fun id hid => ?_⟩
  · rw [List.foldlM_append, h.run]
    show applyEvent s event >>= _ = _
    rw [hstep]
    rfl
  · rcases heffect.origin hfind with ⟨old, hold, -⟩ | ⟨rfl, hnew, -⟩
    · exact hsub (h.stored id old hold)
    · exact hnew.seen
  · rcases heffect.origin hfind with ⟨old, hold, hkeeps, -⟩ | ⟨rfl, hnew, hby⟩
    · obtain ⟨c, hmade, hid, hc⟩ := h.made id old hold
      exact ⟨c, hmade.snoc, hid, hc.trans hkeeps⟩
    · exact ⟨claim, ⟨history, event, [], s, rfl, h.run, hby, hnew.created⟩, rfl, .refl claim⟩
  · rw [ended_snoc h.run]
    rintro (hid | htargets | htargets)
    · -- Named before it was stored, its id would not have been new.
      rcases heffect.origin hfind with ⟨old, hold, -, hwas⟩ | ⟨rfl, hnew, -⟩
      · exact h.live id old hold (hwas hactive) hid
      · exact hnew.fresh (h.named _ hid)
    · obtain ⟨claim', hfind', hstatus⟩ := superseded_of_targets h.stored htargets hstep
      cases hfind.symm.trans hfind'
      cases hactive.symm.trans hstatus
    · obtain ⟨claim', hfind', hstatus⟩ := revoked_of_targets htargets hstep
      cases hfind.symm.trans hfind'
      cases hactive.symm.trans hstatus
  · rcases (ended_snoc h.run).mp hid with hid | htargets | htargets
    · exact hsub (h.named id hid)
    · obtain ⟨target, htarget⟩ := stored_of_targets htargets
      exact hsub (h.stored id target htarget)
    · obtain ⟨target, htarget⟩ := stored_of_targets htargets
      exact hsub (h.stored id target htarget)

theorem traced_of_run (hrun : history.foldlM applyEvent .empty = .ok s) : Traced history s := by
  induction history using List.reverseRecOn generalizing s with
  | nil =>
    cases hrun
    exact traced_empty
  | append_singleton history event ih =>
    rw [List.foldlM_append] at hrun
    obtain ⟨s₀, hprefix, hlast⟩ := bind_eq_ok.mp hrun
    obtain ⟨s₁, hstep, hlast⟩ := bind_eq_ok.mp hlast
    cases hlast
    exact (ih hprefix).step hstep

/-! ## The claim behind a disclosure -/

/-- An address claim of the subject that an accepted event made and none has ended. -/
structure LiveEmailClaim (history : List Json) (subject : String) (claim : Claim) : Prop where
  made : Made history claim
  claim_type : claim.claim_type = "controls_email"
  subject : claim.subject = subject
  live : ¬ Ended history claim.claim_id

/-- An address or a hash leaves only under a scope that asks for it and with a live claim of
the subject, whose hash it carries. -/
def Justified (p : Node.Platform) (claimHistory subject scope : Option Json) : Prop :=
  ∀ d, emailDisclosureFromClaimHistory p claimHistory subject scope = .ok d →
    d.email ≠ none ∨ d.email_hash ≠ none →
    scopeIncludesEmail p scope = .ok true ∧
      ∃ subj claim, normalizeString subject = .ok subj ∧
        LiveEmailClaim (historyOf claimHistory) subj claim ∧ d.email_hash = some claim.value_hash ∧
        ∀ email, d.email = some email → hashEmail p (some (.str email)) = .ok d.email_hash

theorem valid_of_made (h : Made history claim) :
    claim.subject ≠ "" ∧ isClaimValueHash claim.value_hash = true := by
  obtain ⟨pre, event, post, s, -, -, hby, hcreate⟩ := h
  have htype : normalizeString (event.prop "event_type") = .ok ClaimEventType.issued.name ∨
      normalizeString (event.prop "event_type") = .ok ClaimEventType.superseded.name := by
    rcases hby with haccepts | ⟨t, htargets⟩
    · exact .inl (by rw [strictEq_str_iff.mp haccepts.type]; rfl)
    · exact .inr (by rw [strictEq_str_iff.mp htargets.type]; rfl)
  have hvalid : validateClaimEvent event = .ok [] := by
    rcases hby with haccepts | ⟨t, htargets⟩
    · exact haccepts.valid
    · exact htargets.valid
  obtain ⟨_, -, hcreate⟩ := bind_eq_ok.mp hcreate
  obtain ⟨subject, hsubject, hcreate⟩ := bind_eq_ok.mp hcreate
  obtain ⟨_, -, hcreate⟩ := bind_eq_ok.mp hcreate
  obtain ⟨valueHash, hhash, hcreate⟩ := bind_eq_ok.mp hcreate
  obtain ⟨_, -, hcreate⟩ := bind_eq_ok.mp hcreate
  obtain ⟨_, -, hcreate⟩ := bind_eq_ok.mp hcreate
  cases hcreate
  obtain ⟨event_type, hevent, hvalid⟩ := bind_eq_ok.mp hvalid
  obtain ⟨-, rfl⟩ := Node.member_eq_ok.mp hevent
  obtain ⟨eventType, htype', hvalid⟩ := bind_eq_ok.mp hvalid
  obtain ⟨_, -, hvalid⟩ := bind_eq_ok.mp hvalid
  obtain ⟨_, hsubject', hvalid⟩ := bind_eq_ok.mp hvalid
  obtain ⟨_, -, hvalid⟩ := bind_eq_ok.mp hvalid
  obtain ⟨_, hhash', hvalid⟩ := bind_eq_ok.mp hvalid
  obtain ⟨_, -, hvalid⟩ := bind_eq_ok.mp hvalid
  obtain ⟨_, -, hvalid⟩ := bind_eq_ok.mp hvalid
  cases hsubject.symm.trans hsubject'
  cases hhash.symm.trans hhash'
  have hcodes := Except.ok.inj hvalid
  rcases htype with htype | htype <;>
  · cases htype.symm.trans htype'
    simp at hcodes
    exact ⟨hcodes.2.1, hcodes.2.2.2.1⟩

/-! ## What is disclosed -/

variable {p : Node.Platform} {claimHistory subject scope : Option Json} {projection : Projection}
  {c : PublicClaim} {d : EmailDisclosure} {e : Option String}

/-- The first active claim comes from a live one, of the subject where one is asked for. -/
theorem live_of_active (hprojection : emailProjection claimHistory subject = .ok projection)
    (hc : activeClaimForType projection "controls_email" = some c) :
    ∃ subj claim, normalizeString subject = .ok subj ∧ (subj = "" ∨ claim.subject = subj) ∧
      LiveEmailClaim (historyOf claimHistory) claim.subject claim ∧ claim.value_hash = c.value_hash := by
  obtain ⟨s, hrun, h⟩ := bind_eq_ok.mp hprojection
  obtain ⟨subject', hmember, h⟩ := bind_eq_ok.mp h
  obtain ⟨-, rfl⟩ := Node.member_eq_ok.mp hmember
  obtain ⟨subj, hsubj, h⟩ := bind_eq_ok.mp h
  obtain ⟨claimType, hclaimType, h⟩ := bind_eq_ok.mp h
  cases h
  have hfilter : claimType = "controls_email" := by
    cases subject with
    | none => cases hclaimType; rfl
    | some v => cases hclaimType; rfl
  have hsubject : normalizeString subject = .ok subj := by
    cases subject with
    | none => exact hsubj
    | some v => exact hsubj
  unfold activeClaimForType at hc
  obtain ⟨claim, hclaim, hpublic⟩ := List.mem_map.mp (List.mem_of_find?_eq_some hc)
  obtain ⟨hlisted, hactive⟩ := List.mem_filter.mp hclaim
  obtain ⟨hentry, hmatches⟩ := List.mem_filter.mp hlisted
  obtain ⟨⟨id, claim⟩, hfind, rfl⟩ := List.mem_map.mp hentry
  have htraced := traced_of_run hrun
  have hstored := OrderedMap.find_eq_some.mpr hfind
  obtain ⟨made, hmade, hid, hkeeps⟩ := htraced.made id claim hstored
  unfold matchesFilters at hmatches
  simp only [hfilter, Bool.and_eq_true, Bool.or_eq_true, decide_eq_true_eq] at hmatches
  refine ⟨subj, made, hsubject, ?_, ⟨hmade, ?_, rfl, ?_⟩, ?_⟩
  · rw [← hkeeps.subject]
    exact hmatches.1
  · rw [← hkeeps.claim_type]
    exact hmatches.2.resolve_left (by decide)
  · rw [hid]
    exact htraced.live id claim hstored (of_decide_eq_true hactive)
  · rw [← hpublic, ← hkeeps.value_hash]
    rfl

theorem value_hash_ne_empty (hprojection : emailProjection claimHistory subject = .ok projection)
    (hc : activeClaimForType projection "controls_email" = some c) : c.value_hash ≠ "" := by
  obtain ⟨_, claim, -, -, hlive, hsame⟩ := live_of_active hprojection hc
  rw [← hsame]
  intro hempty
  exact absurd (valid_of_made hlive.made).2 (by rw [hempty]; decide)

/-- The call, once the first active claim is found and its address read. -/
theorem emailDisclosure_eq (hprojection : emailProjection claimHistory subject = .ok projection)
    (hc : activeClaimForType projection "controls_email" = some c)
    (he : normalizeEmail p c.disclosure_value = .ok e) :
    emailDisclosureFromClaimHistory p claimHistory subject scope =
      (buildConsentedEmailClaims p (e.map Json.str) scope (some (.str c.value_hash))).map
        fun consented => ⟨consented.email, consented.email_hash, projection⟩ := by
  unfold emailDisclosureFromClaimHistory
  simp only [hprojection, ok_bind, hc]
  show (normalizeEmail p c.disclosure_value >>= _ : JsM _) = _
  rw [he]
  show (if c.value_hash ≠ "" then _ else _ : JsM _) = _
  rw [if_pos (value_hash_ne_empty hprojection hc)]
  show (buildConsentedEmailClaims p (e.map Json.str) scope (some (.str c.value_hash)) >>= _ : JsM _) = _
  cases buildConsentedEmailClaims p (e.map Json.str) scope (some (.str c.value_hash)) <;> rfl

/-- What leaves under a scope that asks for it. -/
theorem emailDisclosure_asked (hprojection : emailProjection claimHistory subject = .ok projection)
    (hc : activeClaimForType projection "controls_email" = some c)
    (he : normalizeEmail p c.disclosure_value = .ok e) (hasked : scopeIncludesEmail p scope = .ok true) :
    emailDisclosureFromClaimHistory p claimHistory subject scope =
      .ok ⟨e, some ((e.map fun n => EMAIL_HASH_PREFIX ++ p.sha256 n).getD c.value_hash), projection⟩ := by
  rw [emailDisclosure_eq hprojection hc he, buildConsentedEmailClaims_asked hasked
    (fun n hn => normalizeEmail_eq_some (hn ▸ he)) (value_hash_ne_empty hprojection hc)]
  rfl

/-- Where anything leaves, an active claim was found and the scope asks for it. -/
theorem asked_of_disclosed (h : emailDisclosureFromClaimHistory p claimHistory subject scope = .ok d)
    (hleaves : d.email ≠ none ∨ d.email_hash ≠ none) :
    ∃ projection c e, emailProjection claimHistory subject = .ok projection ∧
      activeClaimForType projection "controls_email" = some c ∧
      normalizeEmail p c.disclosure_value = .ok e ∧ scopeIncludesEmail p scope = .ok true := by
  obtain ⟨projection, hprojection, hrest⟩ := bind_eq_ok.mp h
  cases hc : activeClaimForType projection "controls_email" with
  | none =>
    rw [hc] at hrest
    cases hrest
    simp at hleaves
  | some c =>
    rw [hc] at hrest
    obtain ⟨e, he, -⟩ := bind_eq_ok.mp hrest
    refine ⟨projection, c, e, hprojection, hc, he, ?_⟩
    rw [emailDisclosure_eq hprojection hc he] at h
    cases hscope : scopeIncludesEmail p scope with
    | error err =>
      unfold buildConsentedEmailClaims at h
      rw [hscope] at h
      cases h
    | ok asked =>
      cases asked with
      | true => rfl
      | false =>
        rw [buildConsentedEmailClaims_unasked hscope] at h
        cases h
        simp at hleaves

/-- The subject is named, and the stored address, where it is one, has the hash of a live
claim of the subject. -/
def Faithful (p : Node.Platform) (claimHistory subject scope : Option Json) : Prop :=
  ∀ projection c e, emailProjection claimHistory subject = .ok projection →
    activeClaimForType projection "controls_email" = some c →
    normalizeEmail p c.disclosure_value = .ok e → scopeIncludesEmail p scope = .ok true →
    ∃ subj, normalizeString subject = .ok subj ∧ subj ≠ "" ∧
      ∀ n, e = some n → ∃ claim, LiveEmailClaim (historyOf claimHistory) subj claim ∧
        claim.value_hash = EMAIL_HASH_PREFIX ++ p.sha256 n

theorem justified_of_faithful (h : Faithful p claimHistory subject scope) :
    Justified p claimHistory subject scope := by
  intro d hd hleaves
  obtain ⟨projection, c, e, hprojection, hc, he, hasked⟩ := asked_of_disclosed hd hleaves
  obtain ⟨subj, hsubj, hne, hsame⟩ := h projection c e hprojection hc he hasked
  cases hd.symm.trans (emailDisclosure_asked hprojection hc he hasked)
  refine ⟨hasked, ?_⟩
  cases e with
  | none =>
    obtain ⟨subj', claim, hsubj', hof, hlive, hvalue⟩ := live_of_active hprojection hc
    cases hsubj.symm.trans hsubj'
    exact ⟨subj, claim, hsubj, hof.resolve_left hne ▸ hlive, by rw [hvalue]; rfl, fun _ h => nomatch h⟩
  | some n =>
    obtain ⟨claim, hlive, hvalue⟩ := hsame n rfl
    refine ⟨subj, claim, hsubj, hlive, by rw [hvalue]; rfl, ?_⟩
    rintro _ ⟨⟩
    exact (normalizeEmail_eq_some he).hashEmail_eq

theorem faithful_of_justified (h : Justified p claimHistory subject scope) :
    Faithful p claimHistory subject scope := by
  intro projection c e hprojection hc he hasked
  obtain ⟨-, subj, claim, hsubj, hlive, hvalue, -⟩ :=
    h _ (emailDisclosure_asked hprojection hc he hasked) (.inr nofun)
  refine ⟨subj, hsubj, ?_, ?_⟩
  · rw [← hlive.subject]
    exact (valid_of_made hlive.made).1
  · rintro n rfl
    exact ⟨claim, hlive, (Option.some.inj hvalue).symm⟩

/-- A disclosure is justified just when the address it is taken from is faithful. -/
theorem justified_iff (p : Node.Platform) (claimHistory subject scope : Option Json) :
    Justified p claimHistory subject scope ↔ Faithful p claimHistory subject scope :=
  ⟨faithful_of_justified, justified_of_faithful⟩

section Example

theorem noonText_ne_empty (_ : Int) : "2026-06-26T12:00:00.000Z" ≠ "" := by decide

def plainPlatform : Node.Platform where
  toHost := .ofTable [] [] Realm.Host.no_digests
  lower s := s
  upper s := s
  nfc s := s
  parseDate _ := .nan
  isoDate _ := "2026-06-26T12:00:00.000Z"
  lower_lower := Eq.refl
  isoDate_ne_empty := noonText_ne_empty

/-- An address whose hash the claim does not carry. -/
def mislabelled : Json :=
  .arr [claimEvent .issued "a" [("disclosure_value", .str "alice@example.org")]]

/-- The hash that leaves is not the claim's. -/
theorem mislabelled_disclosed : ¬ ∀ p claimHistory subject scope,
    Justified p claimHistory subject scope := by
  intro h
  obtain ⟨-, subj, claim, -, hlive, hhash, -⟩ := h plainPlatform (some mislabelled)
    (some (.str "alice")) (some (.str "openid email")) _ rfl (.inr nofun)
  have hvalid := (valid_of_made hlive.made).2
  rw [← Option.some.inj hhash] at hvalid
  exact absurd hvalid (by decide)

end Example

end SimpleL1.Subject.ClaimHistory
