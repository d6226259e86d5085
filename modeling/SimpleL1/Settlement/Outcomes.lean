import SimpleL1.Settlement.Voting

/-!
# Outcomes follow the votes

A proposal whose change cannot be applied is left ratified when its last vote is
cast, neither enacted nor rejected, and a proposal whose derived id is in use
takes the place of another. In a run without such calls every proposal on which
all have voted is decided, and decided for good.
-/

namespace SimpleL1.Settlement.GovernanceEngine

open SimpleL1.Js SimpleL1.Lib SimpleL1.Lib.Effect

variable {e : GovernanceEngine} {w w' : World} {p q r : Proposal} {m : Moment} {id id' : String}

/-- The validators that have not voted on the proposal. -/
def outstanding (e : GovernanceEngine) (p : Proposal) : List String := Ballot.missing e.electorate p.votes

/-- A new proposal takes no other's id. A last vote that ratifies is on a change that can be made. -/
def Meets (e : GovernanceEngine) (w : World) : Call → Prop
  | .propose input m => ∀ p, e.newProposal w input m = .ok p → w.proposal? p.proposal_id = none
  | .vote id validator_id decision _ _ => Decision.ofName decision = some .ACCEPT →
      ∀ p, w.proposal? id = some p → p.state = .VOTING → e.outstanding p = [validator_id] →
        p.votes_accepted + 1 = p.required_votes → w.Enactable p
  | .collectLocalVotes id _ => ∀ p, w.proposal? id = some p → p.state = .VOTING →
      evaluateProposalMerit p = .ACCEPT →
        p.votes_accepted + (e.outstanding p).length = p.required_votes → w.Enactable p
  | .veto .. => True

def EveryMeets (e : GovernanceEngine) : World → List Call → Prop
  | _, [] => True
  | w, c :: calls => e.Meets w c ∧ e.EveryMeets (e.step w c) calls

theorem everyMeets_append {calls calls' : List Call} :
    e.EveryMeets w (calls ++ calls') ↔ e.EveryMeets w calls ∧ e.EveryMeets (calls.foldl e.step w) calls' := by
  induction calls generalizing w with
  | nil => exact ⟨fun h => ⟨trivial, h⟩, fun h => h.2⟩
  | cons c calls ih =>
    show e.Meets w c ∧ e.EveryMeets (e.step w c) (calls ++ calls') ↔ (_ ∧ _) ∧ _
    rw [ih, and_assoc]
    rfl

/-! ## Nobody waits for an outcome -/

/-- A ratified proposal that is not enacted has votes outstanding. -/
def Sound (e : GovernanceEngine) (w : World) : Prop :=
  AllTallied e w ∧ ∀ id p, w.proposal? id = some p → p.state = .RATIFIED → e.outstanding p ≠ []

theorem Sound.of_insert (h : Sound e w) (hq : Tallied e id q)
    (hstate : q.state = .RATIFIED → e.outstanding q ≠ [])
    (hw' : ∀ id', w'.proposal? id' = if id = id' then some q else w.proposal? id') : Sound e w' := by
  refine ⟨h.1.of_insert hq hw', fun id' p hp => ?_⟩
  rw [hw'] at hp
  split at hp
  · cases hp; exact hstate
  · exact h.2 id' p hp

/-- A vote that is taken is one of those outstanding. -/
theorem length_outstanding_cast {validator_id decision : String} {v : Vote} (hids : e.electorate.Nodup)
    (h : Tallied e id p) (hadmits : Admits e w id validator_id decision p v) :
    (Ballot.missing e.electorate (cast p validator_id v).votes).length + 1 = (e.outstanding p).length := by
  rw [cast_votes]
  exact Ballot.length_missing_insert hids h.ballot hadmits.registered hadmits.absent

theorem votes_of_settled (h : Settled w p q) : q.votes = p.votes := by rw [h.same]

/-- Only the required number of votes leaves a proposal ratified, and only if it cannot be enacted. -/
theorem Settled.of_ratified (h : Settled w p q) (hvoting : p.state = .VOTING) (hs : q.state = .RATIFIED) :
    p.required_votes ≤ p.votes_accepted ∧ ¬ w.Enactable p := by
  have hstate := h.state
  by_cases hle : p.required_votes ≤ p.votes_accepted
  · rw [if_pos hle, hs] at hstate
    exact ⟨hle, (hstate.resolve_left nofun).2⟩
  · rw [if_neg hle, hs, hvoting] at hstate
    split at hstate <;> cases hstate

theorem sound_vote {validator_id decision : String} {rationale : Json} (hids : e.electorate.Nodup)
    (h : Sound e w) (hmeets : e.Meets w (.vote id validator_id decision rationale m)) :
    Sound e (after (e.vote id validator_id decision rationale m) w) := by
  rcases vote_effect h.1.named with heq | ⟨p, v, q, hadmits, hleaves, hid⟩
  · rwa [heq]
  have htallied := h.1 id p hadmits.kept
  refine h.of_insert (tallied_settled htallied hadmits hleaves.settled) (fun hratified hnone => ?_) fun id' => ?_
  · have hlast := length_outstanding_cast hids htallied hadmits
    unfold outstanding at hnone
    rw [votes_of_settled hleaves.settled] at hnone
    rw [hnone, List.length_nil] at hlast
    have hmem : validator_id ∈ e.outstanding p := by
      unfold outstanding Ballot.missing
      rw [List.mem_filter, hadmits.absent]
      exact ⟨hadmits.registered, rfl⟩
    obtain ⟨k, hk⟩ := List.length_eq_one_iff.mp hlast.symm
    rw [hk, List.mem_singleton] at hmem
    subst hmem
    have hopen := htallied.state
    unfold Proposal.StateAgrees at hopen
    rw [hadmits.voting] at hopen
    have hvoting : (cast p validator_id v).state = .VOTING := cast_state.trans hadmits.voting
    obtain ⟨hle, hno⟩ := hleaves.settled.of_ratified hvoting hratified
    rw [cast_required_votes, cast_votes_accepted] at hle
    rw [enactable_cast] at hno
    have hlt : p.votes_accepted < p.required_votes := hopen.1
    split at hle
    · next haccept =>
      exact hno (hmeets (haccept ▸ hadmits.decision) p hadmits.kept hadmits.voting hk (by omega))
    · omega
  · rw [hleaves.proposals, hid]

/-- Enough votes are outstanding to ratify the proposal, and not one more, only if its change can be
made. -/
def Prepared (e : GovernanceEngine) (id : String) (d : Decision) (w : World) : Prop :=
  d = .ACCEPT → ∀ p, w.proposal? id = some p → p.state = .VOTING →
    p.votes_accepted + (e.outstanding p).length = p.required_votes → w.Enactable p

theorem ofName_name (d : Decision) : Decision.ofName d.name = some d := by cases d <;> decide

theorem Prepared.meets {validator_id : String} {d : Decision} {rationale : Json} (h : Prepared e id d w) :
    e.Meets w (.vote id validator_id d.name rationale m) := by
  intro hd p hp hvoting hlast hrequired
  rw [ofName_name] at hd
  refine h (Option.some.inj hd) p hp hvoting ?_
  rw [hlast]
  exact hrequired

theorem prepared_vote {validator_id : String} {d : Decision} {rationale : Json} (hids : e.electorate.Nodup)
    (h : Sound e w) (hprep : Prepared e id d w) :
    Prepared e id d (after (e.vote id validator_id d.name rationale m) w) := by
  rcases vote_effect h.1.named with heq | ⟨p, v, q, hadmits, hleaves, hid⟩
  · rwa [heq]
  intro hd r hr hvoting hsum
  rw [hleaves.proposals, if_pos hid] at hr
  cases hr
  have hlast := length_outstanding_cast hids (h.1 id p hadmits.kept) hadmits
  have hdecision : v.decision = .ACCEPT := by
    have := hadmits.decision
    rw [ofName_name] at this
    exact hd ▸ (Option.some.inj this).symm
  have hacc : q.votes_accepted = p.votes_accepted + 1 := by
    rw [hleaves.settled.same, cast_votes_accepted, if_pos hdecision]
  have hreq : q.required_votes = p.required_votes := by
    rw [hleaves.settled.same]
    exact cast_required_votes
  have hout : (e.outstanding q).length + 1 = (e.outstanding p).length := by
    unfold outstanding
    rw [votes_of_settled hleaves.settled]
    exact hlast
  have henactable : w.Enactable (cast p validator_id v) := by
    refine enactable_cast.mpr (hprep hd p hadmits.kept hadmits.voting ?_)
    omega
  have hfile := hleaves.file.resolve_left (by rw [hvoting]; exact nofun)
  unfold World.Enactable at henactable ⊢
  rw [hfile, hleaves.settled.same]
  exact henactable

theorem sound_step (hids : e.electorate.Nodup) (hsome : e.electorate ≠ []) (c : Call) (h : Sound e w)
    (hmeets : e.Meets w c) : Sound e (e.step w c) := by
  cases c with
  | propose input m =>
    show Sound e (after (e.propose input m) w)
    rw [after_propose]
    split
    · next p hp =>
      obtain ⟨htallied, hvoting, -⟩ := newProposal_eq_ok hsome hp
      refine h.of_insert htallied (fun hs => ?_) fun _ => World.proposal?_setProposal
      rw [hvoting] at hs
      cases hs
    · exact h
  | vote id validator_id decision rationale m => exact sound_vote hids h hmeets
  | collectLocalVotes id ms =>
    show Sound e (after (e.collectLocalVotes id ms) w)
    rw [after_collectLocalVotes]
    split
    · exact h
    · next p hp =>
      have hprep : Prepared e id (evaluateProposalMerit p) w := by
        intro hd p' hp' hvoting hsum
        cases hp.symm.trans hp'
        exact hmeets p hp hvoting hd hsum
      have hrule : Sound e (after (e.collectVotes id (evaluateProposalMerit p)
          e.attestationEngine.validators ms) w) ∧ _ := collectVotes_rule
        (I := fun w => Sound e w ∧ Prepared e id (evaluateProposalMerit p) w)
        (fun w k m hw => ⟨sound_vote hids hw.1 hw.2.meets, prepared_vote hids hw.1 hw.2⟩)
        e.attestationEngine.validators ms ⟨h, hprep⟩
      exact hrule.1
  | veto id reason m =>
    show Sound e (after (e.veto id reason m) w)
    rw [after_veto]
    split
    · exact h
    · next p hp =>
      split
      · exact h
      · exact h.of_insert (tallied_vetoed (h.1 id p hp) _) nofun fun _ => World.proposal?_setProposal

theorem sound_run (hids : e.electorate.Nodup) (hsome : e.electorate ≠ []) {calls : List Call} (h : Sound e w)
    (hmeets : e.EveryMeets w calls) : Sound e (calls.foldl e.step w) := by
  induction calls generalizing w with
  | nil => exact h
  | cons c calls ih => exact ih (sound_step hids hsome c h hmeets.1) hmeets.2

/-! ## What the later states of a proposal keep -/

/-- The proposal `q` is a later state of `p`: votes are added while it is open, and what is closed
stays as it is or is vetoed. -/
structure Later (p q : Proposal) : Prop where
  kept : ∀ k v, Assoc.find k p.votes = some v → Assoc.find k q.votes = some v
  added : ∀ k v, Assoc.find k q.votes = some v →
    Assoc.find k p.votes = some v ∨ p.state = .VOTING ∧ Assoc.find k p.votes = none
  closed : p.state ≠ .VOTING → q.state = p.state ∨ p.state ≠ .ENACTED ∧ q.state = .VETOED

theorem Later.refl (p : Proposal) : Later p p := ⟨fun _ _ h => h, fun _ _ h => .inl h, fun _ => .inl rfl⟩

theorem Later.trans (h : Later p q) (h' : Later q r) : Later p r := by
  refine ⟨fun k v hk => h'.kept k v (h.kept k v hk), fun k v hk => ?_, fun hp => ?_⟩
  · rcases h'.added k v hk with hq | ⟨hvoting, hnone⟩
    · exact h.added k v hq
    · refine .inr ⟨?_, ?_⟩
      · by_contra hp
        rcases h.closed hp with heq | ⟨-, hveto⟩
        · exact hp (heq ▸ hvoting)
        · rw [hveto] at hvoting
          cases hvoting
      · cases hk' : Assoc.find k p.votes with
        | none => rfl
        | some x =>
          rw [h.kept k x hk'] at hnone
          cases hnone
  · rcases h.closed hp with heq | ⟨hne, hveto⟩
    · rw [← heq] at hp ⊢
      exact h'.closed hp
    · rcases h'.closed (by rw [hveto]; exact nofun) with heq | ⟨-, hveto'⟩
      · exact .inr ⟨hne, heq.trans hveto⟩
      · exact .inr ⟨hne, hveto'⟩

theorem later_settled {validator_id decision : String} {v : Vote}
    (hadmits : Admits e w id validator_id decision p v) (hsettled : Settled w (cast p validator_id v) q) :
    Later p q := by
  have hvotes : q.votes = Assoc.insert validator_id v p.votes := (votes_of_settled hsettled).trans cast_votes
  refine ⟨fun k x hk => ?_, fun k x hk => ?_, fun hp => absurd hadmits.voting hp⟩
  · rw [hvotes, Assoc.find_insert, if_neg]
    · exact hk
    · rintro rfl
      rw [hadmits.absent] at hk
      cases hk
  · rw [hvotes, Assoc.find_insert] at hk
    split at hk
    · next heq => exact .inr ⟨hadmits.voting, heq ▸ hadmits.absent⟩
    · exact .inl hk

/-- The proposals of `w'` are later states of those of `w`; a new one has no votes. -/
structure Extends (w w' : World) : Prop where
  later : ∀ id p, w.proposal? id = some p → ∃ q, w'.proposal? id = some q ∧ Later p q
  fresh : ∀ id q, w.proposal? id = none → w'.proposal? id = some q → q.votes = []

theorem Extends.refl (w : World) : Extends w w :=
  ⟨fun _ p hp => ⟨p, hp, .refl p⟩, fun _ _ hnone h => by rw [hnone] at h; cases h⟩

theorem Extends.of_insert (hp : w.proposal? id = some p) (hlater : Later p q)
    (hw' : ∀ id', w'.proposal? id' = if id = id' then some q else w.proposal? id') : Extends w w' := by
  refine ⟨fun id' p' hp' => ?_, fun id' q' hnone hq' => ?_⟩
  · rw [hw']
    split
    · next hid =>
      subst hid
      cases hp.symm.trans hp'
      exact ⟨q, rfl, hlater⟩
    · exact ⟨p', hp', .refl p'⟩
  · rw [hw'] at hq'
    split at hq'
    · next hid => rw [← hid, hp] at hnone; cases hnone
    · rw [hnone] at hq'; cases hq'

theorem extends_vote {validator_id decision : String} {rationale : Json} (h : AllTallied e w) :
    Extends w (after (e.vote id validator_id decision rationale m) w) := by
  rcases vote_effect h.named with heq | ⟨p, v, q, hadmits, hleaves, hid⟩
  · rw [heq]; exact .refl w
  · refine .of_insert hadmits.kept (later_settled hadmits hleaves.settled) fun id' => ?_
    rw [hleaves.proposals, hid]

theorem Extends.trans {w'' : World} (h : Extends w w') (h' : Extends w' w'')
    (hnew : ∀ id, w.proposal? id = none → w'.proposal? id = none) : Extends w w'' := by
  refine ⟨fun id p hp => ?_, fun id q hnone hq => h'.fresh id q (hnew id hnone) hq⟩
  obtain ⟨q, hq, hpq⟩ := h.later id p hp
  obtain ⟨r, hr, hqr⟩ := h'.later id q hq
  exact ⟨r, hr, hpq.trans hqr⟩

theorem proposal?_vote_of_none {validator_id decision : String} {rationale : Json} (h : AllTallied e w)
    (hnone : w.proposal? id' = none) :
    (after (e.vote id validator_id decision rationale m) w).proposal? id' = none := by
  rcases vote_effect h.named with heq | ⟨p, v, q, hadmits, hleaves, hid⟩
  · rwa [heq]
  · rw [hleaves.proposals, hid, if_neg]
    · exact hnone
    · rintro rfl
      rw [hadmits.kept] at hnone
      cases hnone

theorem extends_step (hsome : e.electorate ≠ []) (c : Call) (h : AllTallied e w) (hmeets : e.Meets w c) :
    Extends w (e.step w c) := by
  cases c with
  | propose input m =>
    show Extends w (after (e.propose input m) w)
    rw [after_propose]
    split
    · next p hp =>
      have hnone := hmeets p hp
      refine ⟨fun id q hq => ⟨q, ?_, .refl q⟩, fun id q hid hq => ?_⟩
      · rw [World.proposal?_setProposal, if_neg]
        · exact hq
        · rintro rfl
          rw [hnone] at hq
          cases hq
      · rw [World.proposal?_setProposal] at hq
        split at hq
        · cases hq; exact (newProposal_eq_ok hsome hp).2.2
        · rw [hid] at hq; cases hq
    · exact .refl w
  | vote id validator_id decision rationale m => exact extends_vote h
  | collectLocalVotes id ms =>
    show Extends w (after (e.collectLocalVotes id ms) w)
    rw [after_collectLocalVotes]
    split
    · exact .refl w
    · next p _ =>
      have hrule : (AllTallied e _ ∧ Extends w (after (e.collectVotes id (evaluateProposalMerit p)
          e.attestationEngine.validators ms) w)) ∧ _ := collectVotes_rule
        (I := fun w' => (AllTallied e w' ∧ Extends w w') ∧ ∀ id, w.proposal? id = none → w'.proposal? id = none)
        (fun w' k m hw' => ⟨⟨allTallied_vote hw'.1.1, hw'.1.2.trans (extends_vote hw'.1.1) hw'.2⟩,
          fun id hnone => proposal?_vote_of_none hw'.1.1 (hw'.2 id hnone)⟩)
        _ ms ⟨⟨h, .refl w⟩, fun _ hnone => hnone⟩
      exact hrule.1.2
  | veto id reason m =>
    show Extends w (after (e.veto id reason m) w)
    rw [after_veto]
    split
    · exact .refl w
    · next p hp =>
      split
      · exact .refl w
      · next hstate =>
        have hlater : Later p { p with state := .VETOED, veto := some ⟨reason, e.platform.isoDate m.now⟩ } :=
          ⟨fun _ _ hk => hk, fun _ _ hk => .inl hk, fun _ => .inr ⟨fun hs => hstate (.inl hs), rfl⟩⟩
        exact .of_insert hp hlater fun _ => World.proposal?_setProposal

theorem later_run (hsome : e.electorate ≠ []) {calls : List Call} (h : AllTallied e w)
    (hmeets : e.EveryMeets w calls) (hp : w.proposal? id = some p) :
    ∃ q, (calls.foldl e.step w).proposal? id = some q ∧ Later p q := by
  induction calls generalizing w p with
  | nil => exact ⟨p, hp, .refl p⟩
  | cons c calls ih =>
    obtain ⟨q, hq, hpq⟩ := (extends_step hsome c h hmeets.1).later id p hp
    obtain ⟨r, hr, hqr⟩ := ih (allTallied_step hsome c h) hmeets.2 hq
    exact ⟨r, hr, hpq.trans hqr⟩

/-! ## Runs of the engine -/

/-- The validator's vote on the proposal was recorded by a call that found the proposal open and
without it. -/
def CastWhileOpen (e : GovernanceEngine) (w : World) (calls : List Call) (id k : String) (v : Vote) : Prop :=
  ∃ before c rest, calls = before ++ c :: rest ∧
    (∃ p, (before.foldl e.step w).proposal? id = some p ∧ p.state = .VOTING ∧ Assoc.find k p.votes = none) ∧
    ∃ q, ((before ++ [c]).foldl e.step w).proposal? id = some q ∧ Assoc.find k q.votes = some v

theorem CastWhileOpen.snoc {calls : List Call} {k : String} {v : Vote} (h : e.CastWhileOpen w calls id k v)
    (c : Call) : e.CastWhileOpen w (calls ++ [c]) id k v := by
  obtain ⟨before, c', rest, rfl, hopen, hcast⟩ := h
  exact ⟨before, c', rest ++ [c], by simp, hopen, hcast⟩

theorem castWhileOpen_run (hsome : e.electorate ≠ []) {calls : List Call} (h : AllTallied e w)
    (hnone : ∀ id, w.proposal? id = none) (hmeets : e.EveryMeets w calls)
    (hp : (calls.foldl e.step w).proposal? id = some p) {k : String} {v : Vote}
    (hk : Assoc.find k p.votes = some v) : e.CastWhileOpen w calls id k v := by
  induction calls using List.reverseRecOn generalizing p with
  | nil =>
    rw [List.foldl_nil, hnone] at hp
    cases hp
  | append_singleton calls c ih =>
    obtain ⟨hbefore, hlast, -⟩ := everyMeets_append.mp hmeets
    have hstep := extends_step hsome c (allTallied_run hsome calls h) hlast
    have hp' : (e.step (calls.foldl e.step w) c).proposal? id = some p := by
      rw [List.foldl_append] at hp
      exact hp
    cases hold : (calls.foldl e.step w).proposal? id with
    | none =>
      rw [hstep.fresh id p hold hp'] at hk
      cases hk
    | some q =>
      obtain ⟨p', hp'', hlater⟩ := hstep.later id q hold
      cases hp'.symm.trans hp''
      rcases hlater.added k v hk with hkept | ⟨hvoting, habsent⟩
      · exact (ih hbefore hold hkept).snoc c
      · exact ⟨calls, c, [], rfl, ⟨q, hold, hvoting, habsent⟩, p, hp, hk⟩

/-- The state of the proposal is the outcome of its votes. -/
structure Follows (e : GovernanceEngine) (p : Proposal) : Prop where
  once : (p.votes.map Prod.fst).Nodup
  registered : ∀ k ∈ p.votes.map Prod.fst, k ∈ e.electorate
  accepted : p.votes_accepted = p.accepting.length
  rejected : p.votes_rejected = p.rejecting.length
  enacted : p.state = .ENACTED → (e.electorate.length * 2) ⌈/⌉ 3 ≤ p.accepting.length
  refused : p.state = .REJECTED →
    e.electorate.length - p.rejecting.length < (e.electorate.length * 2) ⌈/⌉ 3
  settled : (∀ k ∈ e.electorate, k ∈ p.votes.map Prod.fst) → p.state ≠ .VETOED →
    p.state = .ENACTED ∨ p.state = .REJECTED

theorem follows_of_sound (hids : e.electorate.Nodup) (h : Sound e w) (hp : w.proposal? id = some p) :
    Follows e p := by
  have ht := h.1 id p hp
  have hquorum : e.requiredVotes = (e.electorate.length * 2) ⌈/⌉ 3 := requiredVotes_eq
  have hstate := ht.state
  have hacc := ht.accepted
  have hrej := ht.rejected
  have htot := ht.total
  have hreq := ht.required
  unfold Proposal.StateAgrees at hstate
  refine ⟨ht.ballot.nodup, ht.ballot.registered, hacc, hrej, fun hs => ?_, fun hs => ?_, fun hall hveto => ?_⟩
  · rw [hs] at hstate
    rw [← hquorum]
    have hstate : p.required_votes ≤ p.votes_accepted := hstate
    omega
  · rw [hs] at hstate
    rw [← hquorum]
    have hstate : p.total_validators < p.votes_rejected + p.required_votes := hstate
    have hvoters := Ballot.length_missing hids ht.ballot
    have hvotes : p.accepting.length + p.rejecting.length = p.votes.length := Ballot.length_casting _ _
    omega
  · have hnobody : e.outstanding p = [] := Ballot.missing_eq_nil.mpr hall
    cases hs : p.state with
    | PROPOSED => rw [hs] at hstate; exact hstate.elim
    | VOTING =>
      rw [hs] at hstate
      have hopen : p.votes_accepted < p.required_votes ∧
        p.votes_rejected + p.required_votes ≤ p.total_validators := hstate
      rw [hacc, hrej, htot] at hopen
      exact absurd hnobody (Ballot.missing_of_undecided hids ht.ballot hopen.1 hopen.2)
    | RATIFIED => exact absurd hnobody (h.2 id p hp hs)
    | ENACTED => exact .inl rfl
    | REJECTED => exact .inr rfl
    | VETOED => exact absurd hs hveto

theorem start_proposals (platform : Node.Platform) (now : Int) (file dsl : Json)
    (receipts : List (String × Record)) (root : Option Json) :
    (start platform now file dsl receipts root).proposal? id = none := rfl

theorem sound_start (platform : Node.Platform) (now : Int) (file dsl : Json)
    (receipts : List (String × Record)) (root : Option Json) :
    Sound e (start platform now file dsl receipts root) := by
  refine ⟨fun id p hp => ?_, fun id p hp => ?_⟩ <;> rw [start_proposals] at hp <;> cases hp

/-- Whatever is proposed, voted and vetoed: while new proposals take no other's id and every last
vote that ratifies is on a change that can be made, a proposal is enacted or rejected as its votes
say, once all have voted, and never both. -/
theorem outcomes_follow_the_votes (e : GovernanceEngine) (now : Int) (file dsl : Json)
    (receipts : List (String × Record)) (root : Option Json) (calls : List Call)
    (hids : e.electorate.Nodup) (hsome : e.electorate ≠ [])
    (hmeets : e.EveryMeets (start e.platform now file dsl receipts root) calls) :
    let world (calls : List Call) : World := calls.foldl e.step (start e.platform now file dsl receipts root)
    (∀ id p, (world calls).proposal? id = some p → e.Follows p ∧
      ∀ k v, Assoc.find k p.votes = some v →
        e.CastWhileOpen (start e.platform now file dsl receipts root) calls id k v) ∧
    ∀ before rest before' rest', calls = before ++ rest → calls = before' ++ rest' →
      ∀ id p q, (world before).proposal? id = some p → (world before').proposal? id = some q →
        p.state = .ENACTED → q.state ≠ .REJECTED := by
  intro world
  have hstart : Sound e (start e.platform now file dsl receipts root) := sound_start _ _ _ _ _ _
  refine ⟨fun id p hp => ⟨follows_of_sound hids (sound_run hids hsome hstart hmeets) hp, fun k v hk =>
    castWhileOpen_run hsome hstart.1 (fun _ => rfl) hmeets hp hk⟩, ?_⟩
  intro before rest before' rest' hb hb' id p q hp hq henacted hrejected
  -- one of the two states comes later than the other
  have hlater : Later p q ∨ Later q p := by
    rcases List.append_eq_append_iff.mp (hb.symm.trans hb') with ⟨between, rfl, -⟩ | ⟨between, rfl, -⟩
    · obtain ⟨hmeets', hbetween⟩ := everyMeets_append.mp (everyMeets_append.mp (hb' ▸ hmeets)).1
      obtain ⟨q', hq', hpq⟩ := later_run hsome (allTallied_run hsome before hstart.1) hbetween hp
      rw [← List.foldl_append] at hq'
      exact .inl (Option.some.inj (hq'.symm.trans hq) ▸ hpq)
    · obtain ⟨hmeets', hbetween⟩ := everyMeets_append.mp (everyMeets_append.mp (hb ▸ hmeets)).1
      obtain ⟨p', hp', hqp⟩ := later_run hsome (allTallied_run hsome before' hstart.1) hbetween hq
      rw [← List.foldl_append] at hp'
      exact .inr (Option.some.inj (hp'.symm.trans hp) ▸ hqp)
  rcases hlater with hpq | hqp
  · rcases hpq.closed (by rw [henacted]; exact nofun) with heq | ⟨hne, -⟩
    · rw [hrejected, henacted] at heq
      cases heq
    · exact hne henacted
  · rcases hqp.closed (by rw [hrejected]; exact nofun) with heq | ⟨-, hveto⟩
    · rw [hrejected, henacted] at heq
      cases heq
    · rw [henacted] at hveto
      cases hveto

/-! ## Two runs of three validators -/

theorem noonText_ne_empty (_ : Int) : "2026-06-26T12:00:00.000Z" ≠ "" := by decide

def plainPlatform : Node.Platform where
  toHost := SettlementProofFactory.plainHost
  lower s := s
  upper s := s
  nfc s := s
  parseDate _ := .nan
  isoDate _ := "2026-06-26T12:00:00.000Z"
  lower_lower := Eq.refl
  isoDate_ne_empty := noonText_ne_empty

/-- A signature is the key with the text. -/
def plainScheme : SignatureScheme where
  sign priv text _ := priv ++ ":" ++ text
  verify
    | some (.str pub), some (.str signature), text => .ok (signature == pub ++ ":" ++ text)
    | _, _, _ => .error "error:1E08010C:DECODER routines::unsupported"

def threeValidators : GovernanceEngine where
  platform := plainPlatform
  scheme := plainScheme
  attestationEngine := .ofCount (fun _ => ("key", "key")) 3
  saveLedger _ := .ok ()
  votingWindowMs := 0

def emptyConstitution : Json := .obj [("version", .str "1.0"), ("policies", .arr [])]

def alicesProposal (amendment_type : String) (change : Fields) : Call :=
  .propose ⟨some (.str "sl1e_alice"), amendment_type, some (.str "Swaps"), none, .obj change⟩ ⟨0, 0⟩

/-- A policy for swaps, and the votes of the validators on it. -/
def policyAdded : List Call :=
  [alicesProposal "ADD_POLICY" [("policy", .obj [("intent_type", .str "SWAP"), ("rules", .arr [])])],
    .collectLocalVotes "gov_~sl1e_alice:ADD_POLI" fun i => ⟨i, i⟩]

theorem policyAdded_meets :
    threeValidators.EveryMeets (start plainPlatform 0 emptyConstitution emptyConstitution [] none) policyAdded := by
  refine ⟨fun p _ => rfl, fun p hp _ _ hsum => ?_, trivial⟩
  -- with three votes outstanding the second one ratifies
  have hcounts : ((threeValidators.step (start plainPlatform 0 emptyConstitution emptyConstitution [] none)
      (alicesProposal "ADD_POLICY" [("policy", .obj [("intent_type", .str "SWAP"), ("rules", .arr [])])])).proposal?
        "gov_~sl1e_alice:ADD_POLI").map (fun p =>
          (p.votes_accepted, (threeValidators.outstanding p).length, p.required_votes)) = some (0, 3, 2) := by
    decide +kernel
  rw [hp] at hcounts
  simp only [Option.map_some, Option.some.injEq, Prod.mk.injEq] at hcounts
  omega

theorem policyAdded_enacted :
    ∃ p, (policyAdded.foldl threeValidators.step
        (start plainPlatform 0 emptyConstitution emptyConstitution [] none)).proposal?
          "gov_~sl1e_alice:ADD_POLI" = some p ∧ p.state = .ENACTED ∧ threeValidators.Follows p := by
  have hrun : ((policyAdded.foldl threeValidators.step
      (start plainPlatform 0 emptyConstitution emptyConstitution [] none)).proposal?
        "gov_~sl1e_alice:ADD_POLI").map (·.state) = some .ENACTED := by decide +kernel
  obtain ⟨p, hp, hstate⟩ := Option.map_eq_some_iff.mp hrun
  exact ⟨p, hp, hstate, ((outcomes_follow_the_votes threeValidators 0 emptyConstitution emptyConstitution [] none
    policyAdded (by decide +kernel) (by decide +kernel) policyAdded_meets).1 _ p hp).1⟩

/-- A change of a rule for swaps, of which there is none, and the vote of every validator. -/
def unknownRuleAmended : List Call :=
  [alicesProposal "AMEND_RULE" [("intent_type", .str "SWAP"), ("rule_id", .str "swap:limit"),
      ("new_values", .obj [("value", .num (.int 1))])],
    .vote "gov_~sl1e_alice:AMEND_RU" "validator-A" "REJECT" (.str "") ⟨1, 1⟩,
    .vote "gov_~sl1e_alice:AMEND_RU" "validator-B" "ACCEPT" (.str "") ⟨2, 2⟩,
    .vote "gov_~sl1e_alice:AMEND_RU" "validator-C" "ACCEPT" (.str "") ⟨3, 3⟩]

/-- All have voted, and the proposal is neither enacted nor rejected. -/
theorem unknownRuleAmended_left_ratified :
    ∃ p, (unknownRuleAmended.foldl threeValidators.step
        (start plainPlatform 0 emptyConstitution emptyConstitution [] none)).proposal?
          "gov_~sl1e_alice:AMEND_RU" = some p ∧
      (∀ k ∈ threeValidators.electorate, k ∈ p.votes.map Prod.fst) ∧ p.state ≠ .VETOED ∧
      ¬ (p.state = .ENACTED ∨ p.state = .REJECTED) := by
  have hrun : ((unknownRuleAmended.foldl threeValidators.step
      (start plainPlatform 0 emptyConstitution emptyConstitution [] none)).proposal?
        "gov_~sl1e_alice:AMEND_RU").map (fun p => (p.votes.map Prod.fst, p.state)) =
      some (threeValidators.electorate, .RATIFIED) := by decide +kernel
  obtain ⟨p, hp, heq⟩ := Option.map_eq_some_iff.mp hrun
  obtain ⟨hvotes, hstate⟩ := Prod.mk.inj heq
  exact ⟨p, hp, fun k hk => hvotes ▸ hk, by rw [hstate]; decide, by rw [hstate]; decide⟩

end SimpleL1.Settlement.GovernanceEngine
