import SimpleL1.Lib.Ballot
import SimpleL1.Settlement.Governance

/-!
# What a call does to the proposals

A vote that is admitted is counted and settles its proposal: the required number
of votes ratifies it, and the change is applied to the constitution on file; a
number of refusals that the others cannot make up for rejects it. Whatever the
calls and whatever they throw, the counters of every proposal agree with its
votes and its state with the counters.
-/

namespace SimpleL1.Settlement

open SimpleL1.Js SimpleL1.Lib SimpleL1.Lib.Effect

/-! ## The proposals that are kept -/

namespace World

/-- The proposal kept under the id. -/
def proposal? (w : World) (proposal_id : String) : Option Proposal := Assoc.find proposal_id w.proposals

variable {w : World} {id id' : String} {p : Proposal}

@[simp] theorem proposal?_setProposal :
    (w.setProposal id p).proposal? id' = if id = id' then some p else w.proposal? id' :=
  Assoc.find_insert _ _ _ _

@[simp] theorem constitutionFile_setProposal :
    (w.setProposal id p).constitutionFile = w.constitutionFile := rfl

theorem getProposal_eq_ok : w.getProposal id = .ok p ↔ w.proposal? id = some p := by
  unfold getProposal proposal?
  cases h : Assoc.find id w.proposals with
  | none => exact ⟨nofun, nofun⟩
  | some q => exact ⟨fun h => congrArg some (Except.ok.inj h), fun h => congrArg Except.ok (Option.some.inj h)⟩

theorem getProposal_of_none (h : w.proposal? id = none) :
    w.getProposal id = .error (.error ("Proposal not found: " ++ id)) := by
  unfold proposal? at h
  rw [getProposal, h]
  rfl

end World

/-! ## Enacting -/

/-- The change can be made of the constitution on file. -/
def World.Enactable (w : World) (p : Proposal) : Prop :=
  ∃ r, (applyChange w.constitutionFile p.amendment_type p.change >>= versionAndLog) = .ok r

namespace GovernanceEngine

variable {e : GovernanceEngine} {w : World} {p q : Proposal} {m : Moment} {id id' : String}

theorem enactable_iff : w.Enactable p ↔ ∃ c, e.amended w p m = .ok c := by
  unfold World.Enactable amended stampConstitution
  cases happly : applyChange w.constitutionFile p.amendment_type p.change with
  | error err => exact ⟨nofun, nofun⟩
  | ok c =>
    show (∃ r, versionAndLog c = .ok r) ↔ ∃ c', (versionAndLog c >>= _) = .ok c'
    cases versionAndLog c with
    | error err => exact ⟨nofun, nofun⟩
    | ok r => exact ⟨fun _ => ⟨_, rfl⟩, fun _ => ⟨_, rfl⟩⟩

theorem proposal?_enacted {c : Json} :
    (e.enacted w p m c).proposal? id = if p.proposal_id = id then some { p with
      state := .ENACTED, enacted_at := some (e.platform.isoDate m.now)
      new_constitution_root := some (constitutionRoot e.platform c)
      new_epoch := some (w.governance.current_epoch + 1) } else w.proposal? id :=
  Assoc.find_insert _ _ _ _

theorem after_enact : after (e.enact p m) w =
    match e.amended w p m with
    | .ok c => e.enacted w p m c
    | .error _ => w := by
  unfold enact
  rw [after_bind, outcome_reading, after_reading]
  cases e.amended w p m with
  | error err => rfl
  | ok c =>
    show after (modify _ >>= fun _ => liftM (buildIndex c)) w = e.enacted w p m c
    rw [after_bind, outcome_modify]
    simp only [after_modify, after_lift]

/-- The proposal once its last vote is counted, and what else counting it does. -/
theorem after_checkRatification : after (e.checkRatification p m) w =
    if p.required_votes ≤ p.votes_accepted then
      let ratified := { p with state := .RATIFIED }
      match e.amended (w.setProposal p.proposal_id ratified) ratified m with
      | .ok c => e.enacted (w.setProposal p.proposal_id ratified) ratified m c
      | .error _ => w.setProposal p.proposal_id ratified
    else if p.total_validators < p.votes_rejected + p.required_votes then
      w.setProposal p.proposal_id { p with state := .REJECTED }
    else w := by
  unfold checkRatification
  split
  · rw [after_bind, outcome_modify]
    simp only [after_modify, after_enact]
  · split
    · rw [after_modify]
    · rfl

/-- The counted proposal `p` settled as `q`: only its state and what enacting notes differ. -/
structure Settled (w : World) (p q : Proposal) : Prop where
  same : q = { p with
    state := q.state, enacted_at := q.enacted_at
    new_constitution_root := q.new_constitution_root, new_epoch := q.new_epoch }
  state : if p.required_votes ≤ p.votes_accepted then
      q.state = .ENACTED ∨ q.state = .RATIFIED ∧ ¬ w.Enactable p
    else if p.total_validators < p.votes_rejected + p.required_votes then q.state = .REJECTED
    else q.state = p.state

/-- Counting leaves the proposal settled as `q` and every other proposal as it is; only enacting writes
the constitution. -/
structure Leaves (w w' : World) (p q : Proposal) : Prop where
  settled : Settled w p q
  proposals : ∀ id, w'.proposal? id = if p.proposal_id = id then some q else w.proposal? id
  file : q.state = .ENACTED ∨ w'.constitutionFile = w.constitutionFile

theorem leaves_checkRatification (e : GovernanceEngine) (w : World) (p : Proposal) (m : Moment) :
    ∃ q, Leaves w (after (e.checkRatification p m) (w.setProposal p.proposal_id p)) p q := by
  rw [after_checkRatification]
  by_cases hratified : p.required_votes ≤ p.votes_accepted
  · rw [if_pos hratified]
    dsimp only
    cases hamended : e.amended ((w.setProposal p.proposal_id p).setProposal p.proposal_id
        { p with state := .RATIFIED }) { p with state := .RATIFIED } m with
    | ok c =>
      refine ⟨{ p with
        state := .ENACTED, enacted_at := some (e.platform.isoDate m.now)
        new_constitution_root := some (constitutionRoot e.platform c)
        new_epoch := some (w.governance.current_epoch + 1) }, ⟨rfl, ?_⟩, fun id => ?_, .inl rfl⟩
      · rw [if_pos hratified]
        exact .inl rfl
      · rw [proposal?_enacted]
        by_cases hid : p.proposal_id = id
        · rw [if_pos hid, if_pos hid]
          rfl
        · rw [if_neg hid, if_neg hid, World.proposal?_setProposal, if_neg hid,
            World.proposal?_setProposal, if_neg hid]
    | error err =>
      have hno : ¬ w.Enactable p := by
        intro h
        have h : ((w.setProposal p.proposal_id p).setProposal p.proposal_id
          { p with state := .RATIFIED }).Enactable { p with state := .RATIFIED } := h
        obtain ⟨c, hc⟩ := (enactable_iff (e := e) (m := m)).mp h
        rw [hamended] at hc
        cases hc
      refine ⟨{ p with state := .RATIFIED }, ⟨rfl, ?_⟩, fun id => ?_, .inr rfl⟩
      · rw [if_pos hratified]
        exact .inr ⟨rfl, hno⟩
      · simp only [World.proposal?_setProposal]
        split <;> rfl
  · rw [if_neg hratified]
    by_cases hrejected : p.total_validators < p.votes_rejected + p.required_votes
    · rw [if_pos hrejected]
      refine ⟨{ p with state := .REJECTED }, ⟨rfl, ?_⟩, fun id => ?_, .inr rfl⟩
      · rw [if_neg hratified, if_pos hrejected]
      · simp only [World.proposal?_setProposal]
        split <;> rfl
    · rw [if_neg hrejected]
      refine ⟨p, ⟨rfl, ?_⟩, fun id => World.proposal?_setProposal, .inr rfl⟩
      rw [if_neg hratified, if_neg hrejected]

/-! ## Voting -/

/-- The validators, by their ids. -/
def electorate (e : GovernanceEngine) : List String := e.attestationEngine.validators.map (·.validator_id)

/-- The vote is one that the proposal takes. -/
structure Admits (e : GovernanceEngine) (w : World) (id validator_id decision : String) (p : Proposal)
    (v : Vote) : Prop where
  kept : w.proposal? id = some p
  voting : p.state = .VOTING
  absent : Assoc.find validator_id p.votes = none
  registered : validator_id ∈ e.electorate
  decision : Decision.ofName decision = some v.decision

theorem admitVote_eq_ok {validator_id decision : String} {rationale : Json} {voted : Proposal}
    (h : e.admitVote w id validator_id decision rationale m = .ok voted) :
    ∃ p v, Admits e w id validator_id decision p v ∧ voted = cast p validator_id v := by
  unfold admitVote at h
  obtain ⟨p, hp, h⟩ := bind_eq_ok.mp h
  obtain ⟨hvoting, h⟩ := throwUnless_bind_eq_ok.mp h
  obtain ⟨habsent, h⟩ := throwUnless_bind_eq_ok.mp h
  split at h
  · cases h
  · next d hd =>
    split at h
    · cases h
    · next validator hvalidator =>
      refine ⟨p, ⟨d, rationale, _, _⟩, ⟨World.getProposal_eq_ok.mp hp, of_decide_eq_true hvoting,
        Option.isNone_iff_eq_none.mp habsent, ?_, hd⟩, (Except.ok.inj h).symm⟩
      have hid := List.find?_some hvalidator
      exact List.mem_map.mpr ⟨validator, List.mem_of_find?_eq_some hvalidator, of_decide_eq_true hid⟩

/-- Saving the ledger, whether or not it succeeds, leaves what is in memory. -/
theorem after_save {α : Type} {k : GovernanceM α} (hk : after k w = w) :
    after (reading e.saveLedger >>= fun _ => k) w = w := by
  rw [after_bind, outcome_reading, after_reading]
  cases e.saveLedger w with
  | error err => rfl
  | ok _ => exact hk

theorem after_vote {validator_id decision : String} {rationale : Json} :
    after (e.vote id validator_id decision rationale m) w =
      match e.admitVote w id validator_id decision rationale m with
      | .ok voted => after (e.checkRatification voted m) (w.setProposal id voted)
      | .error _ => w := by
  unfold vote
  rw [after_bind, outcome_reading, after_reading]
  cases e.admitVote w id validator_id decision rationale m with
  | error err => rfl
  | ok voted =>
    show after (modify _ >>= fun _ => e.checkRatification voted m >>= fun _ => reading e.saveLedger >>= fun _ =>
      reading _) w = after (e.checkRatification voted m) (w.setProposal id voted)
    rw [after_bind, outcome_modify]
    show after (e.checkRatification voted m >>= fun _ => reading e.saveLedger >>= fun _ => reading _)
      (w.setProposal id voted) = _
    rw [after_bind]
    cases outcome (e.checkRatification voted m) (w.setProposal id voted) with
    | error err => rfl
    | ok _ => exact after_save (after_reading _ _)

section
variable {v : Vote} {validator_id : String}

@[simp] theorem cast_proposal_id : (cast p validator_id v).proposal_id = p.proposal_id := by
  unfold cast; split <;> rfl

@[simp] theorem cast_state : (cast p validator_id v).state = p.state := by
  unfold cast; split <;> rfl

@[simp] theorem cast_votes : (cast p validator_id v).votes = Assoc.insert validator_id v p.votes := by
  unfold cast; split <;> rfl

@[simp] theorem cast_required_votes : (cast p validator_id v).required_votes = p.required_votes := by
  unfold cast; split <;> rfl

theorem cast_votes_accepted :
    (cast p validator_id v).votes_accepted = p.votes_accepted + if v.decision = .ACCEPT then 1 else 0 := by
  unfold cast
  cases v.decision <;> rfl

@[simp] theorem cast_total_validators : (cast p validator_id v).total_validators = p.total_validators := by
  unfold cast; split <;> rfl

@[simp] theorem enactable_cast : w.Enactable (cast p validator_id v) ↔ w.Enactable p := by
  unfold cast; split <;> rfl

end

end GovernanceEngine

/-! ## Proposals that agree with their votes -/

def Vote.accepts (v : Vote) : Bool := v.decision = .ACCEPT

namespace Proposal

/-- The validators that voted for the proposal, and against it. -/
def accepting (p : Proposal) : List String := Ballot.casting Vote.accepts p.votes

def rejecting (p : Proposal) : List String := Ballot.casting (fun v => !v.accepts) p.votes

/-- The state goes with the counters. -/
def StateAgrees (p : Proposal) : Prop :=
  match p.state with
  | .PROPOSED => False
  | .VOTING => p.votes_accepted < p.required_votes ∧ p.votes_rejected + p.required_votes ≤ p.total_validators
  | .RATIFIED | .ENACTED => p.required_votes ≤ p.votes_accepted
  | .REJECTED => p.total_validators < p.votes_rejected + p.required_votes
  | .VETOED => True

end Proposal

namespace GovernanceEngine

variable {e : GovernanceEngine} {w : World} {p q : Proposal} {m : Moment} {id id' : String}

/-- The proposal kept under the id agrees with its votes. -/
structure Tallied (e : GovernanceEngine) (id : String) (p : Proposal) : Prop where
  named : p.proposal_id = id
  ballot : Ballot.Valid e.electorate p.votes
  accepted : p.votes_accepted = p.accepting.length
  rejected : p.votes_rejected = p.rejecting.length
  required : p.required_votes = e.requiredVotes
  total : p.total_validators = e.electorate.length
  state : p.StateAgrees

theorem requiredVotes_eq : e.requiredVotes = (e.electorate.length * 2 + 2) / 3 := by
  unfold requiredVotes electorate
  rw [List.length_map]
  rfl

/-- A proposal that is put up has the votes to come decide it. -/
theorem newProposal_eq_ok (hsome : e.electorate ≠ []) {input : ProposalInput}
    (h : e.newProposal w input m = .ok p) : Tallied e p.proposal_id p ∧ p.state = .VOTING ∧ p.votes = [] := by
  unfold newProposal at h
  split at h
  · cases h
  · obtain ⟨_, -, h⟩ := bind_eq_ok.mp h
    obtain ⟨_, -, h⟩ := bind_eq_ok.mp h
    have hpos : 0 < e.electorate.length := List.length_pos_iff.mpr hsome
    have hreq := requiredVotes_eq (e := e)
    cases h
    have hlen : e.attestationEngine.validators.length = e.electorate.length := by simp [electorate]
    refine ⟨⟨rfl, Ballot.valid_nil, rfl, rfl, rfl, hlen, ?_⟩, rfl, rfl⟩
    show 0 < e.requiredVotes ∧ 0 + e.requiredVotes ≤ e.attestationEngine.validators.length
    omega

/-- Casting a vote counts it. -/
theorem counted_cast {validator_id : String} {v : Vote} (h : Tallied e id p)
    (habsent : Assoc.find validator_id p.votes = none) :
    (cast p validator_id v).votes_accepted = (cast p validator_id v).accepting.length ∧
      (cast p validator_id v).votes_rejected = (cast p validator_id v).rejecting.length := by
  have hacc := Ballot.length_casting_insert Vote.accepts v habsent
  have hrej := Ballot.length_casting_insert (fun v => !v.accepts) v habsent
  have h1 := h.accepted
  have h2 := h.rejected
  unfold Proposal.accepting Proposal.rejecting at *
  rw [cast_votes, hacc, hrej, ← h1, ← h2]
  unfold cast Vote.accepts
  cases v.decision <;> exact ⟨rfl, rfl⟩

/-- A proposal stays in agreement with its votes when one more is counted. -/
theorem tallied_settled {validator_id decision : String} {v : Vote} (h : Tallied e id p)
    (hadmits : Admits e w id validator_id decision p v) (hsettled : Settled w (cast p validator_id v) q) :
    Tallied e id q := by
  have hcounted := counted_cast (v := v) h hadmits.absent
  have hvoting : p.votes_accepted < p.required_votes ∧ p.votes_rejected + p.required_votes ≤ p.total_validators := by
    have := h.state
    unfold Proposal.StateAgrees at this
    rw [hadmits.voting] at this
    exact this
  have hvotes : q.votes = Assoc.insert validator_id v p.votes := by rw [hsettled.same]; exact cast_votes
  have hq : q.accepting = (cast p validator_id v).accepting ∧ q.rejecting = (cast p validator_id v).rejecting := by
    unfold Proposal.accepting Proposal.rejecting
    rw [hvotes, cast_votes]
    exact ⟨rfl, rfl⟩
  have hacc : q.votes_accepted = (cast p validator_id v).votes_accepted := by rw [hsettled.same]
  have hrej : q.votes_rejected = (cast p validator_id v).votes_rejected := by rw [hsettled.same]
  have hreq : q.required_votes = p.required_votes := by rw [hsettled.same]; exact cast_required_votes
  have htot : q.total_validators = p.total_validators := by rw [hsettled.same]; exact cast_total_validators
  refine ⟨?_, ?_, ?_, ?_, hreq.trans h.required, htot.trans h.total, ?_⟩
  · rw [hsettled.same]
    exact cast_proposal_id.trans h.named
  · rw [hvotes]
    exact h.ballot.insert hadmits.registered hadmits.absent
  · rw [hacc, hq.1, hcounted.1]
  · rw [hrej, hq.2, hcounted.2]
  · have hstate := hsettled.state
    rw [cast_required_votes, cast_total_validators, cast_state] at hstate
    unfold Proposal.StateAgrees
    rw [hacc, hrej, hreq, htot]
    split at hstate
    · next hle => rcases hstate with hs | ⟨hs, -⟩ <;> rw [hs] <;> exact hle
    · next hle =>
      split at hstate
      · next hlt => rw [hstate]; exact hlt
      · next hlt =>
        rw [hstate, hadmits.voting]
        exact ⟨Nat.lt_of_not_le hle, Nat.le_of_not_lt hlt⟩

/-! ## The calls -/

theorem after_propose {input : ProposalInput} : after (e.propose input m) w =
    match e.newProposal w input m with
    | .ok p => w.setProposal p.proposal_id p
    | .error _ => w := by
  unfold propose
  rw [after_bind, outcome_reading, after_reading]
  cases e.newProposal w input m with
  | error err => rfl
  | ok p =>
    show after (modify _ >>= fun _ => reading e.saveLedger >>= fun _ => pure p) w = _
    rw [after_bind, outcome_modify]
    exact after_save rfl

theorem after_veto {reason : Option Json} : after (e.veto id reason m) w =
    match w.proposal? id with
    | none => w
    | some p => if p.state = .ENACTED ∨ p.state = .VETOED then w else
        w.setProposal id { p with state := .VETOED, veto := some ⟨reason, e.platform.isoDate m.now⟩ } := by
  unfold veto
  rw [after_bind, outcome_reading, after_reading]
  cases h : w.proposal? id with
  | none => rw [World.getProposal_of_none h]
  | some p =>
    rw [World.getProposal_eq_ok.mpr h]
    dsimp only
    split
    · rfl
    · rw [after_bind, outcome_modify]
      exact after_save (after_reading _ _)

/-- A vote leaves the world as it is, or is admitted and settles its proposal alone. -/
theorem vote_effect {validator_id decision : String} {rationale : Json}
    (htallied : ∀ p, w.proposal? id = some p → p.proposal_id = id) :
    after (e.vote id validator_id decision rationale m) w = w ∨
      ∃ p v q, Admits e w id validator_id decision p v ∧
        Leaves w (after (e.vote id validator_id decision rationale m) w) (cast p validator_id v) q ∧
        (cast p validator_id v).proposal_id = id := by
  rw [after_vote]
  cases hadmit : e.admitVote w id validator_id decision rationale m with
  | error err => exact .inl rfl
  | ok voted =>
    obtain ⟨p, v, hadmits, rfl⟩ := admitVote_eq_ok hadmit
    have hid : (cast p validator_id v).proposal_id = id := cast_proposal_id.trans (htallied p hadmits.kept)
    obtain ⟨q, hleaves⟩ := leaves_checkRatification e w (cast p validator_id v) m
    rw [hid] at hleaves
    exact .inr ⟨p, v, q, hadmits, hleaves, hid⟩

/-- What every vote of the collection keeps, the collection keeps. -/
theorem collectVotes_rule {I : World → Prop} {d : Decision}
    (hvote : ∀ w validator_id m, I w →
      I (after (e.vote id validator_id d.name (.str "Automatic constitutional evaluation") m) w))
    (validators : List LocalValidator) (ms : Nat → Moment) {w : World} (h : I w) :
    I (after (e.collectVotes id d validators ms) w) := by
  induction validators generalizing w ms with
  | nil => exact h
  | cons validator validators ih =>
    unfold collectVotes
    rw [after_bind, outcome_reading, after_reading]
    cases w.getProposal id with
    | error err => exact h
    | ok current =>
      dsimp only
      split
      · exact h
      · split
        · exact ih _ h
        · have h1 := hvote w validator.validator_id (ms 0) h
          rw [after_bind]
          split
          · exact ih _ h1
          · exact h1

theorem after_collectLocalVotes {ms : Nat → Moment} : after (e.collectLocalVotes id ms) w =
    match w.proposal? id with
    | none => w
    | some p => after (e.collectVotes id (evaluateProposalMerit p) e.attestationEngine.validators ms) w := by
  unfold collectLocalVotes
  rw [after_bind, outcome_reading, after_reading]
  cases h : w.proposal? id with
  | none => rw [World.getProposal_of_none h]
  | some p =>
    rw [World.getProposal_eq_ok.mpr h]
    dsimp only
    rw [after_bind]
    split
    · exact after_reading _ _
    · rfl

section
variable {I : World → Prop} (hset : ∀ w id p, I w → I (w.setProposal id p))
  (henacted : ∀ w p m c, I w → e.amended w p m = .ok c → I (e.enacted w p m c))
include hset henacted

theorem vote_rule {validator_id decision : String} {rationale : Json} (h : I w) :
    I (after (e.vote id validator_id decision rationale m) w) := by
  rw [after_vote]
  split
  · next voted _ =>
    have hcounted := hset w id voted h
    rw [after_checkRatification]
    split
    · dsimp only
      split
      · next c hc => exact henacted _ _ _ c (hset _ _ _ hcounted) hc
      · exact hset _ _ _ hcounted
    · split
      · exact hset _ _ _ hcounted
      · exact hcounted
  · exact h

/-- What keeping a proposal and enacting one preserve, every call preserves. -/
theorem step_rule (c : Call) (h : I w) : I (e.step w c) := by
  cases c with
  | propose input m =>
    show I (after (e.propose input m) w)
    rw [after_propose]
    split
    · exact hset _ _ _ h
    · exact h
  | vote id validator_id decision rationale m => exact vote_rule hset henacted h
  | collectLocalVotes id ms =>
    show I (after (e.collectLocalVotes id ms) w)
    rw [after_collectLocalVotes]
    split
    · exact h
    · exact collectVotes_rule (fun _ _ _ => vote_rule hset henacted) _ _ h
  | veto id reason m =>
    show I (after (e.veto id reason m) w)
    rw [after_veto]
    split
    · exact h
    · split
      · exact h
      · exact hset _ _ _ h

end

/-! ## Every proposal agrees with its votes, in every run -/

def AllTallied (e : GovernanceEngine) (w : World) : Prop :=
  ∀ id p, w.proposal? id = some p → Tallied e id p

theorem AllTallied.named (h : AllTallied e w) : ∀ p, w.proposal? id = some p → p.proposal_id = id :=
  fun p hp => (h id p hp).named

theorem AllTallied.of_insert {w' : World} (h : AllTallied e w) (hq : Tallied e id q)
    (hw' : ∀ id', w'.proposal? id' = if id = id' then some q else w.proposal? id') : AllTallied e w' := by
  intro id' p hp
  rw [hw'] at hp
  split at hp
  · next hid => cases hp; exact hid ▸ hq
  · exact h id' p hp

theorem allTallied_vote {validator_id decision : String} {rationale : Json} (h : AllTallied e w) :
    AllTallied e (after (e.vote id validator_id decision rationale m) w) := by
  rcases vote_effect h.named with heq | ⟨p, v, q, hadmits, hleaves, hid⟩
  · rwa [heq]
  · refine h.of_insert (tallied_settled (h id p hadmits.kept) hadmits hleaves.settled) fun id' => ?_
    rw [hleaves.proposals, hid]

theorem tallied_vetoed (h : Tallied e id p) (v : Veto) :
    Tallied e id { p with state := .VETOED, veto := some v } :=
  ⟨h.named, h.ballot, h.accepted, h.rejected, h.required, h.total, trivial⟩

/-- A call keeps every proposal in agreement with its votes. -/
theorem allTallied_step (hsome : e.electorate ≠ []) (c : Call) (h : AllTallied e w) :
    AllTallied e (e.step w c) := by
  cases c with
  | propose input m =>
    show AllTallied e (after (e.propose input m) w)
    rw [after_propose]
    split
    · next p hp => exact h.of_insert (newProposal_eq_ok hsome hp).1 fun _ => World.proposal?_setProposal
    · exact h
  | vote id validator_id decision rationale m => exact allTallied_vote h
  | collectLocalVotes id ms =>
    show AllTallied e (after (e.collectLocalVotes id ms) w)
    rw [after_collectLocalVotes]
    split
    · exact h
    · exact collectVotes_rule (fun _ _ _ => allTallied_vote) _ _ h
  | veto id reason m =>
    show AllTallied e (after (e.veto id reason m) w)
    rw [after_veto]
    split
    · exact h
    · next p hp =>
      split
      · exact h
      · exact h.of_insert (tallied_vetoed (h id p hp) _) fun _ => World.proposal?_setProposal

theorem allTallied_run (hsome : e.electorate ≠ []) (calls : List Call) (h : AllTallied e w) :
    AllTallied e (calls.foldl e.step w) := by
  induction calls generalizing w with
  | nil => exact h
  | cons c calls ih => exact ih (allTallied_step hsome c h)

end GovernanceEngine

end SimpleL1.Settlement
