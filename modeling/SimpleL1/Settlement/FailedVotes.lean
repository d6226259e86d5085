import SimpleL1.Settlement.Outcomes

/-!
# Votes that fail

A vote that may not be cast is refused before anything is written. One that may be
cast is recorded before the amendment it decides is tried on the constitution, so
when that throws the vote stays, and the proposal stays ratified without being
enacted.
-/

namespace SimpleL1.Settlement.GovernanceEngine

open SimpleL1.Js SimpleL1.Lib SimpleL1.Lib.Effect
open World (proposal?)

/-- The vote may be cast: the proposal is open, the validator is known and has not voted, and the
decision is one of the two. -/
structure MayCast (e : GovernanceEngine) (w : World) (proposal_id validator_id decision : String) : Prop where
  open_for : ∃ p, w.proposal? proposal_id = some p ∧ p.state = .VOTING ∧
    Assoc.find validator_id p.votes = none
  registered : validator_id ∈ e.electorate
  decided : ∃ d, Decision.ofName decision = some d

/-- The governance record and the constitution, on file and in the interpreter, are as before. -/
structure Untouched (w w' : World) : Prop where
  governance : w'.governance = w.governance
  file : w'.constitutionFile = w.constitutionFile
  dsl : w'.dslConstitution = w.dslConstitution

section
variable {e : GovernanceEngine} {w w' : World} {p : Proposal} {m : Moment}
  {id validator_id decision : String} {rationale : Json}

theorem mayCast_iff : e.MayCast w id validator_id decision ↔
    ∃ voted, e.admitVote w id validator_id decision rationale m = .ok voted := by
  constructor
  · rintro ⟨⟨p, hkept, hvoting, habsent⟩, hregistered, d, hd⟩
    obtain ⟨validator, hmem, hid⟩ := List.mem_map.mp hregistered
    have hfound : (e.attestationEngine.validators.find? (·.validator_id = validator_id)).isSome = true :=
      List.find?_isSome.mpr ⟨validator, hmem, by simpa using hid⟩
    obtain ⟨found, hfound⟩ := Option.isSome_iff_exists.mp hfound
    unfold admitVote
    rw [World.getProposal_eq_ok.mpr hkept, ok_bind, hvoting, habsent, hd, hfound]
    exact ⟨_, rfl⟩
  · rintro ⟨voted, h⟩
    obtain ⟨p, v, hadmits, -⟩ := admitVote_eq_ok h
    exact ⟨⟨p, hadmits.kept, hadmits.voting, hadmits.absent⟩, hadmits.registered, v.decision, hadmits.decision⟩

/-- Counting the votes of a proposal leaves its votes as they are, whatever becomes of it. -/
theorem votes_after_checkRatification (e : GovernanceEngine) (w : World) (id : String) (p : Proposal)
    (m : Moment) : ∃ q, (after (e.checkRatification p m) (w.setProposal id p)).proposal? id = some q ∧
      q.votes = p.votes := by
  have hset : ∀ (w : World) (q : Proposal), (∃ q, w.proposal? id = some q ∧ q.votes = p.votes) →
      q.votes = p.votes → ∃ q', (w.setProposal p.proposal_id q).proposal? id = some q' ∧ q'.votes = p.votes := by
    intro w q hkept hvotes
    rw [World.proposal?_setProposal]
    split
    · exact ⟨q, rfl, hvotes⟩
    · exact hkept
  have hkept : ∃ q, (w.setProposal id p).proposal? id = some q ∧ q.votes = p.votes :=
    ⟨p, by rw [World.proposal?_setProposal, if_pos rfl], rfl⟩
  rw [after_checkRatification]
  split
  · dsimp only
    split
    · rw [proposal?_enacted]
      split
      · exact ⟨_, rfl, rfl⟩
      · exact hset _ _ hkept rfl
    · exact hset _ _ hkept rfl
  · split
    · exact hset _ _ hkept rfl
    · exact hkept

/-- A vote that may be cast is on record after the call, whether it returns or throws. -/
theorem recorded_of_mayCast (h : e.MayCast w id validator_id decision) :
    ∃ q, (after (e.vote id validator_id decision rationale m) w).proposal? id = some q ∧
      (Assoc.find validator_id q.votes).isSome = true := by
  obtain ⟨voted, hvoted⟩ : ∃ voted, e.admitVote w id validator_id decision rationale m = .ok voted := mayCast_iff.mp h
  obtain ⟨p, v, -, rfl⟩ := admitVote_eq_ok hvoted
  rw [after_vote, hvoted]
  obtain ⟨q, hq, hvotes⟩ := votes_after_checkRatification e w id (cast p validator_id v) m
  refine ⟨q, hq, ?_⟩
  rw [hvotes, cast_votes, Assoc.find_insert, if_pos rfl]
  rfl

/-! ## Which votes fail late -/

/-- Counting the votes throws just when they decide for an amendment that cannot be made of the
constitution on file, or that makes one that cannot be indexed. -/
theorem throws_checkRatification_iff : (∃ err, outcome (e.checkRatification p m) w = .error err) ↔
    p.required_votes ≤ p.votes_accepted ∧
      ∀ c, e.amended w { p with state := .RATIFIED } m = .ok c → ∃ err, buildIndex c = .error err := by
  unfold checkRatification
  by_cases hdecides : p.required_votes ≤ p.votes_accepted
  · rw [if_pos hdecides, outcome_bind, outcome_modify]
    simp only [after_modify, hdecides, true_and]
    have hamended : e.amended (w.setProposal p.proposal_id { p with state := .RATIFIED })
        { p with state := .RATIFIED } m = e.amended w { p with state := .RATIFIED } m := rfl
    unfold enact
    rw [outcome_bind, outcome_reading, after_reading, hamended]
    cases e.amended w { p with state := .RATIFIED } m with
    | error err => exact iff_of_true ⟨err, rfl⟩ nofun
    | ok c =>
      simp only [Except.ok.injEq, forall_eq']
      show (∃ err, outcome (modify _ >>= fun _ => liftM (buildIndex c)) _ = .error err) ↔ _
      rw [outcome_bind, outcome_modify, ok_bind, outcome_lift]
  · rw [if_neg hdecides]
    refine iff_of_false ?_ (fun h => hdecides h.1)
    rintro ⟨err, h⟩
    split at h <;> cases h

/-- A vote that is admitted fails just when it decides for an amendment that the constitution on file
does not take, as long as the ledger is saved without fail. -/
theorem vote_throws_iff {voted : Proposal} (hsave : ∀ w, e.saveLedger w = .ok ())
    (hadmitted : e.admitVote w id validator_id decision rationale m = .ok voted) :
    Throws (e.vote id validator_id decision rationale m) w ↔
      voted.required_votes ≤ voted.votes_accepted ∧
        ∀ c, e.amended w { voted with state := .RATIFIED } m = .ok c → ∃ err, buildIndex c = .error err := by
  have hcount := throws_checkRatification_iff (e := e) (w := w.setProposal id voted) (p := voted) (m := m)
  have hamended : e.amended (w.setProposal id voted) { voted with state := .RATIFIED } m
      = e.amended w { voted with state := .RATIFIED } m := rfl
  rw [hamended] at hcount
  rw [← hcount, throws_iff]
  unfold vote
  rw [outcome_bind, outcome_reading, after_reading, hadmitted]
  show (∃ err, outcome (modify _ >>= fun _ => _) w = .error err) ↔ _
  rw [outcome_bind, outcome_modify]
  show (∃ err, outcome (e.checkRatification voted m >>= fun _ => _) (w.setProposal id voted) = .error err) ↔ _
  rw [outcome_bind]
  cases hoc : outcome (e.checkRatification voted m) (w.setProposal id voted) with
  | error err => exact iff_of_true ⟨err, rfl⟩ ⟨err, rfl⟩
  | ok u =>
    refine iff_of_false ?_ nofun
    obtain ⟨q, hq, -⟩ := votes_after_checkRatification e w id voted m
    rintro ⟨err, herr⟩
    rw [ok_bind, outcome_bind, outcome_reading, after_reading, hsave, ok_bind, outcome_reading,
      World.getProposal_eq_ok.mpr hq] at herr
    cases herr

end

/-- A vote that fails changes nothing just when it may not be cast. -/
theorem failed_vote_untouched_iff (e : GovernanceEngine) {w w' : World}
    {proposal_id validator_id decision : String} {rationale : Json} {m : Moment} {err : Error}
    (hfails : e.vote proposal_id validator_id decision rationale m w = .error err w') :
    Untouched w w' ↔ ¬ e.MayCast w proposal_id validator_id decision := by
  have hafter := after_of_error hfails
  constructor
  · rintro ⟨hgovernance, -, -⟩ hcast
    obtain ⟨q, hq, hvoted⟩ : ∃ q,
        (after (e.vote proposal_id validator_id decision rationale m) w).proposal? proposal_id = some q ∧
          (Assoc.find validator_id q.votes).isSome = true := recorded_of_mayCast hcast
    obtain ⟨p, hp, -, habsent⟩ := hcast.open_for
    rw [hafter, World.proposal?, World.proposals, hgovernance] at hq
    rw [World.proposal?, World.proposals, hq] at hp
    rw [Option.some.inj hp, habsent] at hvoted
    cases hvoted
  · intro hrefused
    have hsame : w' = w := by
      rw [← hafter, after_vote]
      cases hadmitted : e.admitVote w proposal_id validator_id decision rationale m with
      | ok voted => exact absurd (mayCast_iff.mpr ⟨voted, hadmitted⟩) hrefused
      | error _ => rfl
    rw [hsame]
    exact ⟨rfl, rfl, rfl⟩

/-! ## An amendment that cannot be made -/

/-- Nothing was proposed yet. -/
def genesis : World := start plainPlatform 0 emptyConstitution emptyConstitution [] none

/-- A vote on a proposal that is not there. -/
theorem unknown_proposal_untouched : ∃ err w',
    threeValidators.vote "gov_none" "validator-A" "ACCEPT" (.str "") ⟨0, 0⟩ genesis = .error err w' ∧
      Untouched genesis w' := by
  have hfails : threeValidators.vote "gov_none" "validator-A" "ACCEPT" (.str "") ⟨0, 0⟩ genesis
      = .error (.error "Proposal not found: gov_none") genesis := rfl
  refine ⟨_, _, hfails, (failed_vote_untouched_iff threeValidators hfails).mpr ?_⟩
  rintro ⟨⟨p, hp, -⟩, -⟩
  exact absurd (show (none : Option Proposal) = some p from hp) nofun

/-- The change of a rule for swaps is proposed, and one validator votes each way. -/
def contested : World := (unknownRuleAmended.take 3).foldl threeValidators.step genesis

/-- The deciding vote. -/
def decidingVote : EStateM.Result Error World Proposal :=
  threeValidators.vote "gov_~sl1e_alice:AMEND_RU" "validator-C" "ACCEPT" (.str "") ⟨3, 3⟩ contested

/-- How many have voted on the proposal, and its state. -/
def ballot (w : World) : Option (Nat × ProposalState) :=
  (w.proposal? "gov_~sl1e_alice:AMEND_RU").map fun p => (p.votes.length, p.state)

/-- What a call that throws leaves of the ballot. -/
def leftBallot : EStateM.Result Error World Proposal → Option (Option (Nat × ProposalState))
  | .error _ w' => some (ballot w')
  | .ok _ _ => none

/-- There is no policy for swaps: the deciding vote throws, and the vote and the ratification stay. -/
theorem deciding_vote_leaves_ratified : ∃ err w', decidingVote = .error err w' ∧
    ballot contested = some (2, .VOTING) ∧ ballot w' = some (3, .RATIFIED) ∧ ¬ Untouched contested w' := by
  have hbefore : ballot contested = some (2, .VOTING) := by decide +kernel
  have hleft : leftBallot decidingVote = some (some (3, .RATIFIED)) := by decide +kernel
  cases h : decidingVote with
  | ok p w' =>
    rw [h] at hleft
    cases hleft
  | error err w' =>
    rw [h] at hleft
    have hafter : ballot w' = some (3, .RATIFIED) := Option.some.inj hleft
    refine ⟨err, w', rfl, hbefore, hafter, fun huntouched => ?_⟩
    have hsame : ballot w' = ballot contested := by
      unfold ballot World.proposal? World.proposals
      rw [huntouched.governance]
    rw [hbefore, hafter] at hsame
    cases hsame

end SimpleL1.Settlement.GovernanceEngine
