import SimpleL1.Settlement.Attestations
import SimpleL1.Settlement.Proofs
import SimpleL1.Lib.Assoc
import SimpleL1.Lib.Effect

/-!
# The governance engine

Validators vote on changes of the constitution. What a call has written to the
ledger before it throws stays written. The constitution file is read and written
as a value: what is parsed from the text `JSON.stringify` wrote is the value with
its numbers that are not finite read as `null`. Within one call the clock shows
one time. A proposal or a validator is looked up by an id that is its own, never
by the name of a member of `Object.prototype`.
-/

namespace SimpleL1.Settlement

open SimpleL1.Js SimpleL1.Lib SimpleL1.Lib.Effect

/-! ## Signing -/

/-- Signatures in hex. Signing draws a salt; the verifier takes a key and a signature as it finds
them, and may throw. -/
structure SignatureScheme where
  sign : String → String → Nat → String
  verify : Option Json → Option Json → String → Except String Bool

/-- The time of a call, and what its signature draws. -/
structure Moment where
  now : Int
  salt : Nat

/-! ## What the ledger keeps -/

inductive ProposalState where
  | PROPOSED | VOTING | RATIFIED | ENACTED | REJECTED | VETOED
  deriving DecidableEq, Repr

def ProposalState.name : ProposalState → String
  | PROPOSED => "PROPOSED"
  | VOTING => "VOTING"
  | RATIFIED => "RATIFIED"
  | ENACTED => "ENACTED"
  | REJECTED => "REJECTED"
  | VETOED => "VETOED"

inductive AmendmentType where
  | AMEND_RULE | ADD_RULE | REMOVE_RULE | ADD_POLICY | REMOVE_POLICY | PARAMETER_CHANGE
  deriving DecidableEq, Repr

namespace AmendmentType

def name : AmendmentType → String
  | AMEND_RULE => "AMEND_RULE"
  | ADD_RULE => "ADD_RULE"
  | REMOVE_RULE => "REMOVE_RULE"
  | ADD_POLICY => "ADD_POLICY"
  | REMOVE_POLICY => "REMOVE_POLICY"
  | PARAMETER_CHANGE => "PARAMETER_CHANGE"

def ofName (s : String) : Option AmendmentType :=
  [AMEND_RULE, ADD_RULE, REMOVE_RULE, ADD_POLICY, REMOVE_POLICY, PARAMETER_CHANGE].find? (·.name = s)

/-- The fields a change has to have. -/
def required : AmendmentType → List String
  | AMEND_RULE | PARAMETER_CHANGE => ["intent_type", "rule_id", "new_values"]
  | ADD_RULE => ["intent_type", "rule"]
  | REMOVE_RULE => ["intent_type", "rule_id"]
  | ADD_POLICY => ["policy"]
  | REMOVE_POLICY => ["intent_type"]

end AmendmentType

inductive Decision where
  | ACCEPT | REJECT
  deriving DecidableEq, Repr

namespace Decision

def name : Decision → String
  | ACCEPT => "ACCEPT"
  | REJECT => "REJECT"

def ofName (s : String) : Option Decision := [ACCEPT, REJECT].find? (·.name = s)

end Decision

structure Vote where
  decision : Decision
  rationale : Json
  signature : String
  voted_at : String

structure Veto where
  reason : Option Json
  vetoed_at : String

structure Proposal where
  proposal_id : String
  state : ProposalState
  amendment_type : AmendmentType
  title : Option Json
  description : Option Json
  proposer : Option Json
  change : Json
  votes : List (String × Vote)
  votes_accepted : Nat
  votes_rejected : Nat
  required_votes : Nat
  total_validators : Nat
  constitution_root_at_proposal : String
  current_epoch : Nat
  proposed_at : String
  voting_opens_at : String
  voting_closes_at : String
  enacted_at : Option String
  new_constitution_root : Option String
  new_epoch : Option Nat
  veto : Option Veto

structure Epoch where
  epoch : Nat
  constitution_root : String
  enacted_at : String
  proposal_id : String
  description : Option String
  title : Option Json
  amendment_type : Option AmendmentType

structure Snapshot where
  epoch : Nat
  constitution_root : String
  constitution : Json
  snapshot_at : String
  proposal_id : String
  title : Option Json
  amendment_type : Option AmendmentType

structure Governance where
  proposals : List (String × Proposal)
  enacted_epochs : List Epoch
  snapshots : List (Nat × Snapshot)
  current_epoch : Nat
  constitution_root : String

/-- The ledger, the constitution file and the constitution of the live interpreter. -/
structure World where
  governance : Governance
  receipts : List (String × Record)
  state_root : Option Json
  constitutionFile : Json
  dslConstitution : Json

abbrev GovernanceM := EStateM Error World

/-- The engine with its validators, its signing and its persistence callback. -/
structure GovernanceEngine where
  platform : Node.Platform
  scheme : SignatureScheme
  attestationEngine : AttestationEngine
  saveLedger : World → JsM Unit
  votingWindowMs : Int

namespace GovernanceEngine

/-- `sha256` of the text of the constitution. -/
def constitutionRoot (p : Node.Platform) (constitution : Json) : String :=
  p.sha256 (String.ofList constitution.text)

/-! ## Starting -/

/-- The constructor on a ledger without a governance record. -/
def start (p : Node.Platform) (now : Int) (constitutionFile dslConstitution : Json)
    (receipts : List (String × Record)) (state_root : Option Json) : World :=
  let initialRoot := constitutionRoot p constitutionFile
  { governance := {
      proposals := []
      enacted_epochs := [⟨0, initialRoot, p.isoDate now, "genesis", some "Genesis constitutional epoch",
        none, none⟩]
      snapshots := [(0, ⟨0, initialRoot, constitutionFile, p.isoDate now, "genesis", none, none⟩)]
      current_epoch := 0
      constitution_root := initialRoot }
    receipts, state_root, constitutionFile, dslConstitution }

/-! ## Proposing -/

def validateChange (t : AmendmentType) (change : Json) : JsM Unit :=
  t.required.forM fun field => do
    let v ← Node.member (some change) field
    throwUnless (truthy v) (.error ("Amendment change missing required field: " ++ field))

/-- What is asked for in a proposal. -/
structure ProposalInput where
  proposer : Option Json
  amendment_type : String
  title : Option Json
  description : Option Json
  change : Json

variable (e : GovernanceEngine)

/-- `Math.ceil(total * 2 / 3)`. -/
def requiredVotes : Nat := (e.attestationEngine.validators.length * 2) ⌈/⌉ 3

def proposalId (t : AmendmentType) (input : ProposalInput) (m : Moment) : JsM String := do
  let proposer ← toStr input.proposer
  let seed := proposer ++ ":" ++ t.name ++ ":" ++ String.ofList input.change.text ++ ":"
    ++ Number.toString (.int m.now)
  return "gov_" ++ Node.sliceTo 20 (e.platform.sha256 seed)

/-- The proposal that is put up for voting. -/
def newProposal (w : World) (input : ProposalInput) (m : Moment) : JsM Proposal := do
  match AmendmentType.ofName input.amendment_type with
  | none => throw (.error ("Unknown amendment type: " ++ input.amendment_type))
  | some t =>
    validateChange t input.change
    let proposal_id ← e.proposalId t input m
    let at_now := e.platform.isoDate m.now
    return {
      proposal_id
      state := .VOTING
      amendment_type := t
      title := input.title
      description := input.description
      proposer := input.proposer
      change := input.change
      votes := []
      votes_accepted := 0
      votes_rejected := 0
      required_votes := e.requiredVotes
      total_validators := e.attestationEngine.validators.length
      constitution_root_at_proposal := w.governance.constitution_root
      current_epoch := w.governance.current_epoch
      proposed_at := at_now
      voting_opens_at := at_now
      voting_closes_at := e.platform.isoDate (m.now + if e.votingWindowMs = 0 then 60000 else e.votingWindowMs)
      enacted_at := none
      new_constitution_root := none
      new_epoch := none
      veto := none }

end GovernanceEngine

namespace World

def proposals (w : World) : List (String × Proposal) := w.governance.proposals

def setProposal (w : World) (proposal_id : String) (proposal : Proposal) : World :=
  { w with governance := { w.governance with
      proposals := Assoc.insert proposal_id proposal w.governance.proposals } }

/-- `_getProposal`. -/
def getProposal (w : World) (proposal_id : String) : JsM Proposal :=
  match Assoc.find proposal_id w.proposals with
  | some proposal => return proposal
  | none => throw (.error ("Proposal not found: " ++ proposal_id))

end World

/-! ## Amending -/

/-- `xs.k` where an array method is called on the result. -/
def arrayMember (v : Json) (k method : String) : JsM (List Json) := do
  match ← Node.member (some v) k with
  | some (.arr xs) => return xs
  | none => throw (.typeError ("Cannot read properties of undefined (reading '" ++ method ++ "')"))
  | some .null => throw (.typeError ("Cannot read properties of null (reading '" ++ method ++ "')"))
  | some _ => throw (.typeError (k ++ "." ++ method ++ " is not a function"))

/-- `x.k === v`. -/
def hasMember (k : String) (v : Option Json) (x : Json) : JsM Bool :=
  (strictEq · v) <$> Node.member (some x) k

/-- Change the first entry with the value under the key; `none` if there is none. -/
def changeFirst (k : String) (v : Option Json) (f : Json → JsM Json) : List Json → JsM (Option (List Json))
  | [] => return none
  | x :: xs => do
    if ← hasMember k v x then return some ((← f x) :: xs)
    else return (x :: ·) <$> (← changeFirst k v f xs)

/-- `v.k = x` of an object. -/
def setMember (v : Json) (k : String) (x : Json) : Json := .obj (v.spread.set k x)

/-- `Object.assign(target, source)`; assigning to `__proto__` makes no field. -/
def assignAll (target source : Fields) : Fields :=
  Node.merge target (source.filter fun f => f.1 ≠ "__proto__" || (target.get "__proto__").isSome)

/-- Change the policy of the intent type in place. -/
def changePolicy (constitution : Json) (intentType : Option Json) (f : Json → JsM Json) : JsM Json := do
  let policies ← arrayMember constitution "policies" "find"
  match ← changeFirst "intent_type" intentType f policies with
  | some policies => return setMember constitution "policies" (.arr policies)
  | none => throw (.error ("Policy not found: " ++ (← toStr intentType)))

def applyChange (constitution : Json) (t : AmendmentType) (change : Json) : JsM Json :=
  match t with
  | .PARAMETER_CHANGE | .AMEND_RULE =>
    changePolicy constitution (change.prop "intent_type") fun policy => do
      let rules ← arrayMember policy "rules" "find"
      match ← changeFirst "id" (change.prop "rule_id")
          (fun rule => return .obj (assignAll rule.spread (Node.spread (change.prop "new_values")))) rules with
      | some rules => return setMember policy "rules" (.arr rules)
      | none => throw (.error ("Rule not found: " ++ (← toStr (change.prop "rule_id"))))
  | .ADD_RULE =>
    changePolicy constitution (change.prop "intent_type") fun policy => do
      let rules ← arrayMember policy "rules" "push"
      return setMember policy "rules" (.arr (rules ++ [(change.prop "rule").getD .null]))
  | .REMOVE_RULE =>
    changePolicy constitution (change.prop "intent_type") fun policy => do
      let rules ← arrayMember policy "rules" "filter"
      let kept ← Js.filter (fun rule => not <$> hasMember "id" (change.prop "rule_id") rule) rules
      return setMember policy "rules" (.arr kept)
  | .ADD_POLICY => do
    let policy := (change.prop "policy").getD .null
    let policies ← arrayMember constitution "policies" "find"
    match ← Js.find (hasMember "intent_type" (policy.prop "intent_type")) policies with
    | some _ => throw (.error ("Policy already exists: " ++ (← toStr (policy.prop "intent_type"))))
    | none => return setMember constitution "policies" (.arr (policies ++ [policy]))
  | .REMOVE_POLICY => do
    let policies ← arrayMember constitution "policies" "filter"
    let kept ← Js.filter (fun policy => not <$> hasMember "intent_type" (change.prop "intent_type") policy)
      policies
    return setMember constitution "policies" (.arr kept)

/-- `s.split('.')`. -/
def splitDots (s : String) : List String := (s.splitOn ".")

/-- `${major}.${minor}.${(patch || 0) + 1}`. -/
def nextVersion (version : String) : String :=
  let parts := (splitDots version).map Number.ofString
  let shown (i : Nat) : String := (parts[i]?.map Number.toString).getD "undefined"
  let patch : Number := ((parts[2]?).filter Number.truthy).getD (.int 0)
  shown 0 ++ "." ++ shown 1 ++ "." ++ patch.succ.toString

/-- The version and the log, as far as they can be brought up to date. -/
def versionAndLog (constitution : Json) : JsM (String × List Json) := do
  let version ← match Js.or (constitution.prop "version") (some (.str "1.0")) with
    | some (.str version) => pure version
    | _ => throw (.typeError "(constitution.version || \"1.0\").split is not a function")
  let log ← match Js.or (constitution.prop "amendment_log") (some (.arr [])) with
    | some (.arr log) => pure log
    | _ => throw (.typeError "constitution.amendment_log.push is not a function")
  return (version, log)

/-- The changed constitution with its version, its date and its log brought up to date. -/
def stampConstitution (enactedAt : String) (proposal : Proposal) (epoch : Nat) (constitution : Json) :
    JsM Json := do
  let (version, log) ← versionAndLog constitution
  let entry := Json.obj (Fields.ofOptions [("proposal_id", some (.str proposal.proposal_id)),
    ("amendment_type", some (.str proposal.amendment_type.name)), ("title", proposal.title),
    ("enacted_at", some (.str enactedAt)), ("epoch", some (.num (.int epoch)))])
  return setMember (setMember (setMember constitution "version" (.str (nextVersion version)))
    "last_amended" (.str enactedAt)) "amendment_log" (.arr (log ++ [entry]))

namespace GovernanceEngine

variable (e : GovernanceEngine)

/-- The constitution that enacting the proposal makes of the one on file. -/
def amended (w : World) (proposal : Proposal) (m : Moment) : JsM Json := do
  let constitution ← applyChange w.constitutionFile proposal.amendment_type proposal.change
  stampConstitution (e.platform.isoDate m.now) proposal (w.governance.current_epoch + 1) constitution

/-- What enacting the proposal writes. -/
def enacted (w : World) (proposal : Proposal) (m : Moment) (constitution : Json) : World :=
  let newRoot := constitutionRoot e.platform constitution
  let newEpoch := w.governance.current_epoch + 1
  let enactedAt := e.platform.isoDate m.now
  { w with
    constitutionFile := constitution.written
    dslConstitution := constitution
    governance := {
      proposals := Assoc.insert proposal.proposal_id { proposal with
        state := .ENACTED, enacted_at := some enactedAt, new_constitution_root := some newRoot,
        new_epoch := some newEpoch } w.governance.proposals
      enacted_epochs := w.governance.enacted_epochs ++ [⟨newEpoch, newRoot, enactedAt,
        proposal.proposal_id, none, proposal.title, some proposal.amendment_type⟩]
      snapshots := Assoc.insert newEpoch ⟨newEpoch, newRoot, constitution.written, enactedAt,
        proposal.proposal_id, proposal.title, some proposal.amendment_type⟩ w.governance.snapshots
      current_epoch := newEpoch
      constitution_root := newRoot } }

/-- `_buildIndex`, as far as it throws. -/
def buildIndex (constitution : Json) : JsM Unit := do
  let policies ← arrayMember constitution "policies" "forEach"
  policies.forM fun policy => do
    let _ ← toStr (← Node.member (some policy) "intent_type")

def enact (proposal : Proposal) (m : Moment) : GovernanceM Unit := do
  let constitution ← reading fun w => e.amended w proposal m
  modify (e.enacted · proposal m constitution)
  liftM (buildIndex constitution)

def checkRatification (proposal : Proposal) (m : Moment) : GovernanceM Unit :=
  if proposal.required_votes ≤ proposal.votes_accepted then do
    let ratified := { proposal with state := .RATIFIED }
    modify (·.setProposal proposal.proposal_id ratified)
    e.enact ratified m
  -- `votes_rejected > total_validators - required_votes`
  else if proposal.total_validators < proposal.votes_rejected + proposal.required_votes then
    modify (·.setProposal proposal.proposal_id { proposal with state := .REJECTED })
  else pure ()

/-! ## The calls -/

def propose (input : ProposalInput) (m : Moment) : GovernanceM Proposal := do
  let proposal ← reading fun w => e.newProposal w input m
  modify (·.setProposal proposal.proposal_id proposal)
  reading e.saveLedger
  return proposal

/-- The text that is signed with a vote. -/
def voteMessage (proposal_id validator_id : String) (decision : Decision) (rationale : Json)
    (votedAt : String) : String :=
  String.ofList (Json.obj [("proposal_id", .str proposal_id), ("validator_id", .str validator_id),
    ("decision", .str decision.name), ("rationale", rationale), ("voted_at", .str votedAt)]).text

/-- The proposal with one more vote. -/
def cast (proposal : Proposal) (validator_id : String) (v : Vote) : Proposal :=
  let voted := { proposal with votes := Assoc.insert validator_id v proposal.votes }
  match v.decision with
  | .ACCEPT => { voted with votes_accepted := proposal.votes_accepted + 1 }
  | .REJECT => { voted with votes_rejected := proposal.votes_rejected + 1 }

/-- The proposal with the vote counted, if the vote may be cast. -/
def admitVote (w : World) (proposal_id validator_id decision : String) (rationale : Json) (m : Moment) :
    JsM Proposal := do
  let proposal ← w.getProposal proposal_id
  throwUnless (proposal.state = .VOTING)
    (.error ("Proposal " ++ proposal_id ++ " is not open for voting (state: " ++ proposal.state.name ++ ")"))
  throwUnless (Assoc.find validator_id proposal.votes).isNone
    (.error ("Validator " ++ validator_id ++ " already voted on proposal " ++ proposal_id))
  match Decision.ofName decision with
  | none => throw (.error ("Invalid vote decision: " ++ decision))
  | some d =>
    match e.attestationEngine.validators.find? (·.validator_id = validator_id) with
    | none => throw (.error ("Unknown validator: " ++ validator_id))
    | some validator =>
      let votedAt := e.platform.isoDate m.now
      let signature := e.scheme.sign validator.privateKey
        (voteMessage proposal_id validator_id d rationale votedAt) m.salt
      return cast proposal validator_id ⟨d, rationale, signature, votedAt⟩

def vote (proposal_id validator_id decision : String) (rationale : Json) (m : Moment) :
    GovernanceM Proposal := do
  let voted ← reading fun w => e.admitVote w proposal_id validator_id decision rationale m
  modify (·.setProposal proposal_id voted)
  e.checkRatification voted m
  reading e.saveLedger
  reading (·.getProposal proposal_id)

/-- Validators do not remove whole policies. -/
def evaluateProposalMerit (proposal : Proposal) : Decision :=
  if proposal.amendment_type = .REMOVE_POLICY then .REJECT else .ACCEPT

/-- The votes of the validators listed; `ms` are the moments of their turns. -/
def collectVotes (proposal_id : String) (decision : Decision) :
    List LocalValidator → (Nat → Moment) → GovernanceM Unit
  | [], _ => pure ()
  | validator :: validators, ms => do
    let current ← reading (·.getProposal proposal_id)
    if current.state ≠ .VOTING then pure ()
    else if (Assoc.find validator.validator_id current.votes).isSome then
      collectVotes proposal_id decision validators fun i => ms (i + 1)
    else do
      let _ ← e.vote proposal_id validator.validator_id decision.name
        (.str "Automatic constitutional evaluation") (ms 0)
      collectVotes proposal_id decision validators fun i => ms (i + 1)

def collectLocalVotes (proposal_id : String) (ms : Nat → Moment) : GovernanceM Proposal := do
  let proposal ← reading (·.getProposal proposal_id)
  e.collectVotes proposal_id (evaluateProposalMerit proposal) e.attestationEngine.validators ms
  reading (·.getProposal proposal_id)

def veto (proposal_id : String) (reason : Option Json) (m : Moment) : GovernanceM Proposal := do
  let proposal ← reading (·.getProposal proposal_id)
  if proposal.state = .ENACTED ∨ proposal.state = .VETOED then
    throw (.error ("Cannot veto proposal in state: " ++ proposal.state.name))
  else do
    modify (·.setProposal proposal_id
      { proposal with state := .VETOED, veto := some ⟨reason, e.platform.isoDate m.now⟩ })
    reading e.saveLedger
    reading (·.getProposal proposal_id)

/-! ## Runs -/

inductive Call where
  | propose (input : ProposalInput) (m : Moment)
  | vote (proposal_id validator_id decision : String) (rationale : Json) (m : Moment)
  | collectLocalVotes (proposal_id : String) (ms : Nat → Moment)
  | veto (proposal_id : String) (reason : Option Json) (m : Moment)

def perform : Call → GovernanceM Proposal
  | .propose input m => e.propose input m
  | .vote proposal_id validator_id decision rationale m => e.vote proposal_id validator_id decision rationale m
  | .collectLocalVotes proposal_id ms => e.collectLocalVotes proposal_id ms
  | .veto proposal_id reason m => e.veto proposal_id reason m

/-- What a call leaves behind, whether it returns or throws. -/
def step (w : World) (c : Call) : World := after (e.perform c) w

end GovernanceEngine

end SimpleL1.Settlement
