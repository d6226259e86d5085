import SimpleL1.Js.Json
import SimpleL1.Lib.Groups

/-!
# Merging mesh observations

Devices observe the state of an identity, its controller bindings, revocations of them and
proposals for new ones. A merge selects a state and says how the bindings and proposals stand.
-/

namespace SimpleL1.Mesh

open SimpleL1.Js SimpleL1.Lib

def MESH_OBSERVATION_OUTPUT : String := "mesh_observation"

/-- An observation; a property that is absent or `null` is `none`. -/
structure Observation where
  device_key_l1_address : Option String := none
  source : Option String := none
  sequence : Option Int := none
  observed_epoch : Option Int := none
  state_hash : Option String := none
  provider_state_proof : Option Json := none
  binding_id : Option String := none
  status : Option String := none
  revocation_id : Option String := none
  proposal_id : Option String := none

structure MergedState where
  output_type : String
  selected_state_hash : Option String
  binding_status : Option String
  proposal_status : Option String
  replay_detected : Bool
  conflict : Bool
  authority_grant_created : Bool
  deriving DecidableEq, Repr

/-- `s || null`. -/
def nonEmpty (s : Option String) : Option String := s.filter (· ≠ "")

def filled (s : Option String) : Bool := (nonEmpty s).isSome

/-- `Number(n || 0)`. -/
def numberOf (n : Option Int) : Int := n.getD 0

namespace Observation

variable (o : Observation)

/-- `item.device_key_l1_address || item.source || 'unknown'`. -/
def deviceKey : String := ((nonEmpty o.device_key_l1_address).or (nonEmpty o.source)).getD "unknown"

def fromProvider : Bool := o.source = some "provider" || truthy o.provider_state_proof

def isState : Bool := filled o.state_hash

def isActiveBinding : Bool := filled o.binding_id && filled o.status && !filled o.revocation_id

def isRevocation : Bool := filled o.revocation_id

def isProposal : Bool := filled o.proposal_id

end Observation

def selectedByMonotonicSequence (items : List Observation) : Option Observation :=
  highest (fun o => numberOf o.sequence) items

def selectedByProviderDominance (items : List Observation) : Option Observation :=
  match items.find? Observation.fromProvider with
  | some provider => some provider
  | none => highest (fun o => numberOf o.observed_epoch) items

/-- The selection of every device. -/
def selectedByDevice (stateObservations : List Observation) : List Observation :=
  ((groupsBy Observation.deviceKey stateObservations).entries.map Prod.snd).filterMap
    selectedByMonotonicSequence

def selectedState (observations : List Observation) : Option Observation :=
  let stateObservations := observations.filter Observation.isState
  let selected := selectedByDevice stateObservations
  selectedByProviderDominance (if selected.length ≠ 0 then selected else stateObservations)

/-- `Math.min(...ns) < Math.max(...ns)` of more than one number. -/
def differ (ns : List Int) : Bool :=
  1 < ns.length && match ns.min?, ns.max? with
    | some lo, some hi => lo < hi
    | _, _ => false

def activeBindings (observations : List Observation) : List Observation :=
  observations.filter Observation.isActiveBinding

def revokedBindingIds (observations : List Observation) : List (Option String) :=
  (observations.filter Observation.isRevocation).map (·.binding_id)

def proposalsOf (observations : List Observation) : List Observation :=
  observations.filter Observation.isProposal

def replayDetected (proposals : List Observation) : Bool :=
  ((groupsBy Observation.proposal_id proposals).entries.map Prod.snd).any fun items =>
    differ (items.map fun o => numberOf o.sequence)

/-- `proposals.find((proposal) => proposal.status === 'approved') || proposals[0] || null`. -/
def selectedProposal (proposals : List Observation) : Option Observation :=
  (proposals.find? fun o => o.status = some "approved").or proposals.head?

/-- `selected?.state_hash || null`. -/
def selectedHash (observations : List Observation) : Option String :=
  nonEmpty ((selectedState observations).bind (·.state_hash))

/-- `statuses.size > 1`. -/
def conflictOf (observations : List Observation) : Bool :=
  1 < (((activeBindings observations).map (·.status)).dedup).length

/-- There is a `revokedBinding`. -/
def revokedOf (observations : List Observation) : Bool :=
  (activeBindings observations).any fun o => (revokedBindingIds observations).contains o.binding_id

def bindingStatus (observations : List Observation) : Option String :=
  if revokedOf observations then some "revoked"
  else if conflictOf observations then none
  else nonEmpty ((activeBindings observations).head?.bind (·.status))

def proposalStatus (proposals : List Observation) : Option String :=
  nonEmpty ((selectedProposal proposals).bind (·.status))

def mergeIdentityStateObservations (observations : List Observation) : MergedState where
  output_type := MESH_OBSERVATION_OUTPUT
  selected_state_hash := selectedHash observations
  binding_status := bindingStatus observations
  proposal_status := proposalStatus (proposalsOf observations)
  replay_detected := replayDetected (proposalsOf observations)
  conflict := conflictOf observations
  authority_grant_created := false

end SimpleL1.Mesh
