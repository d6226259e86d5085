import SimpleL1.Lib.Assoc
import SimpleL1.Js.Replacer
import SimpleL1.Node.Platform
import SimpleL1.Realm.Registry
import Mathlib.Data.List.Sort

/-!
# The federation registry

Subnetworks with constitutions of their own, under one root that is computed anew whenever
a subnetwork is registered, gets a new constitution or changes its status. A receipt is
verified against the history of epochs that the registry keeps of the subnetwork.
-/

namespace SimpleL1.Settlement

open SimpleL1.Js SimpleL1.Lib

/-- `localeCompare`, a total order on texts. -/
structure Collation where
  le : String → String → Bool
  total : ∀ a b, le a b = true ∨ le b a = true
  trans : ∀ a b c, le a b = true → le b c = true → le a c = true
  antisymm : ∀ a b, le a b = true → le b a = true → a = b

structure EpochRecord where
  epoch : Number
  constitution_root : Option String
  proposal_id : Option Json
  recorded_at : String

/-- The parameters of a registration. -/
structure SubnetInput where
  subnet_id : String
  name : Option Json
  description : Option Json
  constitution_root : Option String
  constitution_version : Option Json
  validator_set : Option Json
  quorum : Option Json
  settlement_networks : Option Json
  assets : Option Json
  metadata : Option Json

structure Subnet where
  subnet_id : String
  name : Option Json
  description : Option Json
  status : String
  status_reason : Option String
  /-- `null` until the governance engine fills it in. -/
  constitution_root : Option String
  constitution_version : Json
  constitutional_epoch : Number
  validator_set : Json
  quorum : Json
  settlement_networks : Json
  assets : Json
  metadata : Json
  registered_at : String
  last_updated_at : String
  epoch_history : List EpochRecord

structure Federation where
  subnets : List (String × Subnet)
  federation_root : String
  created_at : String

/-- The registry with its platform and its persistence callback. -/
structure FederationRegistry where
  platform : Node.Platform
  collation : Collation
  saveLedger : Federation → JsM Unit

namespace FederationRegistry

/-! ## The root -/

def statusNames : List String := ["ACTIVE", "PAUSED", "SUSPENDED", "PROPOSED"]

/-- The root, where it is neither `null` nor empty. -/
def Subnet.root (s : Subnet) : Option String := s.constitution_root.filter (· ≠ "")

/-- The active subnets with a constitution root. -/
def committing (subnets : List (String × Subnet)) : List Subnet :=
  (subnets.map Prod.snd).filter fun s => s.status = "ACTIVE" && (Subnet.root s).isSome

/-- `${s.subnet_id}:${s.constitution_root}:${s.constitutional_epoch}` -/
def spell (s : Subnet) : String :=
  s.subnet_id ++ ":" ++ s.constitution_root.getD "null" ++ ":" ++ s.constitutional_epoch.toString

variable (e : FederationRegistry)

def sorted (subnets : List Subnet) : List Subnet :=
  subnets.insertionSort fun a b => e.collation.le a.subnet_id b.subnet_id

def activeRoots (subnets : List (String × Subnet)) : String :=
  "|".intercalate ((e.sorted (committing subnets)).map spell)

def rootOf (subnets : List (String × Subnet)) : String :=
  if e.activeRoots subnets = "" then "genesis" else e.platform.sha256 (e.activeRoots subnets)

/-- `_recomputeFederationRoot()` -/
def recompute (f : Federation) : Federation := { f with federation_root := e.rootOf f.subnets }

/-! ## Subnets

What is written through a name that objects inherit lands on a built-in and on no subnet;
the calls below report such a name as not found. -/

def primaryId : String := "simple-l1-primary"

def genesisSubnet (now : Int) : Subnet where
  subnet_id := primaryId
  name := some (.str "Simple L1 Primary")
  description := some (.str "Genesis subnet — the originating constitutional network")
  status := "ACTIVE"
  status_reason := none
  constitution_root := none
  constitution_version := .str "1.0"
  constitutional_epoch := .int 0
  validator_set := .arr []
  quorum := .obj [("numerator", .num (.int 2)), ("denominator", .num (.int 3))]
  settlement_networks := .arr (["ethereum", "base", "arbitrum", "polygon", "bsc", "optimism", "bitcoin",
    "ton", "solana"].map Json.str)
  assets := .arr (["ETH", "USDT", "USDC", "WBTC", "BTC", "MATIC", "BNB", "TON", "SOL"].map Json.str)
  metadata := .obj [("genesis", .bool true)]
  registered_at := e.platform.isoDate now
  last_updated_at := e.platform.isoDate now
  epoch_history := []

/-- The constructor on a ledger without a federation. -/
def start (now : Int) : Federation :=
  e.recompute ⟨[(primaryId, e.genesisSubnet now)], "null", e.platform.isoDate now⟩

def newSubnet (now : Int) (input : SubnetInput) : Subnet where
  subnet_id := input.subnet_id
  name := input.name
  description := input.description
  status := "ACTIVE"
  status_reason := none
  constitution_root := input.constitution_root
  constitution_version := Node.orElse input.constitution_version (.str "1.0")
  constitutional_epoch := .int 0
  validator_set := Node.orElse input.validator_set (.arr [])
  quorum := Node.orElse input.quorum (.obj [("numerator", .num (.int 2)), ("denominator", .num (.int 3))])
  settlement_networks := Node.orElse input.settlement_networks (.arr [])
  assets := Node.orElse input.assets (.arr [])
  metadata := input.metadata.getD (.obj [])
  registered_at := e.platform.isoDate now
  last_updated_at := e.platform.isoDate now
  epoch_history := [⟨.int 0, input.constitution_root, none, e.platform.isoDate now⟩]

/-- A name that objects inherit is found in `subnets` as well. -/
def registered (f : Federation) (subnet_id : String) : Bool :=
  (Assoc.find subnet_id f.subnets).isSome || subnet_id ∈ Realm.objectPrototypeKeys

def setSubnet (f : Federation) (subnet : Subnet) : Federation :=
  e.recompute { f with subnets := Assoc.insert subnet.subnet_id subnet f.subnets }

/-- The state is written before the ledger is saved. -/
def saving (f : Federation) (subnet : Subnet) : Federation × JsM Subnet :=
  (f, (e.saveLedger f).map fun _ => subnet)

def registerSubnet (now : Int) (input : SubnetInput) (f : Federation) : Federation × JsM Subnet :=
  if registered f input.subnet_id then
    (f, .error (.error ("Subnet already registered: " ++ input.subnet_id)))
  else
    e.saving (e.setSubnet f (e.newSubnet now input)) (e.newSubnet now input)

def notFound (subnet_id : String) : Error := .error ("Subnet not found: " ++ subnet_id)

def updateSubnetConstitution (now : Int) (subnet_id new_constitution_root : String) (new_epoch : Number)
    (proposal_id : Option Json) (f : Federation) : Federation × JsM Subnet :=
  match Assoc.find subnet_id f.subnets with
  | none => (f, .error (notFound subnet_id))
  | some subnet =>
    let subnet := { subnet with
      constitution_root := some new_constitution_root
      constitutional_epoch := new_epoch
      last_updated_at := e.platform.isoDate now
      epoch_history := subnet.epoch_history ++
        [⟨new_epoch, some new_constitution_root, proposal_id, e.platform.isoDate now⟩] }
    e.saving (e.setSubnet f subnet) subnet

def setSubnetStatus (now : Int) (subnet_id status reason : String) (f : Federation) :
    Federation × JsM Subnet :=
  match Assoc.find subnet_id f.subnets with
  | none => (f, .error (notFound subnet_id))
  | some subnet =>
    if status ∈ statusNames ∨ status ∈ Realm.objectPrototypeKeys then
      let subnet := { subnet with
        status, status_reason := some reason, last_updated_at := e.platform.isoDate now }
      e.saving (e.setSubnet f subnet) subnet
    else
      (f, .error (.error ("Invalid status: " ++ status)))

inductive Op where
  | registerSubnet (input : SubnetInput)
  | updateSubnetConstitution (subnet_id new_constitution_root : String) (new_epoch : Number)
      (proposal_id : Option Json)
  | setSubnetStatus (subnet_id status reason : String)

/-- One operation at its time. -/
def step (f : Federation) (op : Int × Op) : Federation :=
  match op.2 with
  | .registerSubnet input => (e.registerSubnet op.1 input f).1
  | .updateSubnetConstitution subnet_id root epoch proposal_id =>
    (e.updateSubnetConstitution op.1 subnet_id root epoch proposal_id f).1
  | .setSubnetStatus subnet_id status reason => (e.setSubnetStatus op.1 subnet_id status reason f).1

/-! ## Receipts -/

structure SubnetVerdict where
  valid : Bool
  subnet_id : Option String
  epoch : Option Json
  expected_root : Option Json
  receipt_root : Option Json
  reason : Option String

def EpochRecord.root (r : EpochRecord) : Json := (r.constitution_root.map Json.str).getD .null

def verifyReceiptSubnet (f : Federation) (receipt : Record) (subnet_id : String) : JsM SubnetVerdict :=
  match Assoc.find subnet_id f.subnets with
  | none => .ok ⟨false, none, none, none, none, some ("Subnet not found: " ++ subnet_id)⟩
  | some subnet =>
    let constitutional_epoch := receipt.get "constitutional_epoch"
    let constitution_root := receipt.get "constitution_root"
    if constitutional_epoch.isNone then
      .ok ⟨false, none, none, none, none, some "Receipt missing constitutional context"⟩
    else
      match subnet.epoch_history.find? fun r => strictEq (some (.num r.epoch)) constitutional_epoch with
      | none => do
        let epoch ← toStr constitutional_epoch
        return ⟨false, none, none, none, none,
          some ("No epoch " ++ epoch ++ " record for subnet " ++ subnet_id)⟩
      | some epochRecord =>
        let rootMatch := strictEq (some (EpochRecord.root epochRecord)) constitution_root
        .ok ⟨rootMatch, some subnet_id, constitutional_epoch, some (EpochRecord.root epochRecord),
          constitution_root, if rootMatch then none else some "Constitution root mismatch for this epoch"⟩

end FederationRegistry

end SimpleL1.Settlement
