import SimpleL1.Lib.Assoc
import SimpleL1.Lib.Effect
import SimpleL1.Node.Platform
import SimpleL1.Realm.Pipeline

/-!
# The ledger of a node

`Ledger` is the ledger `server.js` keeps in memory, beside the files it is saved
to. Accounts are objects under their address; the other stores are lists of
artifacts, each an object; the authority projection is there from the first
moment on, as the code sets it up with the ledger. A computation on the node may throw, and what it has
written by then stays written.
-/

namespace SimpleL1.Node

open SimpleL1.Js SimpleL1.Lib SimpleL1.Lib.Effect

/-! ## The state -/

/-- The stores that hold artifacts. -/
inductive Store where
  | capabilities
  | control_grants
  | authorizations
  | revocations
  | capability_grants
  | intent_approvals
  | controller_bindings
  | controller_binding_proposals
  | policy_evaluations
  | policy_decisions
  | external_proofs
  | normalized_facts
  | verification_paths
  | finality_claims
  | transactions
  | settlement_operations
  | settlement_proofs
  | marketplace_sellers
  | marketplace_listings
  deriving DecidableEq, Repr

/-- The stores that hold replay keys. -/
inductive KeyStore where
  | external_proof_replay_keys
  | settlement_idempotency_keys
  deriving DecidableEq, Repr

/-- The part of the governance record the state root covers. -/
structure Governance where
  constitution_root : String
  current_epoch : Nat

inductive LedgerRole where
  | primary
  | standby
  deriving DecidableEq, Repr

inductive LedgerBackend where
  | file
  | replicated
  deriving DecidableEq, Repr

structure RealmConfig where
  role : LedgerRole
  backend : LedgerBackend

/-- The files of the ledger store, read as JSON; a file that does not exist is `none`. The lines of
the event log are the events. -/
structure Disk where
  ledgerFile : Option Json
  eventLogFile : List Json
  snapshotFile : Option Json

structure Ledger where
  accounts : OrderedMap String Fields
  stores : Store → List Fields
  keyStores : KeyStore → List Json
  event_log : List Json
  current_authority_state : Realm.AuthorityState
  realm_canonical_sequence : Number
  governance : Option Governance
  state_root : Option String
  cluster_genesis : Option Json
  btc_deposits : Fields
  disk : Disk

abbrev LedgerM := EStateM Error Ledger

namespace Ledger

/-- The ledger of a process that has read nothing yet. -/
def fresh (governance : Option Governance) (disk : Disk) : Ledger where
  accounts := .empty
  stores _ := []
  keyStores _ := []
  event_log := []
  current_authority_state := Realm.emptyAuthorityState
  realm_canonical_sequence := .int 0
  governance := governance
  state_root := none
  cluster_genesis := none
  btc_deposits := []
  disk := disk

/-- The part of the ledger the realm code works on. -/
def realm (ledger : Ledger) : Realm.Ledger where
  event_log := ledger.event_log
  current_authority_state := some ledger.current_authority_state
  realm_canonical_sequence := some ledger.realm_canonical_sequence

/-- The ledger with the authority projection of `realm`. -/
def withProjection (ledger : Ledger) (realm : Realm.Ledger) : Ledger :=
  { ledger with
    current_authority_state := realm.current_authority_state.getD ledger.current_authority_state
    realm_canonical_sequence := realm.realm_canonical_sequence.getD ledger.realm_canonical_sequence }

def account (ledger : Ledger) (address : String) : Option Fields := ledger.accounts.find address

def setAccount (ledger : Ledger) (address : String) (account : Fields) : Ledger :=
  { ledger with accounts := ledger.accounts.insert address account }

def setStore (ledger : Ledger) (s : Store) (xs : List Fields) : Ledger :=
  { ledger with stores := Function.update ledger.stores s xs }

def setKeys (ledger : Ledger) (k : KeyStore) (xs : List Json) : Ledger :=
  { ledger with keyStores := Function.update ledger.keyStores k xs }

end Ledger

def readAccount (address : String) : LedgerM (Option Fields) := return (← get).account address

def writeAccount (address : String) (account : Fields) : LedgerM Unit :=
  modify fun ledger => ledger.setAccount address account

def readStore (s : Store) : LedgerM (List Fields) := return (← get).stores s

def writeStore (s : Store) (xs : List Fields) : LedgerM Unit := modify fun ledger => ledger.setStore s xs

def push (s : Store) (x : Fields) : LedgerM Unit :=
  modify fun ledger => ledger.setStore s (ledger.stores s ++ [x])

def readKeys (k : KeyStore) : LedgerM (List Json) := return (← get).keyStores k

def pushKey (k : KeyStore) (key : Json) : LedgerM Unit :=
  modify fun ledger => ledger.setKeys k (ledger.keyStores k ++ [key])

/-! ## Artifacts -/

/-- Replace the first entry with the key `k` of `x`, by `f`; an artifact with a new key goes to the
end. -/
def upsert (k : String) (x : Fields) (f : Fields → Fields) : List Fields → List Fields
  | [] => [x]
  | e :: es => if strictEq (e.get k) (x.get k) then f e :: es else e :: upsert k x f es

def upsertById (s : Store) (artifact : Fields) : LedgerM Unit :=
  modify fun ledger => ledger.setStore s (upsert "id" artifact (fun _ => artifact) (ledger.stores s))

def upsertByKey (s : Store) (key : String) (item : Fields) : LedgerM Unit :=
  modify fun ledger => ledger.setStore s (upsert key item (merge · item) (ledger.stores s))

/-- `xs.find((candidate) => candidate.id === id)`. -/
def findById (xs : List Fields) (id : Option Json) : Option Fields :=
  xs.find? fun candidate => strictEq (candidate.get "id") id

/-- `findById`, where `id` may have been copied from the artifact. -/
def findByRef (xs : List Fields) (id : Option Json) : Option Fields :=
  xs.find? fun candidate => sameRef (candidate.get "id") id

end SimpleL1.Node
