import Mathlib
import SimpleL1.Lib.SortedMap
import SimpleL1.Lib.Effect

/-!
# The intent kernel

A state holds the balance and the nonce of every account. An intent names the
account that signed it; `apply` checks the signature and the nonce, executes the
action on a copy of the accounts and commits the copy. A counter that overflows
is a panic, and so is a state too large to be serialized.
-/

namespace SimpleL1.Kernel

open SimpleL1.Lib SimpleL1.Lib.Effect

/-! ## Bytes -/

abbrev Byte := Fin 256

scoped instance byteNeZero : NeZero 256 := ⟨by decide⟩

/-- An array of `n` bytes. -/
structure Bytes (n : Nat) where
  val : List Byte
  length_val : val.length = n

theorem Bytes.val_injective {n : Nat} : Function.Injective (Bytes.val (n := n)) := by
  rintro ⟨bytes, h⟩ ⟨bytes', h'⟩ rfl
  rfl

/-- Arrays are ordered lexicographically. -/
instance linearOrderBytes (n : Nat) : LinearOrder (Bytes n) :=
  @LinearOrder.lift' _ _ (@List.instLinearOrder _ Fin.instLinearOrder) Bytes.val Bytes.val_injective

abbrev Address := Bytes 20

abbrev Hash := Bytes 32

/-- The last `k` bytes of the number, the lowest first. -/
def toLe : Nat → Nat → List Byte
  | 0, _ => []
  | k + 1, n => Fin.ofNat 256 n :: toLe k (n / 256)

def ofLe : List Byte → Nat
  | [] => 0
  | b :: bs => b.val + 256 * ofLe bs

def borshU64 (n : UInt64) : List Byte := toLe 8 n.toNat

/-- The length in four bytes, then the bytes. -/
def borshBytes (bytes : List Byte) : Option (List Byte) :=
  if bytes.length < 2 ^ 32 then some (toLe 4 bytes.length ++ bytes) else none

def borshString (s : String) : Option (List Byte) :=
  borshBytes (s.toUTF8.data.toList.map UInt8.toFin)

/-- The hash function, and whether a text bears a signature by a key. -/
structure Primitives where
  blake3 : List Byte → Hash
  verifies : (pubkey message signature : List Byte) → Bool

/-! ## States and intents -/

structure AccountState where
  balance : UInt64
  nonce : UInt64
  deriving DecidableEq

structure State where
  accounts : SortedMap Address AccountState
  ledgerHeight : UInt64

structure Intent where
  domain : String
  action : String
  payload : List Byte
  nonce : UInt64
  signer : Address
  pubkey : List Byte
  signature : List Byte
  deriving DecidableEq

structure TransferPayload where
  toAddress : Address
  amount : UInt64

inductive KernelError where
  | invalidSignature
  | addressMismatch
  | invalidNonce (expected received : UInt64)
  | unknownDomain (domain : String)
  | unknownAction (action : String)
  | malformedPayload (reason : String)
  | insufficientFunds (required available : UInt64)
  | mathOverflow
  deriving DecidableEq

/-- How a computation ends without a result. -/
inductive Abort where
  | err (e : KernelError)
  | panic (message : String)
  deriving DecidableEq

abbrev KernelM := EStateM Abort State

/-- `?`. -/
def attempt {α : Type} (x : Except KernelError α) : KernelM α := lift (x.mapError .err)

/-! ## Checks and actions -/

def canonicalBytes (intent : Intent) : Option (List Byte) := do
  let domain ← borshString intent.domain
  let action ← borshString intent.action
  let payload ← borshBytes intent.payload
  return domain ++ action ++ payload ++ borshU64 intent.nonce ++ intent.signer.val

def verifyCryptography (p : Primitives) (intent : Intent) : Except KernelError Unit :=
  if (p.blake3 intent.pubkey).val.take 20 ≠ intent.signer.val then .error .addressMismatch
  else
    match canonicalBytes intent with
    | none => .error (.malformedPayload "invalid data")
    | some bytes =>
      if p.verifies intent.pubkey bytes intent.signature then .ok () else .error .invalidSignature

def checkedSub (a b : UInt64) : Option UInt64 := if b ≤ a then some (a - b) else none

def checkedAdd (a b : UInt64) : Option UInt64 :=
  if a.toNat + b.toNat < 2 ^ 64 then some (a + b) else none

/-- The arguments of a transfer: an address and an amount, and nothing after them. -/
def transferPayload (bytes : List Byte) : Except KernelError TransferPayload :=
  if h : bytes.length < 28 then .error (.malformedPayload "Unexpected length of input")
  else if bytes.length > 28 then .error (.malformedPayload "Not all bytes read")
  else
    .ok { toAddress := ⟨bytes.take 20, List.length_take_of_le (Nat.le_trans (by decide) (Nat.le_of_not_lt h))⟩
          amount := .ofNat (ofLe (bytes.drop 20)) }

abbrev Accounts := SortedMap Address AccountState

def transfer (accounts : Accounts) (signer : Address) (args : TransferPayload) :
    Except KernelError Accounts :=
  match accounts.find signer with
  | none => .error (.insufficientFunds args.amount 0)
  | some sender =>
    if sender.balance < args.amount then .error (.insufficientFunds args.amount sender.balance)
    else
      match checkedSub sender.balance args.amount with
      | none => .error .mathOverflow
      | some newSenderBalance =>
        let accounts := accounts.insert signer { sender with balance := newSenderBalance }
        let recipient := (accounts.find args.toAddress).getD ⟨0, 0⟩
        match checkedAdd recipient.balance args.amount with
        | none => .error .mathOverflow
        | some balance => .ok (accounts.insert args.toAddress { recipient with balance })

def executeSystemDomain (accounts : Accounts) (intent : Intent) : Except KernelError Accounts :=
  if intent.action = "transfer" then do transfer accounts intent.signer (← transferPayload intent.payload)
  else .error (.unknownAction intent.action)

def State.routeAndExecute (s : State) (intent : Intent) : Except KernelError Accounts :=
  if intent.domain = "simple_l1::system" then executeSystemDomain s.accounts intent
  else .error (.unknownDomain intent.domain)

def State.getNonce (s : State) (a : Address) : UInt64 :=
  ((s.accounts.find a).map AccountState.nonce).getD 0

/-! ## The pipeline -/

/-- `n + 1`, with overflow checks. -/
def increment (n : UInt64) : Except Abort UInt64 :=
  if n.toNat + 1 < 2 ^ 64 then .ok (n + 1) else .error (.panic "attempt to add with overflow")

def stateBytes (s : State) : Option (List Byte) :=
  if s.accounts.entries.length < 2 ^ 32 then
    some (toLe 4 s.accounts.entries.length
      ++ s.accounts.entries.flatMap (fun e => e.1.val ++ borshU64 e.2.balance ++ borshU64 e.2.nonce)
      ++ borshU64 s.ledgerHeight)
  else none

def State.rootHash (p : Primitives) (s : State) : Except Abort Hash :=
  match stateBytes s with
  | none => .error (.panic "State serialization must not fail")
  | some bytes => .ok (p.blake3 bytes)

/-- The nonce of the account goes up by one. -/
def incrementNonce (signer : Address) : KernelM Unit := do
  let s ← get
  match s.accounts.find signer with
  | none => return
  | some account =>
    let nonce ← lift (increment account.nonce)
    set { s with accounts := s.accounts.insert signer { account with nonce } }

def incrementHeight : KernelM Unit := do
  let s ← get
  let ledgerHeight ← lift (increment s.ledgerHeight)
  set { s with ledgerHeight }

/-- `State::apply`. -/
def apply (p : Primitives) (intent : Intent) : KernelM Hash := do
  attempt (verifyCryptography p intent)
  let currentNonce := (← get).getNonce intent.signer
  if intent.nonce ≠ currentNonce then
    throw (.err (.invalidNonce currentNonce intent.nonce))
  let accounts ← attempt ((← get).routeAndExecute intent)
  modify fun s => { s with accounts }
  incrementNonce intent.signer
  incrementHeight
  reading (State.rootHash p)

end SimpleL1.Kernel
