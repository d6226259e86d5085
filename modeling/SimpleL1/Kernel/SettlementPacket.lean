import SimpleL1.Js.NumericString
import SimpleL1.Lib.Repeats
import Mathlib.Data.List.Sort

/-!
# Settlement packets

A packet comes as a decoded JSON text. The runner checks the payload field by field,
writes it in its canonical form and counts the signatures over that text against the
quorum. What PHP prints depending on its settings is left open: the texts of floats and
the rounding of `number_format`.
-/

namespace SimpleL1.Kernel.Settlement

open SimpleL1.Js SimpleL1.Lib.Repeats

/-! ## PHP values -/

/-- A value of PHP. The keys of an array are kept as texts: `'0'` and `0` are one key. -/
inductive Php where
  | null
  | bool (b : Bool)
  | int (n : Int)
  | float (x : Number)
  | str (s : String)
  | array (entries : List (String × Php))

abbrev Entries := List (String × Php)

/-- `$entries[$key] ?? null`, where a null counts as absent. -/
def isset (entries : Entries) (key : String) : Option Php :=
  match entries.lookup key with
  | some .null | none => none
  | some v => some v

/-- A decimal text with eight places, by its hundred-millionths. -/
structure Decimal8 where
  units : Int
  deriving DecidableEq

def Decimal8.text (d : Decimal8) : String :=
  String.ofList ((if d.units < 0 then ['-'] else []) ++ Number.digits (d.units.natAbs / 10 ^ 8) ++
    '.' :: Number.padLeft 8 (Number.digits (d.units.natAbs % 10 ^ 8)))

/-- `verify($text, $signature, $publicKey)`, the domain put before the text. -/
abbrev Verify := String → String → String → Bool

/-- What stands outside the source: hashing and the printing of PHP. -/
structure Platform where
  sha256 : String → String
  /-- `json_encode` of a text. -/
  jsonText : String → String
  /-- `json_encode` of a float, which throws at an infinity. -/
  jsonFloat : Number → Option String
  /-- `(string) $float` -/
  floatText : Number → String
  /-- `number_format($float, 8, '.', '')`; nothing where `bccomp` refuses the text. -/
  numberFormat : Number → Option Decimal8

structure MpoKey where
  keyId : String
  publicKey : Php
  active : Bool

/-- What the process is started with, and the keys it finds in `mpo_keys`. -/
structure Environment where
  allowUnsigned : Bool
  /-- `(int) (getenv('MDK_SETTLEMENT_SIGNATURE_QUORUM') ?: '1')` -/
  quorumSetting : Int
  domain : String
  mpoKeys : List MpoKey

def isSpace (c : Char) : Bool := c ∈ [' ', '\t', '\n', '\r', '\x0b', '\x0c']

/-- `is_numeric` of a text, with the float it stands for. -/
def numericString (s : String) : Option Number :=
  match ((s.toList.dropWhile isSpace).reverse.dropWhile isSpace).reverse with
  | '-' :: cs => (Number.readUnsigned cs).map fun d => Number.ofDecimal true d.1 d.2
  | '+' :: cs => (Number.readUnsigned cs).map fun d => Number.ofDecimal false d.1 d.2
  | cs => (Number.readUnsigned cs).map fun d => Number.ofDecimal false d.1 d.2

/-- `(float) $v` where `is_int`, `is_float` or `is_numeric` holds. -/
def numeric : Php → Option Number
  | .int n => some (Number.ofDecimal (decide (n < 0)) n.natAbs 0)
  | .float x => some x
  | .str s => numericString s
  | _ => none

/-- `(string) $v` -/
def strval (p : Platform) : Php → String
  | .null => ""
  | .bool b => if b then "1" else ""
  | .int n => toString n
  | .float x => p.floatText x
  | .str s => s
  | .array _ => "Array"

/-! ## The canonical form -/

def isAssociative (entries : List (String × String)) : Bool :=
  entries.map Prod.fst ≠ (List.range entries.length).map toString

/-- `ksort($data, SORT_STRING)` -/
def ksort (entries : List (String × String)) : List (String × String) :=
  entries.insertionSort fun a b => a.1 ≤ b.1

mutual
/-- The parts are written before they are sorted; either order throws alike. -/
def encode (p : Platform) : Php → Except String String
  | .null => .ok "null"
  | .bool b => .ok (if b then "true" else "false")
  | .int n => .ok (toString n)
  | .float x =>
    match p.jsonFloat x with
    | some text => .ok text
    | none => .error "Inf and NaN cannot be JSON encoded"
  | .str s => .ok (p.jsonText s)
  | .array entries => do
    let parts ← encodeEntries p entries
    if isAssociative parts then
      .ok ("\x7b" ++ ",".intercalate ((ksort parts).map fun e => p.jsonText e.1 ++ ":" ++ e.2) ++ "\x7d")
    else
      .ok ("[" ++ ",".intercalate (parts.map Prod.snd) ++ "]")

def encodeEntries (p : Platform) : Entries → Except String (List (String × String))
  | [] => .ok []
  | (key, value) :: entries => do
    let text ← encode p value
    let parts ← encodeEntries p entries
    .ok ((key, text) :: parts)
end

/-! ## The payload -/

/-- What the runner reads of a payload that passed its checks. -/
structure Payload where
  keyId : String
  fiatPaymentId : String
  userId : String
  merchantId : String
  currency : String
  amountFiat : Php

def requireText (payload : Entries) (key : String) : Except String String :=
  match isset payload key with
  | some (.str s) => if s = "" then .error ("PAYLOAD: " ++ key ++ " required") else .ok s
  | _ => .error ("PAYLOAD: " ++ key ++ " required")

/-- `array_key_exists($key, $intent)` -/
def requireKey (intent : Entries) (key : String) : Except String Php :=
  match intent.lookup key with
  | some v => .ok v
  | none => .error ("PAYLOAD: intent." ++ key ++ " required")

def isOwnerChar (c : Char) : Bool := c.isAlphanum || c ∈ ['.', '_', '@', '-']

/-- `preg_match('/^[a-zA-Z0-9._@-]+$/', $value)`; the `$` stands before a last line feed too. -/
def matchesOwnerToken (value : String) : Bool :=
  let cs := if value.toList.getLast? = some '\n' then value.toList.dropLast else value.toList
  !cs.isEmpty && cs.all isOwnerChar

def assertSafeOwnerToken (value field : String) : Except String Unit :=
  if 128 < value.utf8ByteSize then .error ("PAYLOAD: " ++ field ++ " too long")
  else if matchesOwnerToken value then .ok ()
  else .error ("PAYLOAD: " ++ field ++ " has invalid characters")

def validatePayload (p : Platform) (payload : Entries) (signatureRaw : Option Php)
    (allowUnsigned : Bool) : Except String Payload := do
  if !allowUnsigned && signatureRaw.isNone then
    throw "SIGNATURE: missing signature"
  let keyId ← requireText payload "key_id"
  let fiatPaymentId ← requireText payload "fiat_payment_id"
  let _nonce ← requireText payload "nonce"
  let intent ← match isset payload "intent" with
    | some (.array intent) => pure intent
    | _ => throw "PAYLOAD: missing intent"
  let merchantId ← requireKey intent "merchant_id"
  let rawAmount ← requireKey intent "amount_fiat"
  let currency ← requireKey intent "currency"
  let amount ← match numeric rawAmount with
    | some amount => pure amount
    | none => throw "PAYLOAD: intent.amount_fiat must be numeric"
  if amount.le (.int 0) then
    throw "PAYLOAD: intent.amount_fiat must be > 0"
  let currency ← match currency with
    | .str currency =>
      if currency.utf8ByteSize = 3 then pure currency
      else throw "PAYLOAD: intent.currency must be ISO 4217 length 3"
    | _ => throw "PAYLOAD: intent.currency must be ISO 4217 length 3"
  let userId ← requireText payload "user_id"
  assertSafeOwnerToken (strval p merchantId) "merchant_id"
  assertSafeOwnerToken userId "user_id"
  return ⟨keyId, fiatPaymentId, userId, strval p merchantId, currency, rawAmount⟩

/-! ## The signatures -/

def normalizeSignatures : Option Php → List String
  | some (.str raw) => [raw]
  | some (.array entries) => entries.filterMap fun e =>
      match e.2 with
      | .str s => if s = "" then none else some s
      | _ => none
  | _ => []

/-- `SELECT public_key FROM mpo_keys WHERE key_id = ? AND status = 'active' LIMIT 1` -/
def activeKey (keys : List MpoKey) (keyId : String) : Option Php :=
  (keys.find? fun key => key.keyId == keyId && key.active).map MpoKey.publicKey

/-- The loop that counts: one for every entry that verifies. -/
def countValid (verifies : String → Bool) (signatures : List String) : Nat :=
  signatures.foldl (fun valid sig => if verifies sig then valid + 1 else valid) 0

def Environment.quorum (env : Environment) : Nat := (max 1 env.quorumSetting).toNat

/-- A packet whose payload passed. -/
structure Read where
  payload : Payload
  canonical : String
  signatureRaw : Option Php

def readPacket (p : Platform) (env : Environment) (packet : Entries) : Except String Read := do
  let payload ← match isset packet "payload" with
    | some (.array payload) => pure payload
    | _ => throw "INVALID_PACKET: missing payload"
  let signatureRaw := (isset packet "signature").or (isset packet "signatures")
  let checked ← validatePayload p payload signatureRaw env.allowUnsigned
  let canonical ← encode p (.array payload)
  return ⟨checked, canonical, signatureRaw⟩

/-- What the signatures are compared with. -/
structure Presented where
  signatures : List String
  pubKeyHex : String

def present (env : Environment) (r : Read) : Except String Presented := do
  if r.payload.keyId = "" then
    throw "SIGNATURE: payload.key_id required"
  let signatures := normalizeSignatures r.signatureRaw
  if signatures = [] then
    throw "SIGNATURE: no signatures provided"
  match activeKey env.mpoKeys r.payload.keyId with
  | some (.str pubKeyHex) =>
    if pubKeyHex = "" then
      throw ("SIGNATURE: active mpo_keys.public_key not found for key_id=" ++ r.payload.keyId)
    else
      return ⟨signatures, pubKeyHex⟩
  | _ => throw ("SIGNATURE: active mpo_keys.public_key not found for key_id=" ++ r.payload.keyId)

/-- A signature of the packet verifies over its canonical text. -/
def verifies (verify : Verify) (env : Environment) (r : Read) (x : Presented) (sig : String) : Bool :=
  verify (env.domain ++ r.canonical) sig x.pubKeyHex

/-- The part of `run` before the transaction. -/
def authorize (p : Platform) (verify : Verify) (env : Environment) (packet : Entries) : Except String Read := do
  let r ← readPacket p env packet
  if env.allowUnsigned then
    return r
  let x ← present env r
  if countValid (verifies verify env r x) x.signatures < env.quorum then
    throw "SIGNATURE: ed25519 verification failed (quorum not met)"
  return r

def Read.settlementId (p : Platform) (r : Read) : String := p.sha256 r.canonical

def Read.txHash (p : Platform) (r : Read) : String :=
  if r.payload.fiatPaymentId ≠ "" then r.payload.fiatPaymentId else r.settlementId p

/-! ## What the checks let through -/

theorem one_le_quorum (env : Environment) : 1 ≤ env.quorum := by
  unfold Environment.quorum
  omega

theorem countValid_eq (verifies : String → Bool) (signatures : List String) :
    countValid verifies signatures = signatures.countP verifies := by
  have hfrom (n : Nat) : signatures.foldl (fun valid sig => if verifies sig then valid + 1 else valid) n =
      n + signatures.countP verifies := by
    induction signatures generalizing n with
    | nil => rfl
    | cons s l ih =>
      rw [List.foldl_cons, ih]
      cases hs : verifies s with
      | true =>
        rw [List.countP_cons_of_pos hs, if_pos rfl]
        omega
      | false =>
        rw [List.countP_cons_of_neg (by simp [hs]), if_neg (by simp)]
  rw [countValid, hfrom, Nat.zero_add]

/-- Every signature that is counted is a non-empty entry, or the only one. -/
theorem mem_normalizeSignatures {entries : Entries} {s : String} :
    s ∈ normalizeSignatures (some (.array entries)) ↔ s ≠ "" ∧ ∃ key, (key, Php.str s) ∈ entries := by
  unfold normalizeSignatures
  rw [List.mem_filterMap]
  constructor
  · rintro ⟨⟨key, v⟩, hmem, hv⟩
    cases v with
    | str t =>
      by_cases ht : t = ""
      · simp [ht] at hv
      · obtain rfl : t = s := by simpa [ht] using hv
        exact ⟨ht, key, hmem⟩
    | _ => cases hv
  · rintro ⟨hs, key, hmem⟩
    exact ⟨(key, .str s), hmem, by simp [hs]⟩

end SimpleL1.Kernel.Settlement
