import SimpleL1.Evm.Canonicalizer
import SimpleL1.Js.Array
import Mathlib.Data.List.Forall2

/-!
# Well-formed receipts

A receipt as a node of the chain returns it, with its transaction: what `canonicalizeEthReceipt` makes of
it. It is refused when the transaction creates a contract, and when a log has the signature of a transfer,
three topics and no data; a log with that signature and another number of topics or length of data is read
as a transfer all the same.
-/

namespace SimpleL1.Evm

open SimpleL1.Js

/-! ## Spellings -/

/-- `0x` and `n` hexadecimal digits, in either case. -/
def HexText (n : Nat) (s : String) : Prop := ∃ ds, hexDigits (toLowerCase s) = some ds ∧ ds.length = n

def IsFixed (n : Nat) (v : Option Raw) : Prop := ∃ s, v = some (.str s) ∧ HexText n s

def IsQuantity : Option Raw → Prop
  | some (.bigint n) => 0 ≤ n
  | some (.num n) => ∃ k : Nat, n = .int k ∧ k ≤ 2 ^ 53 - 1
  | some (.str s) => (hexQuantity s).isSome = true ∨ isDecimal s = true
  | _ => False

/-- `0x` and hexadecimal digits, in either case. -/
def IsHex (v : Option Raw) : Prop := ∃ s, v = some (.str s) ∧ (hexDigits (toLowerCase s)).isSome = true

def IsText (v : Option Raw) : Prop := ∃ s, v = some (.str s) ∧ s ≠ ""

theorem ne_empty_of_hexDigits {s : String} {ds : List Char} (h : hexDigits (toLowerCase s) = some ds) : s ≠ "" := by
  rintro rfl
  cases h

theorem normalizeHex_eq_ok {s : String} {ds : List Char} (h : hexDigits (toLowerCase s) = some ds) (name : String) :
    normalizeHex (some (.str s)) name = .ok (toLowerCase s) := by
  have hrequired : requiredString (some (.str s)) name = .ok s := if_pos (ne_empty_of_hexDigits h)
  unfold normalizeHex
  rw [hrequired]
  show (if (hexDigits (toLowerCase s)).isSome = true then _ else _) = _
  rw [h]
  rfl

theorem normalizeFixed_eq_ok {n : Nat} {s : String} (h : HexText n s) (message name : String) :
    normalizeFixed n message (some (.str s)) name = .ok (toLowerCase s) := by
  obtain ⟨ds, hds, hlength⟩ := h
  unfold normalizeFixed
  rw [normalizeHex_eq_ok hds, ok_bind, hds, if_pos (by simpa using hlength)]
  rfl

theorem normalizeFixed_ok {n : Nat} {v : Option Raw} (h : IsFixed n v) (message name : String) :
    ∃ t, normalizeFixed n message v name = .ok t := by
  obtain ⟨s, rfl, hs⟩ := h
  exact ⟨_, normalizeFixed_eq_ok hs message name⟩

theorem normalizeFixed_none (n : Nat) (message name : String) : ∀ t, normalizeFixed n message none name ≠ .ok t :=
  nofun

theorem quantity_ok {v : Option Raw} (h : IsQuantity v) (name : String) :
    ∃ t, quantityToDecimalString v name = .ok t := by
  unfold quantityToDecimalString
  match v, h with
  | some (.bigint n), _ => exact ⟨_, rfl⟩
  | some (.num n), h =>
    obtain ⟨k, rfl, hk⟩ := h
    have hsafe : isSafeInteger (.int k) = true := by simpa [isSafeInteger] using hk
    dsimp only
    rw [hsafe, Number.int_lt_int, if_neg (by simp)]
    exact ⟨_, rfl⟩
  | some (.str s), h =>
    dsimp only
    cases hq : hexQuantity s with
    | some ds => exact ⟨_, rfl⟩
    | none =>
      have hdecimal : isDecimal s = true := (show _ ∨ _ from h).resolve_left (by rw [hq]; exact nofun)
      rw [if_pos hdecimal]
      exact ⟨_, rfl⟩

theorem requiredString_ok {v : Option Raw} (h : IsText v) (name : String) : ∃ t, requiredString v name = .ok t := by
  obtain ⟨s, rfl, hs⟩ := h
  exact ⟨s, if_pos hs⟩

/-- What a list of spellings has first has the property that each of them has, where it is given. -/
theorem firstDefined_of {P : Option Raw → Prop} {values : List (Option Raw)} (h : ∀ v ∈ values, given v = true → P v)
    (hlast : ∃ v ∈ values, given v = true) : P (firstDefined values) := by
  unfold firstDefined
  cases hfind : values.find? given with
  | none =>
    obtain ⟨v, hv, hgiven⟩ := hlast
    exact absurd hgiven (List.find?_eq_none.mp hfind v hv)
  | some v => exact h v (List.mem_of_find?_eq_some hfind) (List.find?_some hfind)

theorem firstDefined_or {P : Option Raw → Prop} {values : List (Option Raw)} {fallback : Raw}
    (h : ∀ v ∈ values, given v = true → P v) (hgiven : given (some fallback) = true) (hfallback : P (some fallback)) :
    P (firstDefined (values ++ [some fallback])) := by
  refine firstDefined_of (fun v hv hv' => ?_) ⟨some fallback, by simp, hgiven⟩
  rcases List.mem_append.mp hv with hv | hv
  · exact h v hv hv'
  · rw [List.mem_singleton.mp hv]
    exact hfallback

theorem firstDefined_none {values : List (Option Raw)} (h : ∀ v ∈ values, given v = false) :
    firstDefined values = none := by
  unfold firstDefined
  rw [List.find?_eq_none.mpr fun v hv => by rw [h v hv]; decide]
  rfl

/-! ## Receipts -/

/-- A log, its topics as they are spelled and the digits of its data in lower case. -/
structure EthLog where
  fields : List (String × Raw)
  topics : List String
  digits : List Char

structure WellFormedLog (log : EthLog) : Prop where
  address : IsFixed 40 (log.fields.lookup "address")
  topics : log.fields.lookup "topics" = some (.arr (log.topics.map Raw.str))
  hashes : log.topics.length ≤ 4 ∧ ∀ topic ∈ log.topics, HexText 64 topic
  data : ∃ s, log.fields.lookup "data" = some (.str s) ∧ hexDigits (toLowerCase s) = some log.digits
  bytes : log.digits.length % 2 = 0
  index : ∀ k ∈ ["logIndex", "log_index"], given (log.fields.lookup k) = true → IsQuantity (log.fields.lookup k)
  transaction : ∀ k ∈ ["transactionHash", "transaction_hash"], given (log.fields.lookup k) = true →
    IsFixed 64 (log.fields.lookup k)

/-- Each field that is there, under one of its names, is spelled well, and one of them is there. -/
def Spelled (P : Option Raw → Prop) (values : List (Option Raw)) : Prop :=
  (∀ v ∈ values, given v = true → P v) ∧ ∃ v ∈ values, given v = true

theorem Spelled.first {P : Option Raw → Prop} {values : List (Option Raw)} (h : Spelled P values) :
    P (firstDefined values) := firstDefined_of h.1 h.2

/-- A receipt with its transaction; only a recipient may be missing. -/
structure WellFormed (payload receipt transaction block : List (String × Raw)) (logs : List EthLog) : Prop where
  hasReceipt : payload.lookup "receipt" = some (.obj receipt)
  hasTransaction : payload.lookup "transaction" = some (.obj transaction)
  hasBlock : blockOf (payload.lookup "block") = .ok block
  timestamp : given (block.lookup "timestamp") = true → IsQuantity (block.lookup "timestamp")
  chain : IsQuantity (payload.lookup "chain_id")
  observed : IsText (payload.lookup "observed_at")
  source : IsText (payload.lookup "source")
  hash : Spelled (IsFixed 64)
    [receipt.lookup "transactionHash", receipt.lookup "transaction_hash", transaction.lookup "hash"]
  blockHash : Spelled (IsFixed 64) [receipt.lookup "blockHash", receipt.lookup "block_hash"]
  blockNumber : Spelled IsQuantity [receipt.lookup "blockNumber", receipt.lookup "block_number"]
  index : Spelled IsQuantity [receipt.lookup "transactionIndex", receipt.lookup "transaction_index"]
  status : ∃ t ∈ ["0", "1"], ∀ name, quantityToDecimalString (receipt.lookup "status") name = .ok t
  sender : Spelled (IsFixed 40) [transaction.lookup "from", receipt.lookup "from"]
  recipient : ∀ v ∈ [transaction.lookup "to", receipt.lookup "to"], given v = true → IsFixed 40 v
  gasPrice : Spelled IsQuantity [receipt.lookup "effectiveGasPrice", receipt.lookup "effective_gas_price"]
  gasUsed : Spelled IsQuantity [receipt.lookup "gasUsed", receipt.lookup "gas_used"]
  input : ∀ v ∈ [transaction.lookup "input", transaction.lookup "data"], given v = true → IsHex v
  value : IsQuantity (transaction.lookup "value")
  hasLogs : receipt.lookup "logs" = some (.arr (logs.map fun log => .obj log.fields))
  /-- Arrays have no more elements. -/
  count : logs.length < 2 ^ 32
  wellFormedLogs : ∀ log ∈ logs, WellFormedLog log

/-- The transaction is not a contract creation. -/
def HasRecipient (receipt transaction : List (String × Raw)) : Prop :=
  given (transaction.lookup "to") = true ∨ given (receipt.lookup "to") = true

def signature (log : EthLog) : Option String := (log.topics.map toLowerCase).head?

/-- The signature of a transfer, three topics and an amount of 32 bytes. -/
def IsTransfer (log : EthLog) : Prop :=
  signature log = some ERC20_TRANSFER_TOPIC ∧ log.topics.length = 3 ∧ log.digits.length = 64

/-- The signature of a transfer, and the topics to read one from. -/
def TransferShaped (log : EthLog) : Prop := signature log = some ERC20_TRANSFER_TOPIC ∧ 3 ≤ log.topics.length

/-- The graph has a transfer node for the log just when it is one, with its amount. -/
def Labelled (graph : FactGraph) (log : EthLog) (fact : LogFact) : Prop :=
  ((∃ transfer, .erc20 fact transfer ∈ graph.nodes) ↔ IsTransfer log) ∧
    ∀ transfer, .erc20 fact transfer ∈ graph.nodes → transfer.raw_amount = decimal (hexValue log.digits)

def Canonicalises (p : Node.Platform) (payload : List (String × Raw)) (logs : List EthLog) : Prop :=
  ∃ r, canonicalizeEthReceipt p (some (.obj payload)) = .ok r ∧ List.Forall₂ (Labelled r.graph) logs r.graph.logFacts

variable {p : Node.Platform} {payload receipt transaction block : List (String × Raw)} {logs : List EthLog}

/-- The transaction fact is built just when there is a recipient. -/
theorem txFactOf_ok_iff (h : WellFormed payload receipt transaction block logs) :
    (∃ fact, txFactOf p payload receipt transaction block = .ok fact) ↔ HasRecipient receipt transaction := by
  obtain ⟨chain_id, hchain⟩ := quantity_ok h.chain "raw_eth_receipt.chain_id"
  obtain ⟨tx_hash, hhash⟩ := normalizeFixed_ok h.hash.first " must be a 32-byte hash" "receipt.transactionHash"
  obtain ⟨block_hash, hblockHash⟩ := normalizeFixed_ok h.blockHash.first " must be a 32-byte hash" "receipt.blockHash"
  obtain ⟨block_number, hblockNumber⟩ := quantity_ok h.blockNumber.first "receipt.blockNumber"
  obtain ⟨transaction_index, hindex⟩ := quantity_ok h.index.first "receipt.transactionIndex"
  obtain ⟨receipt_status, -, hstatus⟩ := h.status
  obtain ⟨from_address, hfrom⟩ := normalizeFixed_ok h.sender.first " must be a 20-byte address" "transaction.from"
  obtain ⟨effective_gas_price, hgasPrice⟩ := quantity_ok h.gasPrice.first "receipt.effectiveGasPrice"
  obtain ⟨gas_used, hgasUsed⟩ := quantity_ok h.gasUsed.first "receipt.gasUsed"
  obtain ⟨value, hvalue⟩ := quantity_ok h.value "transaction.value"
  obtain ⟨observed_at, hobserved⟩ := requiredString_ok h.observed "raw_eth_receipt.observed_at"
  obtain ⟨source, hsource⟩ := requiredString_ok h.source "raw_eth_receipt.source"
  obtain ⟨input, hinput⟩ : ∃ t, normalizeNullableHex (firstDefined
      [transaction.lookup "input", transaction.lookup "data", some (.str "0x")]) "transaction.input" = .ok t := by
    have hspelled : IsHex (firstDefined ([transaction.lookup "input", transaction.lookup "data"] ++ [some (Raw.str "0x")])) :=
      firstDefined_or h.input rfl ⟨"0x", rfl, by decide +kernel⟩
    obtain ⟨s, hs, hdigits⟩ := hspelled
    obtain ⟨ds, hds⟩ := Option.isSome_iff_exists.mp hdigits
    show ∃ t, normalizeNullableHex (firstDefined ([transaction.lookup "input", transaction.lookup "data"] ++ [_])) _ = _
    rw [hs]
    exact ⟨some (toLowerCase s), map_eq_ok.mpr ⟨_, normalizeHex_eq_ok hds _, rfl⟩⟩
  obtain ⟨timestamp, htimestamp⟩ : ∃ t, timestampOf block = .ok t := by
    unfold timestampOf
    by_cases hgiven : given (block.lookup "timestamp") = true
    · obtain ⟨t, ht⟩ := quantity_ok (h.timestamp hgiven) "block.timestamp"
      rw [if_pos hgiven, ht]
      exact ⟨_, rfl⟩
    · rw [if_neg hgiven]
      exact ⟨_, rfl⟩
  have hto : (∃ to_address, normalizeAddress (firstDefined [transaction.lookup "to", receipt.lookup "to"])
      "transaction.to" = .ok to_address) ↔ HasRecipient receipt transaction := by
    unfold HasRecipient
    constructor
    · rintro ⟨to_address, hto⟩
      by_contra hnone
      rw [not_or, Bool.not_eq_true, Bool.not_eq_true] at hnone
      rw [firstDefined_none (by simpa using hnone)] at hto
      cases hto
    · intro hgiven
      refine normalizeFixed_ok (firstDefined_of h.recipient ?_) _ _
      rcases hgiven with hgiven | hgiven
      · exact ⟨_, by simp, hgiven⟩
      · exact ⟨_, by simp, hgiven⟩
  rw [← hto]
  unfold txFactOf normalizeHash normalizeAddress
  rw [hchain, ok_bind, hhash, ok_bind, hblockHash, ok_bind, hblockNumber, ok_bind, hindex, ok_bind, hstatus, ok_bind,
    hfrom, ok_bind]
  constructor
  · rintro ⟨fact, hfact⟩
    obtain ⟨to_address, hto_address, -⟩ := bind_eq_ok.mp hfact
    exact ⟨to_address, hto_address⟩
  · rintro ⟨to_address, hto_address⟩
    rw [hto_address, ok_bind, hgasPrice, ok_bind, hgasUsed, ok_bind, hinput, ok_bind, hvalue, ok_bind, hobserved, ok_bind,
      hsource, ok_bind, htimestamp, ok_bind]
    exact ⟨_, rfl⟩

/-! ## Logs -/

/-- The fact of a log has its topics and its data. -/
structure Matches (log : EthLog) (fact : LogFact) : Prop where
  topics : fact.topics = log.topics.map toLowerCase
  signature : fact.event_signature = fact.topics.head?
  hashes : ∀ topic ∈ fact.topics, ∃ ds, hexDigits topic = some ds ∧ ds.length = 64
  data : ∃ s, fact.data = toLowerCase s ∧ hexDigits (toLowerCase s) = some log.digits

theorem mapM_zipIdx_eq_ok {α β : Type} {f : α × Nat → JsM β} {xs : List α} {ys : List β}
    (h : List.Forall₂ (fun x y => ∀ i, f (x, i) = .ok y) xs ys) (n : Nat) : (xs.zipIdx n).mapM f = .ok ys := by
  induction h generalizing n with
  | nil => rfl
  | cons hx _ ih =>
    rw [List.zipIdx_cons, mapM_cons_eq_ok]
    exact ⟨_, _, hx n, ih (n + 1), rfl⟩

theorem mapM_zipIdx_ok {α β γ : Type} {f : β × Nat → JsM γ} {g : α → β} {R : α → γ → Prop} {bound : Nat} {xs : List α}
    (h : ∀ x ∈ xs, ∀ i < bound, ∃ y, f (g x, i) = .ok y ∧ R x y) (n : Nat) (hn : n + xs.length ≤ bound) :
    ∃ ys, ((xs.map g).zipIdx n).mapM f = .ok ys ∧ List.Forall₂ R xs ys := by
  induction xs generalizing n with
  | nil => exact ⟨[], rfl, .nil⟩
  | cons x xs ih =>
    rw [List.length_cons] at hn
    obtain ⟨y, hy, hxy⟩ := h x List.mem_cons_self n (by omega)
    obtain ⟨ys, hys, hall⟩ := ih (fun x' hx' => h x' (List.mem_cons_of_mem x hx')) (n + 1) (by omega)
    refine ⟨y :: ys, ?_, .cons hxy hall⟩
    rw [List.map_cons, List.zipIdx_cons, mapM_cons_eq_ok]
    exact ⟨y, ys, hy, hys, rfl⟩

theorem normalizeTopics_eq_ok {log : EthLog} (h : WellFormedLog log) (index : Nat) :
    normalizeTopics (.obj log.fields) index = .ok (log.topics.map toLowerCase) := by
  have htopics : topicsOf (.obj log.fields) = .ok (log.topics.map Raw.str) := by
    unfold topicsOf
    rw [show (Raw.obj log.fields).prop "topics" = _ from h.topics]
    rfl
  unfold normalizeTopics
  rw [htopics, ok_bind]
  refine mapM_zipIdx_eq_ok ?_ 0
  rw [List.forall₂_map_left_iff, List.forall₂_map_right_iff, List.forall₂_same]
  exact fun topic htopic i => normalizeFixed_eq_ok (h.hashes.2 topic htopic) _ _

/-- A well-formed log has a fact, whatever the transaction. -/
theorem normalizeLog_ok {log : EthLog} (h : WellFormedLog log) (txFact : TxFact) (htx : HexText 64 txFact.tx_hash)
    {index : Nat} (hindex : index ≤ 2 ^ 53 - 1) :
    ∃ fact, normalizeLog p txFact (.obj log.fields) index = .ok fact ∧ Matches log fact := by
  have hgiven : ∀ {P : Option Raw → Prop} {k k' : String}, (∀ k'' ∈ [k, k'],
      given (log.fields.lookup k'') = true → P (log.fields.lookup k'')) →
      ∀ v ∈ [(Raw.obj log.fields).prop k, (Raw.obj log.fields).prop k'], given v = true → P v := by
    intro P k k' hall v hv
    rcases List.mem_pair.mp hv with rfl | rfl
    · exact hall k (by simp)
    · exact hall k' (by simp)
  obtain ⟨log_index, hlogIndex⟩ : ∃ t, quantityToDecimalString (firstDefined ([(Raw.obj log.fields).prop "logIndex",
      (Raw.obj log.fields).prop "log_index"] ++ [some (Raw.num (.int index))])) (logField index "logIndex") = .ok t :=
    quantity_ok (firstDefined_or (hgiven h.index) rfl
      (show IsQuantity (some (.num (.int index))) from ⟨index, rfl, hindex⟩)) _
  obtain ⟨tx_hash, hhash⟩ : ∃ t, normalizeHash (firstDefined ([(Raw.obj log.fields).prop "transactionHash",
      (Raw.obj log.fields).prop "transaction_hash"] ++ [some (Raw.str txFact.tx_hash)])) (logField index "transactionHash") =
      .ok t :=
    normalizeFixed_ok (firstDefined_or (hgiven h.transaction) rfl ⟨_, rfl, htx⟩) _ _
  obtain ⟨emitter_address, haddress⟩ := normalizeFixed_ok h.address " must be a 20-byte address" (logField index "address")
  obtain ⟨s, hs, hdigits⟩ := h.data
  have hdata : normalizeHex (firstDefined [(Raw.obj log.fields).prop "data", some (.str "0x")]) (logField index "data") =
      .ok (toLowerCase s) := by
    rw [show (Raw.obj log.fields).prop "data" = _ from hs]
    exact normalizeHex_eq_ok hdigits _
  unfold normalizeLog member
  dsimp only
  dsimp only [List.cons_append, List.nil_append] at hlogIndex hhash
  rw [pure_eq_ok, ok_bind, hlogIndex, ok_bind, normalizeTopics_eq_ok h, ok_bind, hhash, ok_bind]
  unfold normalizeAddress
  rw [show (Raw.obj log.fields).prop "address" = log.fields.lookup "address" from rfl, haddress, ok_bind, hdata, ok_bind]
  refine ⟨_, rfl, rfl, rfl, ?_, s, rfl, hdigits⟩
  intro topic htopic
  obtain ⟨t, ht, rfl⟩ := List.mem_map.mp htopic
  exact h.hashes.2 t ht

/-! ## Transfers -/

theorem toLower_of_isHexDigit {c : Char} (h : Node.isHexDigit c = true) : c.toLower = c := by
  have hnat : ¬ (65 ≤ c.toNat ∧ c.toNat ≤ 90) := by
    simp only [Node.isHexDigit, Char.isDigit, Bool.or_eq_true, Bool.and_eq_true, decide_eq_true_eq] at h
    rintro ⟨hlow, hhigh⟩
    rcases h with h | h
    · have := UInt32.le_iff_toNat_le.mp h.2
      have : c.toNat ≤ 57 := this
      omega
    · have : 97 ≤ c.toNat := UInt32.le_iff_toNat_le.mp h.1
      omega
  unfold Char.toLower
  rw [dif_neg]
  rintro ⟨hlow, hhigh⟩
  exact hnat ⟨UInt32.le_iff_toNat_le.mp hlow, UInt32.le_iff_toNat_le.mp hhigh⟩

theorem hexDigits_eq_some {s : String} {ds : List Char} (h : hexDigits s = some ds) :
    s.toList = '0' :: 'x' :: ds ∧ ∀ d ∈ ds, Node.isHexDigit d = true := by
  unfold hexDigits at h
  split at h
  · next ds' hs =>
    split at h
    · next hall =>
      cases h
      exact ⟨hs, List.all_eq_true.mp hall⟩
    · cases h
  · cases h

theorem toLowerCase_of_hexDigits {s : String} {ds : List Char} (h : hexDigits s = some ds) : toLowerCase s = s := by
  obtain ⟨hs, hds⟩ := hexDigits_eq_some h
  unfold toLowerCase
  rw [hs, List.map_cons, List.map_cons, List.map_congr_left fun d hd => toLower_of_isHexDigit (hds d hd), List.map_id',
    ← String.ofList_toList (s := s), hs]
  rfl

theorem topicAddress_ok {topic : String} {ds : List Char} (h : hexDigits topic = some ds) (hlength : ds.length = 64) :
    ∃ address, topicAddress topic = .ok address := by
  have htext : HexText 64 topic := ⟨ds, by rw [toLowerCase_of_hexDigits h]; exact h, hlength⟩
  unfold topicAddress normalizeHash
  rw [normalizeFixed_eq_ok htext]
  exact ⟨_, rfl⟩

theorem decodeUint256_eq {data : String} {ds : List Char} (h : hexDigits data = some ds) :
    decodeUint256 data = if ds = [] then .error (bigIntError data) else .ok (decimal (hexValue ds)) := by
  obtain ⟨hs, hds⟩ := hexDigits_eq_some h
  have hlower := toLowerCase_of_hexDigits h
  have hall : ds.all (fun c => Node.isHexDigit c.toLower) = true :=
    List.all_eq_true.mpr fun d hd => by rw [toLower_of_isHexDigit (hds d hd)]; exact hds d hd
  unfold decodeUint256
  rw [normalizeHex_eq_ok (by rw [hlower]; exact h), hlower, ok_bind]
  unfold hexQuantity
  rw [hs]
  by_cases hempty : ds = []
  · rw [if_pos hempty]
    simp [hempty]
    rfl
  · simp only [ne_eq, hempty, not_false_eq_true, hall, and_self, if_true, if_false]
    rfl

section
variable {log : EthLog} {fact : LogFact}

theorem signature_eq (h : Matches log fact) : fact.event_signature = signature log := by
  rw [h.signature, h.topics]
  rfl

theorem length_topics (h : Matches log fact) : fact.topics.length = log.topics.length := by
  rw [h.topics, List.length_map]

/-- A log is read as a transfer when it is shaped like one, unless it has no data. -/
theorem decode_of_shaped (h : Matches log fact) (hshaped : TransferShaped log) :
    (log.digits = [] → ∀ o, decodeErc20Transfer fact ≠ .ok o) ∧
    (log.digits ≠ [] → ∃ transfer, decodeErc20Transfer fact = .ok (some transfer) ∧
      transfer.raw_amount = decimal (hexValue log.digits)) := by
  obtain ⟨hsignature, hlength⟩ := hshaped
  rw [← signature_eq h] at hsignature
  rw [← length_topics h] at hlength
  obtain ⟨s, hs, hdigits⟩ := h.data
  rw [← hs] at hdigits
  unfold decodeErc20Transfer
  match hfact : fact.topics, hlength with
  | _ :: topicFrom :: topicTo :: rest, _ =>
    obtain ⟨ds, hds, hds64⟩ := h.hashes topicFrom (by rw [hfact]; simp)
    obtain ⟨ds', hds', hds64'⟩ := h.hashes topicTo (by rw [hfact]; simp)
    obtain ⟨topic_from, hfrom⟩ := topicAddress_ok hds hds64
    obtain ⟨topic_to, hto⟩ := topicAddress_ok hds' hds64'
    dsimp only
    rw [if_pos hsignature, hfrom, ok_bind, hto, ok_bind, decodeUint256_eq hdigits]
    constructor
    · intro hempty o ho
      rw [if_pos hempty] at ho
      cases ho
    · intro hne
      rw [if_neg hne]
      exact ⟨_, rfl, rfl⟩

theorem decode_of_not_shaped (h : Matches log fact) (hshaped : ¬ TransferShaped log) :
    decodeErc20Transfer fact = .ok none := by
  unfold decodeErc20Transfer
  split
  · next topicFrom topicTo rest hfact =>
    rw [if_neg]
    · rfl
    intro hsignature
    refine hshaped ⟨(signature_eq h).symm.trans hsignature, ?_⟩
    rw [← length_topics h, hfact]
    simp
  · rfl

/-- Where the log can be read, its label is right just when what is shaped like a transfer is one. -/
theorem isSome_decode_iff (h : Matches log fact) {o : Option Erc20Transfer} (ho : decodeErc20Transfer fact = .ok o) :
    (o.isSome = true ↔ TransferShaped log) ∧ ∀ transfer, o = some transfer →
      transfer.raw_amount = decimal (hexValue log.digits) := by
  by_cases hshaped : TransferShaped log
  · obtain ⟨hempty, hne⟩ := decode_of_shaped h hshaped
    obtain ⟨transfer, htransfer, hamount⟩ := hne fun hd => hempty hd o ho
    rw [htransfer] at ho
    cases ho
    exact ⟨⟨fun _ => hshaped, fun _ => rfl⟩, fun t ht => by cases ht; exact hamount⟩
  · rw [decode_of_not_shaped h hshaped] at ho
    cases ho
    exact ⟨⟨nofun, fun hs => absurd hs hshaped⟩, nofun⟩

theorem IsTransfer.shaped (h : IsTransfer log) : TransferShaped log := ⟨h.1, h.2.1.symm.le⟩

end

/-! ## Graphs -/

/-- A log fact has its transfer node just when it is decoded to one. -/
theorem erc20_mem_iff {txFact : TxFact} {logFacts : List LogFact} {logsMissing : Bool} {graph : FactGraph}
    (h : buildFactGraph txFact logFacts logsMissing = .ok graph) {fact : LogFact} (hmem : fact ∈ logFacts)
    (transfer : Erc20Transfer) :
    GraphNode.erc20 fact transfer ∈ graph.nodes ↔ decodeErc20Transfer fact = .ok (some transfer) := by
  unfold buildFactGraph at h
  obtain ⟨logs, hlogs, h⟩ := bind_eq_ok.mp h
  cases h
  have hrevert : GraphNode.erc20 fact transfer ∉ revertNodes txFact := by
    unfold revertNodes
    split <;> simp
  have hlogNodes : ∀ {fact' : LogFact} {nodes : List GraphNode}, logNodes fact' = .ok nodes →
      (GraphNode.erc20 fact transfer ∈ nodes ↔ fact' = fact ∧ decodeErc20Transfer fact' = .ok (some transfer)) := by
    intro fact' nodes hnodes
    obtain ⟨o, ho, hnodes⟩ := bind_eq_ok.mp hnodes
    rw [ho]
    cases o <;> cases hnodes <;> simp [eq_comm]
  show _ ∈ .tx txFact :: revertNodes txFact ++ logs.flatten ↔ _
  rw [List.mem_append, List.mem_cons, or_iff_right (by rintro (h | h); exacts [(nomatch h), hrevert h]), List.mem_flatten]
  constructor
  · rintro ⟨nodes, hnodes, hin⟩
    obtain ⟨fact', -, hfact'⟩ := (mem_mapM hlogs).mp hnodes
    obtain ⟨rfl, hdecode⟩ := (hlogNodes hfact').mp hin
    exact hdecode
  · intro hdecode
    obtain ⟨nodes, hnodes⟩ := exists_mapM.mp ⟨logs, hlogs⟩ fact hmem
    exact ⟨nodes, (mem_mapM hlogs).mpr ⟨fact, hmem, hnodes⟩, (hlogNodes hnodes).mpr ⟨rfl, hdecode⟩⟩

theorem labelled_iff {txFact : TxFact} {logFacts : List LogFact} {logsMissing : Bool} {graph : FactGraph}
    (h : buildFactGraph txFact logFacts logsMissing = .ok graph) {log : EthLog} {fact : LogFact}
    (hmem : fact ∈ logFacts) (hmatches : Matches log fact) :
    Labelled graph log fact ↔ (TransferShaped log → IsTransfer log) := by
  obtain ⟨o, ho⟩ : ∃ o, decodeErc20Transfer fact = .ok o := by
    unfold buildFactGraph at h
    obtain ⟨logs, hlogs, -⟩ := bind_eq_ok.mp h
    obtain ⟨nodes, hnodes⟩ := exists_mapM.mp ⟨logs, hlogs⟩ fact hmem
    obtain ⟨o, ho, -⟩ := bind_eq_ok.mp hnodes
    exact ⟨o, ho⟩
  obtain ⟨hshaped, hamount⟩ := isSome_decode_iff hmatches ho
  have hnode : ∀ transfer, GraphNode.erc20 fact transfer ∈ graph.nodes ↔ o = some transfer := by
    intro transfer
    rw [erc20_mem_iff h hmem, ho]
    exact ⟨fun heq => Except.ok.inj heq, fun heq => congrArg Except.ok heq⟩
  unfold Labelled
  simp only [hnode]
  rw [and_iff_left hamount, ← Option.isSome_iff_exists, hshaped]
  exact ⟨fun hiff => hiff.mp, fun himp => ⟨himp, IsTransfer.shaped⟩⟩

theorem forall₂_iff_of {α β : Type} {R S : α → β → Prop} {P : α → Prop} {xs : List α} {ys : List β}
    (h : List.Forall₂ R xs ys) (hiff : ∀ x, ∀ y ∈ ys, R x y → (S x y ↔ P x)) :
    List.Forall₂ S xs ys ↔ ∀ x ∈ xs, P x := by
  induction h with
  | nil => exact ⟨fun _ => nofun, fun _ => .nil⟩
  | cons hxy _ ih =>
    rw [List.forall₂_cons, List.forall_mem_cons, hiff _ _ List.mem_cons_self hxy,
      ih fun x y hy => hiff x y (List.mem_cons_of_mem _ hy)]

theorem hexText_of_normalizeFixed {n : Nat} {message name t : String} {v : Option Raw}
    (h : normalizeFixed n message v name = .ok t) : HexText n t := by
  unfold normalizeFixed at h
  obtain ⟨normalized, -, h⟩ := bind_eq_ok.mp h
  split at h
  · next hlength =>
    cases h
    cases hds : hexDigits t with
    | none =>
      rw [hds] at hlength
      cases hlength
    | some ds =>
      rw [hds] at hlength
      exact ⟨ds, by rw [toLowerCase_of_hexDigits hds]; exact hds, of_decide_eq_true hlength⟩
  · cases h

theorem hexText_hash {fact : TxFact} (h : txFactOf p payload receipt transaction block = .ok fact) :
    HexText 64 fact.tx_hash := by
  unfold txFactOf at h
  obtain ⟨_, -, h⟩ := bind_eq_ok.mp h
  obtain ⟨tx_hash, hhash, h⟩ := bind_eq_ok.mp h
  iterate 13 obtain ⟨_, -, h⟩ := bind_eq_ok.mp h
  cases h
  exact hexText_of_normalizeFixed hhash

theorem exists_of_forall₂_right {α β : Type} {R : α → β → Prop} {xs : List α} {ys : List β}
    (h : List.Forall₂ R xs ys) {y : β} (hy : y ∈ ys) : ∃ x ∈ xs, R x y := by
  induction h with
  | nil => cases hy
  | cons hxy _ ih =>
    rcases List.mem_cons.mp hy with rfl | hy
    · exact ⟨_, List.mem_cons_self, hxy⟩
    · obtain ⟨x, hx, hxy⟩ := ih hy
      exact ⟨x, List.mem_cons_of_mem _ hx, hxy⟩

/-- The facts of the logs, where there is one for the transaction. -/
theorem logFacts_ok (h : WellFormed payload receipt transaction block logs) {fact : TxFact}
    (hfact : txFactOf p payload receipt transaction block = .ok fact) :
    ∃ facts, ((logsOf receipt).zipIdx.mapM fun log => normalizeLog p fact log.1 log.2) = .ok facts ∧
      List.Forall₂ Matches logs facts := by
  have hlogs : logsOf receipt = logs.map fun log => Raw.obj log.fields := by
    unfold logsOf
    rw [h.hasLogs]
  have hcount := h.count
  rw [hlogs]
  refine mapM_zipIdx_ok (fun log hlog i (hi : i < 2 ^ 53) => ?_) 0 (by omega)
  exact normalizeLog_ok (h.wellFormedLogs log hlog) fact (hexText_hash hfact) (by omega)

theorem canonicalize_eq_ok_iff (h : WellFormed payload receipt transaction block logs) {r : CanonicalReceipt} :
    canonicalizeEthReceipt p (some (.obj payload)) = .ok r → ∃ fact facts,
      txFactOf p payload receipt transaction block = .ok fact ∧ List.Forall₂ Matches logs facts ∧
      buildFactGraph fact facts false = .ok r.graph := by
  intro hr
  unfold canonicalizeEthReceipt assertObject at hr
  dsimp only at hr
  rw [pure_eq_ok, ok_bind, h.hasReceipt, h.hasTransaction] at hr
  dsimp only at hr
  rw [pure_eq_ok, pure_eq_ok, ok_bind, ok_bind, h.hasBlock, ok_bind] at hr
  obtain ⟨fact, hfact, hr⟩ := bind_eq_ok.mp hr
  obtain ⟨facts, hfacts, hmatches⟩ := logFacts_ok h hfact
  rw [hfacts, ok_bind, h.hasLogs] at hr
  obtain ⟨graph, hgraph, hr⟩ := bind_eq_ok.mp hr
  have hgraphs : graph = r.graph := congrArg CanonicalReceipt.graph (Except.ok.inj hr)
  exact ⟨fact, facts, hfact, hmatches, hgraphs ▸ hgraph⟩

theorem canonicalize_ok (h : WellFormed payload receipt transaction block logs) {fact : TxFact} {facts : List LogFact}
    {graph : FactGraph} (hfact : txFactOf p payload receipt transaction block = .ok fact)
    (hfacts : ((logsOf receipt).zipIdx.mapM fun log => normalizeLog p fact log.1 log.2) = .ok facts)
    (hgraph : buildFactGraph fact facts false = .ok graph) :
    ∃ r, canonicalizeEthReceipt p (some (.obj payload)) = .ok r ∧ r.graph = graph := by
  unfold canonicalizeEthReceipt assertObject
  dsimp only
  rw [pure_eq_ok, ok_bind, h.hasReceipt, h.hasTransaction]
  dsimp only
  rw [pure_eq_ok, pure_eq_ok, ok_bind, ok_bind, h.hasBlock, ok_bind, hfact, ok_bind, hfacts, ok_bind, h.hasLogs]
  rw [show (some (Raw.arr (logs.map fun log => .obj log.fields))).isNone = false from rfl, hgraph, ok_bind]
  exact ⟨_, rfl, rfl⟩

theorem logFacts_of_graph {txFact : TxFact} {facts : List LogFact} {logsMissing : Bool} {graph : FactGraph}
    (h : buildFactGraph txFact facts logsMissing = .ok graph) : graph.logFacts = facts := by
  unfold buildFactGraph at h
  obtain ⟨logs, -, h⟩ := bind_eq_ok.mp h
  cases h
  rfl

theorem canonicalises_iff_of (h : WellFormed payload receipt transaction block logs) :
    Canonicalises p payload logs ↔
      HasRecipient receipt transaction ∧ ∀ log ∈ logs, TransferShaped log → IsTransfer log := by
  have hlabels : ∀ {fact : TxFact} {facts : List LogFact} {graph : FactGraph}, List.Forall₂ Matches logs facts →
      buildFactGraph fact facts false = .ok graph →
      (List.Forall₂ (Labelled graph) logs facts ↔ ∀ log ∈ logs, TransferShaped log → IsTransfer log) :=
    fun hmatches hgraph => forall₂_iff_of hmatches fun _ _ hf hlog => labelled_iff hgraph hf hlog
  constructor
  · rintro ⟨r, hr, hlabelled⟩
    obtain ⟨fact, facts, hfact, hmatches, hgraph⟩ := canonicalize_eq_ok_iff h hr
    rw [logFacts_of_graph hgraph] at hlabelled
    exact ⟨(txFactOf_ok_iff h).mp ⟨fact, hfact⟩, (hlabels hmatches hgraph).mp hlabelled⟩
  · rintro ⟨hrecipient, hshaped⟩
    obtain ⟨fact, hfact⟩ := (txFactOf_ok_iff (p := p) h).mpr hrecipient
    obtain ⟨facts, hfacts, hmatches⟩ := logFacts_ok h hfact
    obtain ⟨graph, hgraph⟩ : ∃ graph, buildFactGraph fact facts false = .ok graph := by
      obtain ⟨nodes, hnodes⟩ : ∃ nodes, facts.mapM logNodes = .ok nodes := by
        refine exists_mapM.mpr fun f hf => ?_
        obtain ⟨log, hlog, hlf⟩ := exists_of_forall₂_right hmatches hf
        obtain ⟨o, ho⟩ : ∃ o, decodeErc20Transfer f = .ok o := by
          by_cases hsh : TransferShaped log
          · have hdigits : log.digits ≠ [] := by
              intro hempty
              have hbytes := (hshaped log hlog hsh).2.2
              rw [hempty] at hbytes
              cases hbytes
            obtain ⟨transfer, htransfer, -⟩ := (decode_of_shaped hlf hsh).2 hdigits
            exact ⟨some transfer, htransfer⟩
          · exact ⟨none, decode_of_not_shaped hlf hsh⟩
        unfold logNodes
        rw [ho]
        cases o <;> exact ⟨_, rfl⟩
      unfold buildFactGraph
      rw [hnodes]
      exact ⟨_, rfl⟩
    obtain ⟨r, hr, rfl⟩ := canonicalize_ok h hfact hfacts hgraph
    refine ⟨r, hr, ?_⟩
    rw [logFacts_of_graph hgraph]
    exact (hlabels hmatches hgraph).mpr hshaped

/-- A receipt is canonicalised as it should be just when its transaction has a recipient, and the logs that are
shaped like transfers are transfers. -/
theorem canonicalises_iff (p : Node.Platform) (payload receipt transaction block : List (String × Raw))
    (logs : List EthLog) (h : WellFormed payload receipt transaction block logs) :
    Canonicalises p payload logs ↔
      HasRecipient receipt transaction ∧ ∀ log ∈ logs, TransferShaped log → IsTransfer log :=
  canonicalises_iff_of h

section Example

theorem dash_ne_empty (_ : Int) : "-" ≠ "" := by decide

def blockPlatform : Node.Platform where
  toHost := Realm.Host.ofTable [] [] Realm.Host.no_digests
  lower := id
  upper := id
  nfc := id
  parseDate := fun _ => .nan
  isoDate := fun _ => "-"
  lower_lower := Eq.refl
  isoDate_ne_empty := dash_ne_empty

def wordText (n : Nat) (c : Char) : String := String.ofList ('0' :: 'x' :: List.replicate n c)

theorem hexText_of_any {n : Nat} {s : String}
    (h : (hexDigits (toLowerCase s)).any (fun ds => ds.length = n) = true) : HexText n s := by
  cases hds : hexDigits (toLowerCase s) with
  | none =>
    rw [hds] at h
    cases h
  | some ds =>
    rw [hds] at h
    exact ⟨ds, hds, of_decide_eq_true h⟩

/-- `d` is the lower case of `c`, and hexadecimal. -/
def Lowers (c d : Char) : Prop := c.toLower = d ∧ Node.isHexDigit d = true

theorem toLowerCase_wordText (n : Nat) {c d : Char} (h : Lowers c d) :
    toLowerCase (wordText n c) = wordText n d := by
  unfold toLowerCase wordText
  rw [String.toList_ofList, List.map_cons, List.map_cons, List.map_replicate, h.1]
  rfl

theorem hexDigits_wordText (n : Nat) {d : Char} (h : Node.isHexDigit d = true) :
    hexDigits (wordText n d) = some (List.replicate n d) := by
  have hall : (List.replicate n d).all Node.isHexDigit = true :=
    List.all_eq_true.mpr fun e he => List.eq_of_mem_replicate he ▸ h
  unfold hexDigits wordText
  rw [String.toList_ofList]
  exact if_pos hall

theorem hexText_wordText (n : Nat) {c d : Char} (h : Lowers c d) : HexText n (wordText n c) := by
  refine ⟨List.replicate n d, ?_, List.length_replicate⟩
  rw [toLowerCase_wordText n h]
  exact hexDigits_wordText n h.2

theorem lowers_a : Lowers 'a' 'a' := ⟨rfl, rfl⟩

theorem lowers_b : Lowers 'b' 'b' := ⟨rfl, rfl⟩

theorem wordText_hash : HexText 64 (wordText 64 'b') := hexText_wordText 64 lowers_b

theorem wordText_address : HexText 40 (wordText 40 'a') := hexText_wordText 40 lowers_a

theorem hexText_topic : HexText 64 ERC20_TRANSFER_TOPIC := hexText_of_any (by decide +kernel)

/-- A transfer of one token of a collection: four topics, and no data. -/
def collectionLog : EthLog where
  fields := [("address", .str (wordText 40 'a')), ("topics", .arr (([ERC20_TRANSFER_TOPIC] ++
    List.replicate 3 (wordText 64 'b')).map Raw.str)), ("data", .str "0x"), ("logIndex", .str "0x0")]
  topics := [ERC20_TRANSFER_TOPIC] ++ List.replicate 3 (wordText 64 'b')
  digits := []

theorem collectionLog_wellFormed : WellFormedLog collectionLog where
  address := ⟨_, rfl, wordText_address⟩
  topics := rfl
  hashes := by
    refine ⟨by decide, fun topic htopic => ?_⟩
    rcases List.mem_append.mp htopic with htopic | htopic
    · rw [List.mem_singleton.mp htopic]
      exact hexText_topic
    · rw [List.eq_of_mem_replicate htopic]
      exact wordText_hash
  data := ⟨"0x", rfl, by decide +kernel⟩
  bytes := rfl
  index := by
    intro k hk hgiven
    rcases List.mem_pair.mp hk with rfl | rfl
    · exact .inl (by decide +kernel)
    · cases hgiven
  transaction := by
    intro k hk hgiven
    rcases List.mem_pair.mp hk with rfl | rfl <;> cases hgiven

def sampleReceipt (logs : List EthLog) : List (String × Raw) :=
  [("transactionHash", .str (wordText 64 'b')), ("blockHash", .str (wordText 64 'b')), ("blockNumber", .str "0x64"),
    ("transactionIndex", .str "0x0"), ("status", .str "0x1"), ("effectiveGasPrice", .str "0x1"),
    ("gasUsed", .str "0x5208"), ("logs", .arr (logs.map fun log => .obj log.fields))]

def sampleTransaction : List (String × Raw) :=
  [("from", .str (wordText 40 'a')), ("to", .str (wordText 40 'a')), ("value", .str "0x0")]

def samplePayload (logs : List EthLog) : List (String × Raw) :=
  [("receipt", .obj (sampleReceipt logs)), ("transaction", .obj sampleTransaction), ("chain_id", .num (.int 1)),
    ("observed_at", .str "2026-06-01T00:00:00.000Z"), ("source", .str "rpc")]

theorem spelled_hex {n : Nat} {s : String} {values : List (Option Raw)} (h : HexText n s)
    (hvalues : ∀ v ∈ values, given v = true → v = some (.str s)) (hmem : some (.str s) ∈ values) :
    Spelled (IsFixed n) values :=
  ⟨fun v hv hgiven => ⟨s, hvalues v hv hgiven, h⟩, _, hmem, rfl⟩

theorem spelled_quantity {s : String} {values : List (Option Raw)} (h : (hexQuantity s).isSome = true)
    (hvalues : ∀ v ∈ values, given v = true → v = some (.str s)) (hmem : some (.str s) ∈ values) :
    Spelled IsQuantity values :=
  ⟨fun v hv hgiven => hvalues v hv hgiven ▸ .inl h, _, hmem, rfl⟩

theorem sample_wellFormed {logs : List EthLog} (hcount : logs.length < 2 ^ 32) (hlogs : ∀ log ∈ logs, WellFormedLog log) :
    WellFormed (samplePayload logs) (sampleReceipt logs) sampleTransaction [] logs where
  hasReceipt := rfl
  hasTransaction := rfl
  hasBlock := rfl
  timestamp := nofun
  chain := ⟨1, rfl, by decide⟩
  observed := ⟨_, rfl, by decide⟩
  source := ⟨_, rfl, by decide⟩
  hash := spelled_hex wordText_hash (by simp [sampleReceipt, sampleTransaction, List.lookup_cons, List.lookup_nil, given]) (by simp [sampleReceipt, List.lookup_cons, List.lookup_nil])
  blockHash := spelled_hex wordText_hash (by simp [sampleReceipt, List.lookup_cons, List.lookup_nil, given]) (by simp [sampleReceipt, List.lookup_cons, List.lookup_nil])
  blockNumber := spelled_quantity (s := "0x64") (by decide +kernel) (by simp [sampleReceipt, List.lookup_cons, List.lookup_nil, given])
    (by simp [sampleReceipt, List.lookup_cons, List.lookup_nil])
  index := spelled_quantity (s := "0x0") (by decide +kernel) (by simp [sampleReceipt, List.lookup_cons, List.lookup_nil, given])
    (by simp [sampleReceipt, List.lookup_cons, List.lookup_nil])
  status := ⟨"1", by simp, fun _ => by simp [sampleReceipt, List.lookup_cons, List.lookup_nil]; rfl⟩
  sender := spelled_hex wordText_address (by simp [sampleReceipt, sampleTransaction, List.lookup_cons, List.lookup_nil, given])
    (by simp [sampleTransaction])
  recipient := by
    intro v hv hgiven
    rcases List.mem_pair.mp hv with rfl | rfl
    · exact ⟨_, rfl, wordText_address⟩
    · cases hgiven
  gasPrice := spelled_quantity (s := "0x1") (by decide +kernel) (by simp [sampleReceipt, List.lookup_cons, List.lookup_nil, given])
    (by simp [sampleReceipt, List.lookup_cons, List.lookup_nil])
  gasUsed := spelled_quantity (s := "0x5208") (by decide +kernel) (by simp [sampleReceipt, List.lookup_cons, List.lookup_nil, given])
    (by simp [sampleReceipt, List.lookup_cons, List.lookup_nil])
  input := by
    intro v hv hgiven
    rcases List.mem_pair.mp hv with rfl | rfl <;> cases hgiven
  value := .inl (by decide +kernel)
  hasLogs := rfl
  count := hcount
  wellFormedLogs := hlogs

theorem collection_wellFormed : WellFormed (samplePayload [collectionLog]) (sampleReceipt [collectionLog])
    sampleTransaction [] [collectionLog] :=
  sample_wellFormed (by decide) (by simpa using collectionLog_wellFormed)

/-- A well-formed receipt that is refused, for a transfer without an amount. -/
theorem collection_refused : ¬ ∀ (p : Node.Platform) (payload receipt transaction block : List (String × Raw))
    (logs : List EthLog), WellFormed payload receipt transaction block logs → Canonicalises p payload logs := by
  intro hall
  have hcanonical := (canonicalises_iff_of collection_wellFormed).mp (hall blockPlatform _ _ _ _ _ collection_wellFormed)
  have hshaped : TransferShaped collectionLog := ⟨by decide +kernel, by decide⟩
  exact absurd (hcanonical.2 collectionLog List.mem_cons_self hshaped).2.1 (by decide)

theorem quiet_canonicalised : Canonicalises blockPlatform (samplePayload []) [] ↔
    HasRecipient (sampleReceipt []) sampleTransaction ∧ ∀ log ∈ [], TransferShaped log → IsTransfer log :=
  canonicalises_iff blockPlatform _ _ _ _ _ (sample_wellFormed (by decide) nofun)

end Example

end SimpleL1.Evm
