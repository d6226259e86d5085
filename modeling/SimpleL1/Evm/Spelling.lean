import SimpleL1.Evm.Receipts
import Mathlib.Data.List.Induction

/-!
# Spellings of a receipt

Providers spell one receipt in several ways: hexadecimal texts in either case, quantities as numbers, big
integers, decimal or hexadecimal texts, and fields in camel case or in snake case. Where
`canonicalizeEthReceipt` accepts two spellings of one receipt, it makes the same of both.
-/

namespace SimpleL1.Evm

open SimpleL1.Js

/-! ## Computations that agree -/

/-- Where both return, they return the same. -/
def Agree {α : Type} (x y : JsM α) : Prop := ∀ a b, x = .ok a → y = .ok b → a = b

namespace Agree

variable {α β : Type}

theorem of_eq {x y : JsM α} (h : x = y) : Agree x y := by
  intro a b ha hb
  rw [h, hb] at ha
  exact (Except.ok.inj ha).symm

theorem bind {x y : JsM α} {f g : α → JsM β} (h : Agree x y) (hfg : ∀ a, Agree (f a) (g a)) :
    Agree (x >>= f) (y >>= g) := by
  intro b c hb hc
  obtain ⟨a, ha, hb⟩ := bind_eq_ok.mp hb
  obtain ⟨a', ha', hc⟩ := bind_eq_ok.mp hc
  obtain rfl := h a a' ha ha'
  exact hfg a b c hb hc

theorem map {x y : JsM α} (h : Agree x y) (f : α → β) : Agree (f <$> x) (f <$> y) := by
  intro b c hb hc
  obtain ⟨a, ha, rfl⟩ := map_eq_ok.mp hb
  obtain ⟨a', ha', rfl⟩ := map_eq_ok.mp hc
  exact congrArg f (h a a' ha ha')

theorem mapM_zipIdx {γ : Type} {R : α → β → Prop} {f : α × Nat → JsM γ} {g : β × Nat → JsM γ} {xs : List α}
    {ys : List β} (h : List.Forall₂ R xs ys) (hfg : ∀ x y i, R x y → Agree (f (x, i)) (g (y, i))) (n : Nat) :
    Agree ((xs.zipIdx n).mapM f) ((ys.zipIdx n).mapM g) := by
  induction h generalizing n with
  | nil => exact of_eq rfl
  | cons hxy _ ih =>
    rw [List.zipIdx_cons, List.zipIdx_cons, List.mapM_cons, List.mapM_cons]
    exact (hfg _ _ n hxy).bind fun _ => (ih (n + 1)).bind fun _ => of_eq rfl

end Agree

/-! ## Spellings of a value -/

/-- The number that a quantity denotes, in any notation. -/
def quantityOf : Raw → Option Int
  | .bigint n => some n
  | .num (.int n) => some n
  | .str s =>
    match hexDigits (toLowerCase s) with
    | some ds => if ds = [] then none else some (hexValue ds)
    | none => if s ≠ "" ∧ s.toList.all Char.isDigit then some (Nat.ofDigitChars 10 s.toList 0) else none
  | _ => none

/-- The two differ at most in the case of their letters. -/
def SameHex (v w : Option Raw) : Prop :=
  v = w ∨ ∃ s t, v = some (.str s) ∧ w = some (.str t) ∧ toLowerCase s = toLowerCase t

/-- The two differ at most in the notation of the number. -/
def SameQuantity (v w : Option Raw) : Prop :=
  v = w ∨ ∃ q r n, v = some q ∧ w = some r ∧ quantityOf q = some n ∧ quantityOf r = some n

/-- The two differ at most in the elements of the list, which are related. -/
def SameList (R : Raw → Raw → Prop) (v w : Option Raw) : Prop :=
  v = w ∨ ∃ xs ys, v = some (.arr xs) ∧ w = some (.arr ys) ∧ List.Forall₂ R xs ys

/-- `v.k`, of an optional value. -/
def field (v : Option Raw) (k : String) : Option Raw := v.bind fun v => v.prop k

/-- What a field holds under its name in camel case, or else under the one in snake case. -/
def either (v : Option Raw) (camel snake : String) : Option Raw := firstDefined [field v camel, field v snake]

structure SameLog (v w : Raw) : Prop where
  logIndex : SameQuantity (either (some v) "logIndex" "log_index") (either (some w) "logIndex" "log_index")
  transactionHash : SameHex (either (some v) "transactionHash" "transaction_hash")
    (either (some w) "transactionHash" "transaction_hash")
  address : SameHex (v.prop "address") (w.prop "address")
  data : SameHex (v.prop "data") (w.prop "data")
  topics : SameList (fun x y => SameHex (some x) (some y)) (v.prop "topics") (w.prop "topics")

structure SameReceipt (v w : Option Raw) : Prop where
  transactionHash : SameHex (either v "transactionHash" "transaction_hash")
    (either w "transactionHash" "transaction_hash")
  blockHash : SameHex (either v "blockHash" "block_hash") (either w "blockHash" "block_hash")
  blockNumber : SameQuantity (either v "blockNumber" "block_number") (either w "blockNumber" "block_number")
  transactionIndex : SameQuantity (either v "transactionIndex" "transaction_index")
    (either w "transactionIndex" "transaction_index")
  status : SameQuantity (field v "status") (field w "status")
  sender : SameHex (field v "from") (field w "from")
  recipient : SameHex (field v "to") (field w "to")
  effectiveGasPrice : SameQuantity (either v "effectiveGasPrice" "effective_gas_price")
    (either w "effectiveGasPrice" "effective_gas_price")
  gasUsed : SameQuantity (either v "gasUsed" "gas_used") (either w "gasUsed" "gas_used")
  logs : SameList SameLog (field v "logs") (field w "logs")

structure SameTransaction (v w : Option Raw) : Prop where
  hash : SameHex (field v "hash") (field w "hash")
  sender : SameHex (field v "from") (field w "from")
  recipient : SameHex (field v "to") (field w "to")
  input : SameHex (field v "input") (field w "input")
  data : SameHex (field v "data") (field w "data")
  value : SameQuantity (field v "value") (field w "value")

/-- Two spellings of one receipt with its transaction and its block. -/
structure SamePayload (v w : Option Raw) : Prop where
  chain_id : SameQuantity (field v "chain_id") (field w "chain_id")
  receipt : SameReceipt (field v "receipt") (field w "receipt")
  transaction : SameTransaction (field v "transaction") (field w "transaction")
  timestamp : SameQuantity (field (field v "block") "timestamp") (field (field w "block") "timestamp")
  observed_at : field v "observed_at" = field w "observed_at"
  source : field v "source" = field w "source"

/-! ## Texts in either case -/

theorem SameHex.normalizeHex_eq {v w : Option Raw} (h : SameHex v w) (name : String) :
    normalizeHex v name = normalizeHex w name := by
  rcases h with rfl | ⟨s, t, rfl, rfl, hlower⟩
  · rfl
  have hempty : ∀ s, s = "" ↔ toLowerCase s = "" := by
    intro s
    unfold toLowerCase
    rw [← String.toList_inj, ← String.toList_inj, String.toList_ofList]
    simp
  unfold normalizeHex requiredString
  dsimp only
  by_cases hs : s = ""
  · have ht : t = "" := by rw [hempty, ← hlower, ← hempty]; exact hs
    rw [hs, ht]
  · have ht : t ≠ "" := by rw [ne_eq, hempty, ← hlower, ← hempty]; exact hs
    rw [if_pos hs, if_pos ht, pure_eq_ok, pure_eq_ok, ok_bind, ok_bind, hlower]

theorem SameHex.normalizeFixed_eq {v w : Option Raw} (h : SameHex v w) (digits : Nat) (message name : String) :
    normalizeFixed digits message v name = normalizeFixed digits message w name := by
  unfold normalizeFixed
  rw [h.normalizeHex_eq]

/-! ## Numbers in any notation -/

theorem digitValue_toLower (c : Char) : Number.digitValue c.toLower = Number.digitValue c := by
  have hascii : ∀ n < 128, Number.digitValue (Char.ofNat n).toLower = Number.digitValue (Char.ofNat n) := by
    decide +kernel
  by_cases hc : c.toNat < 128
  · have h := hascii c.toNat hc
    rwa [Char.ofNat_toNat] at h
  · have hlower : c.toLower = c := by
      unfold Char.toLower
      rw [dif_neg]
      rintro ⟨-, hhigh⟩
      have : c.toNat ≤ 90 := UInt32.le_iff_toNat_le.mp hhigh
      omega
    rw [hlower]

theorem hexValue_lower (ds : List Char) : hexValue (ds.map Char.toLower) = hexValue ds := by
  unfold hexValue
  rw [List.foldl_map]
  simp only [digitValue_toLower]

/-- Decimal digits without a leading zero are the digits of the number they denote. -/
theorem digits_ofDigitChars {ds : List Char} (hne : ds ≠ []) (hall : ∀ c ∈ ds, c.isDigit = true)
    (hhead : ds.head? ≠ some '0') : Number.digits (Nat.ofDigitChars 10 ds 0) = ds := by
  have hdigit : ∀ c : Char, c.isDigit = true → c.toNat - '0'.toNat < 10 ∧ (c.toNat - '0'.toNat).digitChar = c := by
    intro c hc
    have hbounds : 48 ≤ c.toNat ∧ c.toNat ≤ 57 := by
      simp only [Char.isDigit, Bool.and_eq_true, decide_eq_true_eq] at hc
      exact ⟨UInt32.le_iff_toNat_le.mp hc.1, UInt32.le_iff_toNat_le.mp hc.2⟩
    have hchar : ∀ n < 10, Nat.digitChar n = Char.ofNat (n + 48) := by decide
    have hsub : c.toNat - '0'.toNat = c.toNat - 48 := rfl
    rw [hsub]
    refine ⟨by omega, ?_⟩
    rw [hchar _ (by omega), Nat.sub_add_cancel hbounds.1, Char.ofNat_toNat]
  -- From the right: the last digit is the remainder.
  induction ds using List.reverseRecOn with
  | nil => exact absurd rfl hne
  | append_singleton ds c ih =>
    obtain ⟨hlt, hchar⟩ := hdigit c (hall c (by simp))
    cases ds with
    | nil =>
      show Nat.toDigits 10 (10 * 0 + (c.toNat - '0'.toNat)) = [c]
      rw [Nat.toDigits_of_lt_base (by omega)]
      simpa using hchar
    | cons d ds =>
      have hds : Number.digits (Nat.ofDigitChars 10 (d :: ds) 0) = d :: ds :=
        ih (by simp) (fun c' hc' => hall c' (List.mem_append_left _ hc')) hhead
      have hpos : Nat.ofDigitChars 10 (d :: ds) 0 ≠ 0 := by
        intro hzero
        rw [hzero] at hds
        have : '0' = d := (List.cons.inj hds).1
        exact hhead (congrArg some this.symm)
      have hvalue : Nat.ofDigitChars 10 ((d :: ds) ++ [c]) 0 =
          10 * Nat.ofDigitChars 10 (d :: ds) 0 + (c.toNat - '0'.toNat) := by
        rw [Nat.ofDigitChars_append]
        rfl
      rw [hvalue]
      show Nat.toDigits 10 _ = _
      rw [Nat.toDigits_of_base_le (by decide) (by omega), Nat.mul_add_div (by decide), Nat.mul_add_mod,
        Nat.div_eq_of_lt hlt, Nat.mod_eq_of_lt hlt, Nat.add_zero, hchar, show Nat.toDigits 10 _ = _ from hds]

theorem hexDigits_of_hexQuantity {s : String} {ds : List Char} (h : hexQuantity s = some ds) :
    hexDigits (toLowerCase s) = some (ds.map Char.toLower) ∧ ds ≠ [] := by
  unfold hexQuantity at h
  split at h
  · next ds' hs =>
    split at h
    · next hds =>
      cases h
      refine ⟨?_, hds.1⟩
      unfold hexDigits toLowerCase
      rw [String.toList_ofList, hs]
      show (if (ds.map Char.toLower).all Node.isHexDigit = true then _ else _) = _
      rw [if_pos (by rw [List.all_map]; exact hds.2)]
    · cases h
  · cases h

/-- A decimal text is not hexadecimal, and denotes a number with its digits. -/
theorem quantityOf_of_isDecimal {s : String} (h : isDecimal s = true) :
    ∃ n : Nat, quantityOf (.str s) = some n ∧ s = decimal n := by
  have hchars : ∃ c ds, s.toList = c :: ds ∧ (∀ d ∈ c :: ds, d.isDigit = true) ∧ (c = '0' → ds = []) := by
    unfold isDecimal at h
    split at h
    · next hs => exact ⟨'0', [], hs, List.forall_mem_singleton.mpr rfl, fun _ => rfl⟩
    · next c ds _ hs =>
      simp only [Bool.and_eq_true, decide_eq_true_eq, ne_eq] at h
      refine ⟨c, ds, hs, ?_, fun hc => absurd hc h.1.1⟩
      exact List.forall_mem_cons.mpr ⟨h.1.2, List.all_eq_true.mp h.2⟩
    · cases h
  obtain ⟨c, ds, hs, hall, hzero⟩ := hchars
  have hnone : hexDigits (toLowerCase s) = none := by
    cases hd : hexDigits (toLowerCase s) with
    | none => rfl
    | some es =>
      have hlower := (hexDigits_eq_some hd).1
      unfold toLowerCase at hlower
      rw [String.toList_ofList, hs, List.map_cons] at hlower
      obtain ⟨hc, htail⟩ := List.cons.inj hlower
      have hself : c.toLower = c := toLower_of_isHexDigit (by simp [Node.isHexDigit, hall c (by simp)])
      rw [hzero (hself.symm.trans hc)] at htail
      cases htail
  have hne : s ≠ "" := by
    rintro rfl
    cases hs
  have hdigits : s.toList.all Char.isDigit = true := by
    rw [hs]
    exact List.all_eq_true.mpr hall
  refine ⟨Nat.ofDigitChars 10 s.toList 0, ?_, ?_⟩
  · unfold quantityOf
    dsimp only
    rw [hnone]
    exact if_pos ⟨hne, hdigits⟩
  · unfold decimal
    rw [← String.toList_inj, String.toList_ofList, hs]
    by_cases hc : c = '0'
    · rw [hzero hc, hc]
      decide
    · exact (digits_ofDigitChars (by simp) hall (by simpa using hc)).symm

/-- The decimal text of a number. -/
def decimalText (n : Int) : String := (if n < 0 then "-" else "") ++ decimal n.natAbs

theorem decimalText_natCast (n : Nat) : decimalText n = decimal n := by
  unfold decimalText
  rw [if_neg (by omega), String.empty_append, Int.natAbs_natCast]

/-- An accepted quantity is written in decimal. -/
theorem quantityToDecimalString_eq {v : Option Raw} {name t : String} (h : quantityToDecimalString v name = .ok t) :
    ∃ q n, v = some q ∧ quantityOf q = some n ∧ t = decimalText n := by
  unfold quantityToDecimalString at h
  split at h
  · next n =>
    cases h
    exact ⟨_, n, rfl, rfl, rfl⟩
  · next n =>
    split at h
    · cases h
    · next hsafe =>
      cases h
      rw [Bool.or_eq_true, not_or, Bool.not_eq_true', Bool.not_eq_false] at hsafe
      obtain ⟨hsafe, hneg⟩ := hsafe
      cases n with
      | int n =>
        rw [Number.int_lt_int, decide_eq_true_eq, Int.not_lt] at hneg
        obtain ⟨k, rfl⟩ := Int.eq_ofNat_of_zero_le hneg
        have hk : k ≤ 2 ^ 53 - 1 := of_decide_eq_true hsafe
        refine ⟨_, k, rfl, rfl, ?_⟩
        rw [decimalText_natCast]
        unfold Number.toString Number.chars decimal Number.signChars
        dsimp only
        rw [if_neg (by omega), List.nil_append, Int.natAbs_natCast, if_pos (by omega)]
      | _ => cases hsafe
  · next s =>
    split at h
    · next ds hds =>
      cases h
      obtain ⟨hlower, hne⟩ := hexDigits_of_hexQuantity hds
      refine ⟨_, (hexValue ds : Nat), rfl, ?_, (decimalText_natCast _).symm⟩
      unfold quantityOf
      dsimp only
      rw [hlower]
      dsimp only
      rw [if_neg (by simpa using hne), hexValue_lower]
    · next hnone =>
      split at h
      · next hdecimal =>
        cases h
        obtain ⟨n, hn, htext⟩ := quantityOf_of_isDecimal hdecimal
        exact ⟨_, n, rfl, hn, htext.trans (decimalText_natCast n).symm⟩
      · cases h
  · cases h

theorem SameQuantity.agree {v w : Option Raw} (h : SameQuantity v w) (name : String) :
    Agree (quantityToDecimalString v name) (quantityToDecimalString w name) := by
  rcases h with rfl | ⟨q, r, n, rfl, rfl, hq, hr⟩
  · exact .of_eq rfl
  intro s t hs ht
  obtain ⟨q', m, hq', hm, rfl⟩ := quantityToDecimalString_eq hs
  obtain ⟨r', k, hr', hk, rfl⟩ := quantityToDecimalString_eq ht
  cases hq'
  cases hr'
  rw [hq] at hm
  rw [hr] at hk
  rw [← Option.some.inj hm, ← Option.some.inj hk]

/-! ## Fields under either name -/

theorem SameHex.given_eq {v w : Option Raw} (h : SameHex v w) : given v = given w := by
  rcases h with rfl | ⟨s, t, rfl, rfl, -⟩ <;> rfl

theorem SameQuantity.given_eq {v w : Option Raw} (h : SameQuantity v w) : given v = given w := by
  have hgiven : ∀ {q : Raw} {n : Int}, quantityOf q = some n → given (some q) = true := by
    intro q n hq
    cases q with
    | null => cases hq
    | _ => rfl
  rcases h with rfl | ⟨q, r, n, rfl, rfl, hq, hr⟩
  · rfl
  · rw [hgiven hq, hgiven hr]

theorem firstDefined_cons (v : Option Raw) (vs : List (Option Raw)) :
    firstDefined (v :: vs) = if given v = true then v else firstDefined vs := by
  unfold firstDefined
  rw [List.find?_cons]
  cases given v <;> rfl

/-- The two names of a field count as one field. -/
theorem firstDefined_either (v : Option Raw) (camel snake : String) (rest : List (Option Raw)) :
    firstDefined (field v camel :: field v snake :: rest) = firstDefined (either v camel snake :: rest) := by
  have hnone : firstDefined [] = none := rfl
  unfold either
  simp only [firstDefined_cons, hnone]
  by_cases hcamel : given (field v camel) = true
  · simp only [hcamel, if_true]
  · by_cases hsnake : given (field v snake) = true
    · simp only [hcamel, hsnake, if_true, if_false, Bool.false_eq_true]
    · simp only [hcamel, hsnake, if_false, show given none = false from rfl, Bool.false_eq_true]

theorem firstDefined_same {R : Option Raw → Option Raw → Prop} (hgiven : ∀ {v w}, R v w → given v = given w)
    (hnone : R none none) {vs ws : List (Option Raw)} (h : List.Forall₂ R vs ws) :
    R (firstDefined vs) (firstDefined ws) := by
  induction h with
  | nil => exact hnone
  | @cons v w _ _ hvw _ ih =>
    rw [firstDefined_cons, firstDefined_cons, hgiven hvw]
    by_cases hw : given w = true
    · rw [if_pos hw, if_pos hw]
      exact hvw
    · rw [if_neg hw, if_neg hw]
      exact ih

theorem SameHex.first {vs ws : List (Option Raw)} (h : List.Forall₂ SameHex vs ws) :
    SameHex (firstDefined vs) (firstDefined ws) := firstDefined_same SameHex.given_eq (.inl rfl) h

theorem SameQuantity.first {vs ws : List (Option Raw)} (h : List.Forall₂ SameQuantity vs ws) :
    SameQuantity (firstDefined vs) (firstDefined ws) := firstDefined_same SameQuantity.given_eq (.inl rfl) h

theorem SameHex.refl (v : Option Raw) : SameHex v v := .inl rfl

theorem SameHex.fixed {v w : Option Raw} (h : SameHex v w) (digits : Nat) (message name : String) :
    Agree (normalizeFixed digits message v name) (normalizeFixed digits message w name) :=
  .of_eq (h.normalizeFixed_eq digits message name)

/-! ## Receipts -/

variable {p : Node.Platform}

theorem txFactOf_agree {payload receipt transaction block payload' receipt' transaction' block' : List (String × Raw)}
    (h : SamePayload (some (.obj payload)) (some (.obj payload')))
    (hreceipt : SameReceipt (some (.obj receipt)) (some (.obj receipt')))
    (htransaction : SameTransaction (some (.obj transaction)) (some (.obj transaction')))
    (htimestamp : SameQuantity (block.lookup "timestamp") (block'.lookup "timestamp")) :
    Agree (txFactOf p payload receipt transaction block) (txFactOf p payload' receipt' transaction' block') := by
  have hinput : SameHex
      (firstDefined [transaction.lookup "input", transaction.lookup "data", some (.str "0x")])
      (firstDefined [transaction'.lookup "input", transaction'.lookup "data", some (.str "0x")]) :=
    .first (.cons htransaction.input (.cons htransaction.data (.cons (.refl _) .nil)))
  have hhash : SameHex
      (firstDefined [receipt.lookup "transactionHash", receipt.lookup "transaction_hash", transaction.lookup "hash"])
      (firstDefined [receipt'.lookup "transactionHash", receipt'.lookup "transaction_hash",
        transaction'.lookup "hash"]) := by
    have h := SameHex.first (.cons hreceipt.transactionHash (.cons htransaction.hash .nil))
    rwa [← firstDefined_either, ← firstDefined_either] at h
  unfold txFactOf
  refine (h.chain_id.agree _).bind fun chain_id => ?_
  refine (hhash.fixed _ _ _).bind fun tx_hash => ?_
  refine (hreceipt.blockHash.fixed _ _ _).bind fun block_hash => ?_
  refine (hreceipt.blockNumber.agree _).bind fun block_number => ?_
  refine (hreceipt.transactionIndex.agree _).bind fun transaction_index => ?_
  refine (hreceipt.status.agree _).bind fun receipt_status => ?_
  refine ((SameHex.first (.cons htransaction.sender (.cons hreceipt.sender .nil))).fixed _ _ _).bind
    fun from_address => ?_
  refine ((SameHex.first (.cons htransaction.recipient (.cons hreceipt.recipient .nil))).fixed _ _ _).bind
    fun to_address => ?_
  refine (hreceipt.effectiveGasPrice.agree _).bind fun effective_gas_price => ?_
  refine (hreceipt.gasUsed.agree _).bind fun gas_used => ?_
  refine Agree.bind ?_ fun input => ?_
  · unfold normalizeNullableHex
    rw [hinput.given_eq, hinput.normalizeHex_eq]
    exact .of_eq rfl
  refine (htransaction.value.agree _).bind fun value => ?_
  refine (Agree.of_eq (congrArg (requiredString · _) h.observed_at)).bind fun observed_at => ?_
  refine (Agree.of_eq (congrArg (requiredString · _) h.source)).bind fun source => ?_
  refine Agree.bind ?_ fun timestamp => .of_eq rfl
  unfold timestampOf
  rw [htimestamp.given_eq]
  split
  · exact (htimestamp.agree _).map some
  · exact .of_eq rfl

theorem normalizeTopics_agree {v w : Raw}
    (h : SameList (fun x y => SameHex (some x) (some y)) (v.prop "topics") (w.prop "topics")) (index : Nat) :
    Agree (normalizeTopics v index) (normalizeTopics w index) := by
  unfold normalizeTopics topicsOf
  rcases h with heq | ⟨xs, ys, hxs, hys, hall⟩
  · rw [heq]
    exact .of_eq rfl
  · rw [hxs, hys]
    exact Agree.mapM_zipIdx hall (fun x y i hxy => hxy.fixed _ _ _) 0

theorem member_of_ok {v : Raw} {k : String} {a : Option Raw} (h : member v k = .ok a) : a = v.prop k := by
  unfold member at h
  split at h
  · cases h
  · cases h
    rfl

theorem normalizeLog_agree {v w : Raw} (h : SameLog v w) (fact : TxFact) (index : Nat) :
    Agree (normalizeLog p fact v index) (normalizeLog p fact w index) := by
  have hindex : SameQuantity (firstDefined [v.prop "logIndex", v.prop "log_index", some (.num (.int index))])
      (firstDefined [w.prop "logIndex", w.prop "log_index", some (.num (.int index))]) := by
    have hfirst := SameQuantity.first (.cons h.logIndex (.cons (.inl (rfl : some (Raw.num (.int index)) = _)) .nil))
    rwa [← firstDefined_either, ← firstDefined_either] at hfirst
  have hhash : SameHex (firstDefined [v.prop "transactionHash", v.prop "transaction_hash", some (.str fact.tx_hash)])
      (firstDefined [w.prop "transactionHash", w.prop "transaction_hash", some (.str fact.tx_hash)]) := by
    have hfirst := SameHex.first (.cons h.transactionHash (.cons (.refl (some (Raw.str fact.tx_hash))) .nil))
    rwa [← firstDefined_either, ← firstDefined_either] at hfirst
  have hdata : SameHex (firstDefined [v.prop "data", some (.str "0x")]) (firstDefined [w.prop "data", some (.str "0x")]) :=
    .first (.cons h.data (.cons (.refl _) .nil))
  intro x y hx hy
  unfold normalizeLog at hx hy
  obtain ⟨_, hv, hx⟩ := bind_eq_ok.mp hx
  obtain ⟨_, hw, hy⟩ := bind_eq_ok.mp hy
  obtain rfl := member_of_ok hv
  obtain rfl := member_of_ok hw
  refine Agree.bind (hindex.agree _) (fun log_index => ?_) x y hx hy
  refine (normalizeTopics_agree h.topics index).bind fun topics => ?_
  refine (hhash.fixed _ _ _).bind fun tx_hash => ?_
  refine (h.address.fixed _ _ _).bind fun emitter_address => ?_
  exact (Agree.of_eq (hdata.normalizeHex_eq _)).bind fun data => .of_eq rfl

theorem SameLog.refl (v : Raw) : SameLog v v := ⟨.inl rfl, .inl rfl, .inl rfl, .inl rfl, .inl rfl⟩

/-- The logs of the two receipts are related one by one, and missing in both or in neither. -/
theorem SameReceipt.logsOf_same {receipt receipt' : List (String × Raw)}
    (h : SameReceipt (some (.obj receipt)) (some (.obj receipt'))) :
    List.Forall₂ SameLog (logsOf receipt) (logsOf receipt') ∧
      (receipt.lookup "logs").isNone = (receipt'.lookup "logs").isNone := by
  have hlogs : SameList SameLog (receipt.lookup "logs") (receipt'.lookup "logs") := h.logs
  unfold logsOf
  rcases hlogs with heq | ⟨xs, ys, hxs, hys, hall⟩
  · rw [heq]
    exact ⟨List.forall₂_same.mpr fun log _ => .refl log, rfl⟩
  · rw [hxs, hys]
    exact ⟨hall, rfl⟩

theorem assertObject_of_ok {v : Option Raw} {name : String} {fs : List (String × Raw)}
    (h : assertObject v name = .ok fs) : v = some (.obj fs) := by
  unfold assertObject at h
  split at h
  · cases h
    rfl
  · cases h

/-- The timestamp of what stands for the block. -/
theorem lookup_blockOf {block : Option Raw} {fs : List (String × Raw)} (h : blockOf block = .ok fs) :
    fs.lookup "timestamp" = field block "timestamp" := by
  unfold blockOf at h
  split at h
  · rw [assertObject_of_ok h]
    rfl
  · next hfalsy =>
    cases h
    cases block with
    | none => rfl
    | some v =>
      cases v with
      | obj fs => exact absurd rfl hfalsy
      | _ => rfl

/-- Two spellings of a receipt that are both accepted have the same facts, with the same ids, and the same graph. -/
theorem canonicalize_agree (p : Node.Platform) (v w : Option Raw) (h : SamePayload v w) (x y : CanonicalReceipt)
    (hx : canonicalizeEthReceipt p v = .ok x) (hy : canonicalizeEthReceipt p w = .ok y) : x = y := by
  unfold canonicalizeEthReceipt at hx hy
  obtain ⟨payload, hpayload, hx⟩ := bind_eq_ok.mp hx
  obtain ⟨receipt, hreceipt, hx⟩ := bind_eq_ok.mp hx
  obtain ⟨transaction, htransaction, hx⟩ := bind_eq_ok.mp hx
  obtain ⟨block, hblock, hx⟩ := bind_eq_ok.mp hx
  obtain ⟨payload', hpayload', hy⟩ := bind_eq_ok.mp hy
  obtain ⟨receipt', hreceipt', hy⟩ := bind_eq_ok.mp hy
  obtain ⟨transaction', htransaction', hy⟩ := bind_eq_ok.mp hy
  obtain ⟨block', hblock', hy⟩ := bind_eq_ok.mp hy
  rw [assertObject_of_ok hpayload, assertObject_of_ok hpayload'] at h
  have hreceipts : SameReceipt (some (.obj receipt)) (some (.obj receipt')) := by
    rw [← assertObject_of_ok hreceipt, ← assertObject_of_ok hreceipt']
    exact h.receipt
  have htransactions : SameTransaction (some (.obj transaction)) (some (.obj transaction')) := by
    rw [← assertObject_of_ok htransaction, ← assertObject_of_ok htransaction']
    exact h.transaction
  have htimestamp : SameQuantity (block.lookup "timestamp") (block'.lookup "timestamp") := by
    rw [lookup_blockOf hblock, lookup_blockOf hblock']
    exact h.timestamp
  obtain ⟨hlogs, hmissing⟩ := hreceipts.logsOf_same
  refine (txFactOf_agree h hreceipts htransactions htimestamp).bind (fun fact => ?_) x y hx hy
  refine (Agree.mapM_zipIdx hlogs (fun _ _ index hlog => normalizeLog_agree hlog fact index) 0).bind fun logs => ?_
  rw [hmissing]
  exact .of_eq rfl

section Example

/-- A transfer, its topics in lower case. -/
def transferLog : Raw :=
  .obj [("address", .str (wordText 40 'a')), ("topics", .arr [.str ERC20_TRANSFER_TOPIC, .str (wordText 64 'b'),
    .str (wordText 64 'b')]), ("data", .str (wordText 64 '1')), ("logIndex", .str "0x0a")]

/-- The same transfer, as another provider spells it. -/
def transferLogRespelled : Raw :=
  .obj [("log_index", .num (.int 10)), ("address", .str (wordText 40 'A')), ("data", .str (wordText 64 '1')),
    ("topics", .arr [.str ERC20_TRANSFER_TOPIC, .str (wordText 64 'B'), .str (wordText 64 'b')])]

def transferPayload : Raw :=
  .obj [("chain_id", .num (.int 1)), ("observed_at", .str "2026-06-01T00:00:00.000Z"), ("source", .str "rpc"),
    ("transaction", .obj [("hash", .str (wordText 64 'b')), ("from", .str (wordText 40 'a')),
      ("to", .str (wordText 40 'a')), ("value", .str "0x00")]),
    ("block", .obj [("timestamp", .str "0x64")]),
    ("receipt", .obj [("transactionHash", .str (wordText 64 'b')), ("blockHash", .str (wordText 64 'b')),
      ("blockNumber", .str "0x0064"), ("transactionIndex", .num (.int 0)), ("status", .str "0x1"),
      ("effectiveGasPrice", .str "1000"), ("gasUsed", .str "0x5208"), ("logs", .arr [transferLog])])]

def transferPayloadRespelled : Raw :=
  .obj [("chain_id", .str "0x01"), ("observed_at", .str "2026-06-01T00:00:00.000Z"), ("source", .str "rpc"),
    ("transaction", .obj [("hash", .str (wordText 64 'B')), ("from", .str (wordText 40 'A')),
      ("to", .str (wordText 40 'a')), ("value", .bigint 0)]),
    ("block", .obj [("timestamp", .str "100")]),
    ("receipt", .obj [("transaction_hash", .str (wordText 64 'B')), ("block_hash", .str (wordText 64 'b')),
      ("block_number", .num (.int 100)), ("transaction_index", .str "0"), ("status", .bigint 1),
      ("effective_gas_price", .str "0x3E8"), ("gas_used", .str "21000"), ("logs", .arr [transferLogRespelled])])]

theorem lowers_A : Lowers 'A' 'a' := ⟨rfl, rfl⟩

theorem lowers_B : Lowers 'B' 'b' := ⟨rfl, rfl⟩

theorem sameHex_wordText {n : Nat} {c d e : Char} (hc : Lowers c e) (hd : Lowers d e) :
    SameHex (some (.str (wordText n c))) (some (.str (wordText n d))) :=
  .inr ⟨_, _, rfl, rfl, by rw [toLowerCase_wordText n hc, toLowerCase_wordText n hd]⟩

theorem sameQuantity_of {q r : Raw} (n : Int) (h : quantityOf q = some n ∧ quantityOf r = some n) :
    SameQuantity (some q) (some r) := .inr ⟨q, r, n, rfl, rfl, h⟩

theorem transferLog_respelled : SameLog transferLog transferLogRespelled where
  logIndex := sameQuantity_of (q := .str "0x0a") (r := .num (.int 10)) 10 (by decide +kernel)
  transactionHash := .inl rfl
  address := sameHex_wordText lowers_a lowers_A
  data := .inl rfl
  topics := .inr ⟨_, _, rfl, rfl,
    .cons (.refl _) (.cons (sameHex_wordText lowers_b lowers_B) (.cons (.refl _) .nil))⟩

theorem transferPayload_respelled : SamePayload (some transferPayload) (some transferPayloadRespelled) where
  chain_id := sameQuantity_of 1 (by decide +kernel)
  receipt :=
    { transactionHash := sameHex_wordText lowers_b lowers_B
      blockHash := .inl rfl
      blockNumber := sameQuantity_of (q := .str "0x0064") (r := .num (.int 100)) 100 (by decide +kernel)
      transactionIndex := sameQuantity_of (q := .num (.int 0)) (r := .str "0") 0 (by decide +kernel)
      status := sameQuantity_of 1 (by decide +kernel)
      sender := .inl rfl
      recipient := .inl rfl
      effectiveGasPrice := sameQuantity_of (q := .str "1000") (r := .str "0x3E8") 1000 (by decide +kernel)
      gasUsed := sameQuantity_of (q := .str "0x5208") (r := .str "21000") 21000 (by decide +kernel)
      logs := .inr ⟨_, _, rfl, rfl, .cons transferLog_respelled .nil⟩ }
  transaction :=
    { hash := sameHex_wordText lowers_b lowers_B
      sender := sameHex_wordText lowers_a lowers_A
      recipient := .inl rfl
      input := .inl rfl
      data := .inl rfl
      value := sameQuantity_of 0 (by decide +kernel) }
  timestamp := sameQuantity_of (q := .str "0x64") (r := .str "100") 100 (by decide +kernel)
  observed_at := rfl
  source := rfl

/-! ### What is made of them -/

theorem normalizeFixed_wordText {n : Nat} {c d : Char} (h : Lowers c d) (message name : String) :
    normalizeFixed n message (some (.str (wordText n c))) name = .ok (wordText n d) := by
  rw [normalizeFixed_eq_ok (hexText_wordText n h), toLowerCase_wordText n h]

theorem normalizeHex_wordText {n : Nat} {c d : Char} (h : Lowers c d) (name : String) :
    normalizeHex (some (.str (wordText n c))) name = .ok (wordText n d) := by
  have hne : wordText n c ≠ "" := by
    intro he
    have hlist := congrArg String.toList he
    simp [wordText] at hlist
  simp [normalizeHex, requiredString, hne, toLowerCase_wordText n h, hexDigits_wordText n h.2]

theorem toLowerCase_topic : toLowerCase ERC20_TRANSFER_TOPIC = ERC20_TRANSFER_TOPIC := by decide +kernel

theorem normalizeFixed_topic (message name : String) :
    normalizeFixed 64 message (some (.str ERC20_TRANSFER_TOPIC)) name = .ok ERC20_TRANSFER_TOPIC := by
  rw [normalizeFixed_eq_ok hexText_topic, toLowerCase_topic]

/-- The numbers of the sample receipts. -/
theorem sample_quantities (name : String) :
    quantityToDecimalString (some (.num (.int 0))) name = .ok "0" ∧
    quantityToDecimalString (some (.num (.int 1))) name = .ok "1" ∧
    quantityToDecimalString (some (.num (.int 10))) name = .ok "10" ∧
    quantityToDecimalString (some (.num (.int 100))) name = .ok "100" ∧
    quantityToDecimalString (some (.bigint 0)) name = .ok "0" ∧
    quantityToDecimalString (some (.bigint 1)) name = .ok "1" ∧
    quantityToDecimalString (some (.str "0")) name = .ok "0" ∧
    quantityToDecimalString (some (.str "0x0")) name = .ok "0" ∧
    quantityToDecimalString (some (.str "0x00")) name = .ok "0" ∧
    quantityToDecimalString (some (.str "0x01")) name = .ok "1" ∧
    quantityToDecimalString (some (.str "0x1")) name = .ok "1" ∧
    quantityToDecimalString (some (.str "0x0a")) name = .ok "10" ∧
    quantityToDecimalString (some (.str "100")) name = .ok "100" ∧
    quantityToDecimalString (some (.str "0x64")) name = .ok "100" ∧
    quantityToDecimalString (some (.str "0x0064")) name = .ok "100" ∧
    quantityToDecimalString (some (.str "1000")) name = .ok "1000" ∧
    quantityToDecimalString (some (.str "0x3E8")) name = .ok "1000" ∧
    quantityToDecimalString (some (.str "21000")) name = .ok "21000" ∧
    quantityToDecimalString (some (.str "0x5208")) name = .ok "21000" := by
  refine ⟨?_, ?_, ?_, ?_, ?_, ?_, ?_, ?_, ?_, ?_, ?_, ?_, ?_, ?_, ?_, ?_, ?_, ?_, ?_⟩ <;> rfl

theorem normalizeHex_empty (name : String) : normalizeHex (some (.str "0x")) name = .ok "0x" := rfl

theorem topicAddress_wordText {c d : Char} (h : Lowers c d) : topicAddress (wordText 64 c) = .ok (wordText 40 d) := by
  unfold topicAddress normalizeHash
  rw [normalizeFixed_wordText h, ok_bind]
  show Except.ok ("0x" ++ String.ofList _) = Except.ok (wordText 40 d)
  refine congrArg _ (String.toList_inj.mp ?_)
  simp only [wordText, String.toList_append, String.toList_ofList]
  rfl

theorem decodeUint256_wordText {n : Nat} {c d : Char} (hn : n ≠ 0) (h : Lowers c d) :
    decodeUint256 (wordText n c) = .ok (decimal (hexValue (List.replicate n d))) := by
  have hdigits : hexQuantity (wordText n d) = some (List.replicate n d) := by
    unfold hexQuantity wordText
    rw [String.toList_ofList]
    refine if_pos ⟨by simp [hn], List.all_eq_true.mpr fun e he => ?_⟩
    rw [List.eq_of_mem_replicate he, toLower_of_isHexDigit h.2]
    exact h.2
  unfold decodeUint256
  rw [normalizeHex_wordText h, ok_bind, hdigits]
  rfl

theorem lowers_1 : Lowers '1' '1' := ⟨rfl, rfl⟩

/-- A receipt whose parts are there is canonicalised part by part. -/
theorem canonicalizeEthReceipt_of {p : Node.Platform} {payload receipt transaction : List (String × Raw)}
    {block : List (String × Raw)} (fact : TxFact) (logs : List LogFact) {graph : FactGraph}
    (hreceipt : payload.lookup "receipt" = some (.obj receipt))
    (htransaction : payload.lookup "transaction" = some (.obj transaction))
    (hblock : blockOf (payload.lookup "block") = .ok block)
    (hfact : txFactOf p payload receipt transaction block = .ok fact)
    (hlogs : (logsOf receipt).zipIdx.mapM (fun log => normalizeLog p fact log.1 log.2) = .ok logs)
    (hgraph : buildFactGraph fact logs (receipt.lookup "logs").isNone = .ok graph) :
    ∃ x, canonicalizeEthReceipt p (some (.obj payload)) = .ok x ∧ x.graph = graph := by
  unfold canonicalizeEthReceipt
  simp only [assertObject, hreceipt, htransaction, hblock, pure_eq_ok, ok_bind, hfact, hlogs, hgraph]
  exact ⟨_, rfl, rfl⟩

theorem topicsOf_transfer :
    topicsOf transferLog = .ok [.str ERC20_TRANSFER_TOPIC, .str (wordText 64 'b'), .str (wordText 64 'b')] := rfl

def transferTopics : List String := [ERC20_TRANSFER_TOPIC, wordText 64 'b', wordText 64 'b']

theorem normalizeTopics_transfer : normalizeTopics transferLog 0 = .ok transferTopics := by
  unfold normalizeTopics
  rw [topicsOf_transfer, ok_bind]
  simp only [List.zipIdx_cons, List.zipIdx_nil, List.mapM_cons, List.mapM_nil, normalizeHash, normalizeFixed_topic,
    normalizeFixed_wordText lowers_b, ok_bind, pure_eq_ok]
  rfl

/-- The fact of the log of a transfer. -/
def transferLogFact (txFact : TxFact) : LogFact := LogFact.identified blockPlatform
  { fact_id := "", chain_id := txFact.chain_id, block_number := txFact.block_number, block_hash := txFact.block_hash,
    tx_hash := wordText 64 'b', transaction_index := txFact.transaction_index,
    receipt_status := txFact.receipt_status, log_index := "10", emitter_address := wordText 40 'a',
    event_signature := some ERC20_TRANSFER_TOPIC, topics := transferTopics, data := wordText 64 '1',
    observed_at := txFact.observed_at, source := txFact.source, timestamp := txFact.timestamp }

theorem normalizeLog_transfer {txFact : TxFact} (h : txFact.tx_hash = wordText 64 'b') :
    normalizeLog blockPlatform txFact transferLog 0 = .ok (transferLogFact txFact) := by
  unfold normalizeLog transferLogFact
  simp only [normalizeTopics_transfer, h]
  simp [transferLog, List.lookup_cons, List.lookup_nil, firstDefined, given, List.find?, normalizeHash, normalizeAddress,
    normalizeFixed_wordText lowers_a, normalizeFixed_wordText lowers_b, sample_quantities,
    normalizeHex_wordText lowers_1, member, Raw.prop, transferTopics]

def sampleTransfer : Erc20Transfer where
  token_contract := wordText 40 'a'
  topic_from := wordText 40 'b'
  topic_to := wordText 40 'b'
  raw_amount := decimal (hexValue (List.replicate 64 '1'))

theorem decodeErc20Transfer_transfer (txFact : TxFact) :
    decodeErc20Transfer (transferLogFact txFact) = .ok (some sampleTransfer) := by
  have htopics : (transferLogFact txFact).topics = [ERC20_TRANSFER_TOPIC, wordText 64 'b', wordText 64 'b'] := rfl
  have hsignature : (transferLogFact txFact).event_signature = some ERC20_TRANSFER_TOPIC := rfl
  have hdata : (transferLogFact txFact).data = wordText 64 '1' := rfl
  have htoken : (transferLogFact txFact).emitter_address = wordText 40 'a' := rfl
  unfold decodeErc20Transfer
  simp only [htopics, hsignature, hdata, htoken, if_true, topicAddress_wordText lowers_b, ok_bind, pure_eq_ok,
    decodeUint256_wordText (n := 64) (by decide) lowers_1, sampleTransfer]

def transferNodes (txFact : TxFact) : List GraphNode :=
  [.log (transferLogFact txFact), .erc20 (transferLogFact txFact) sampleTransfer]

/-- The graph of a transaction with one transfer. -/
def transferGraph (txFact : TxFact) : FactGraph where
  txFact
  logFacts := [transferLogFact txFact]
  nodes := .tx txFact :: revertNodes txFact ++ transferNodes txFact
  edges := (revertNodes txFact).map (fun node => ((GraphNode.tx txFact).id, node.id)) ++
    logEdges txFact (transferNodes txFact)
  logsMissing := false

theorem buildFactGraph_transfer (txFact : TxFact) :
    buildFactGraph txFact [transferLogFact txFact] false = .ok (transferGraph txFact) := by
  have hnodes : logNodes (transferLogFact txFact) = .ok (transferNodes txFact) := by
    unfold logNodes
    rw [decodeErc20Transfer_transfer]
    rfl
  unfold buildFactGraph transferGraph
  simp only [List.mapM_cons, List.mapM_nil, hnodes, ok_bind, pure_eq_ok, List.flatten_cons, List.flatten_nil,
    List.append_nil, List.flatMap_cons, List.flatMap_nil]

def transferTxFact : TxFact := TxFact.identified blockPlatform
  { fact_id := "", chain_id := "1", block_number := "100", block_hash := wordText 64 'b', tx_hash := wordText 64 'b',
    transaction_index := "0", receipt_status := "1",
    raw_data := { effective_gas_price := "1000", from_address := wordText 40 'a', gas_used := "21000",
                  input := some "0x", to_address := wordText 40 'a', value := "0" },
    observed_at := "2026-06-01T00:00:00.000Z", source := "rpc", timestamp := some "100" }

theorem transferPayload_ok : ∃ x, canonicalizeEthReceipt blockPlatform (some transferPayload) = .ok x ∧
    x.graph = transferGraph transferTxFact := by
  refine canonicalizeEthReceipt_of transferTxFact [transferLogFact transferTxFact]
    (by simp [List.lookup_cons, List.lookup_nil]; rfl) (by simp [List.lookup_cons, List.lookup_nil]; rfl)
    (by simp [List.lookup_cons, List.lookup_nil, blockOf, Raw.truthy, assertObject]; rfl) ?_ ?_ ?_
  · unfold txFactOf transferTxFact
    simp [List.lookup_cons, List.lookup_nil, firstDefined, given, List.find?, normalizeHash, normalizeAddress, normalizeFixed_wordText lowers_a,
      normalizeFixed_wordText lowers_b, sample_quantities, normalizeNullableHex, normalizeHex_empty, requiredString,
      timestampOf]
  · simp [logsOf, List.lookup_cons, List.lookup_nil, normalizeLog_transfer (rfl : transferTxFact.tx_hash = _)]
  · simp [List.lookup_cons, List.lookup_nil, buildFactGraph_transfer]

theorem normalizeLog_respelled {txFact : TxFact} (h : txFact.tx_hash = wordText 64 'b') :
    normalizeLog blockPlatform txFact transferLogRespelled 0 = .ok (transferLogFact txFact) := by
  have htopics : normalizeTopics transferLogRespelled 0 = .ok transferTopics := by
    have hraw : topicsOf transferLogRespelled =
        .ok [.str ERC20_TRANSFER_TOPIC, .str (wordText 64 'B'), .str (wordText 64 'b')] := rfl
    unfold normalizeTopics
    rw [hraw, ok_bind]
    simp only [List.zipIdx_cons, List.zipIdx_nil, List.mapM_cons, List.mapM_nil, normalizeHash, normalizeFixed_topic,
      normalizeFixed_wordText lowers_b, normalizeFixed_wordText lowers_B, ok_bind, pure_eq_ok]
    rfl
  unfold normalizeLog transferLogFact
  simp only [htopics, h]
  simp [transferLogRespelled, List.lookup_cons, List.lookup_nil, firstDefined, given, List.find?, normalizeHash, normalizeAddress,
    normalizeFixed_wordText lowers_A, normalizeFixed_wordText lowers_b, sample_quantities,
    normalizeHex_wordText lowers_1, member, Raw.prop, transferTopics]

theorem transferPayloadRespelled_ok : ∃ x,
    canonicalizeEthReceipt blockPlatform (some transferPayloadRespelled) = .ok x ∧ x.graph = transferGraph transferTxFact := by
  refine canonicalizeEthReceipt_of transferTxFact [transferLogFact transferTxFact]
    (by simp [List.lookup_cons, List.lookup_nil]; rfl) (by simp [List.lookup_cons, List.lookup_nil]; rfl)
    (by simp [List.lookup_cons, List.lookup_nil, blockOf, Raw.truthy, assertObject]; rfl) ?_ ?_ ?_
  · unfold txFactOf transferTxFact
    simp [List.lookup_cons, List.lookup_nil, firstDefined, given, List.find?, normalizeHash, normalizeAddress, normalizeFixed_wordText lowers_a,
      normalizeFixed_wordText lowers_A, normalizeFixed_wordText lowers_b, normalizeFixed_wordText lowers_B,
      sample_quantities, normalizeNullableHex, normalizeHex_empty, requiredString, timestampOf]
  · simp [logsOf, List.lookup_cons, List.lookup_nil, normalizeLog_respelled (rfl : transferTxFact.tx_hash = _)]
  · simp [List.lookup_cons, List.lookup_nil, buildFactGraph_transfer]

/-- Both spellings are accepted, and agree. -/
theorem transferPayload_agree : ∃ x y, canonicalizeEthReceipt blockPlatform (some transferPayload) = .ok x ∧
    canonicalizeEthReceipt blockPlatform (some transferPayloadRespelled) = .ok y ∧ x = y := by
  obtain ⟨x, hx, -⟩ := transferPayload_ok
  obtain ⟨y, hy, -⟩ := transferPayloadRespelled_ok
  exact ⟨x, y, hx, hy, canonicalize_agree blockPlatform _ _ transferPayload_respelled x y hx hy⟩

end Example

end SimpleL1.Evm
