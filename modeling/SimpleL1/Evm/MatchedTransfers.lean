import SimpleL1.Evm.Reconciliation
import SimpleL1.Evm.Spelling
import SimpleL1.Lib.Runs

/-!
# What a match identifies

A match should mean one successful transfer: the intent's chain, token and parties, at least its amount,
and no other transfer of the graph that settles an intent given. It does not where the transaction was
reverted, as token transfers are matched whatever its status, nor where another intent of a list is set
aside as ambiguous, although there is a transfer that settles it.
-/

namespace SimpleL1.Evm.Reconciliation

open SimpleL1.Js

/-! ## The only one -/

/-- `x` is at the one position of the list where `P` holds. -/
def Sole {α : Type} (P : α → Prop) (xs : List α) (x : α) : Prop :=
  ∃ l r, xs = l ++ x :: r ∧ P x ∧ ∀ y ∈ l ++ r, ¬ P y

section
variable {α β : Type}

open Classical in
theorem sole_iff_filter {P : α → Prop} {xs : List α} {x : α} : Sole P xs x ↔ xs.filter (fun y => P y) = [x] := by
  rw [List.filter_eq_cons_iff]
  constructor
  · rintro ⟨l, r, hxs, hx, hnone⟩
    refine ⟨l, r, hxs, fun y hy => ?_, decide_eq_true hx, List.filter_eq_nil_iff.mpr fun y hy => ?_⟩
    · simpa using hnone y (List.mem_append_left r hy)
    · simpa using hnone y (List.mem_append_right l hy)
  · rintro ⟨l, r, hxs, hl, hx, hr⟩
    refine ⟨l, r, hxs, of_decide_eq_true hx, fun y hy => ?_⟩
    rcases List.mem_append.mp hy with hy | hy
    · simpa using hl y hy
    · simpa using List.filter_eq_nil_iff.mp hr y hy

theorem Sole.holds {P : α → Prop} {xs : List α} {x : α} (h : Sole P xs x) : P x := by
  obtain ⟨_, _, _, hx, _⟩ := h
  exact hx

theorem Sole.mem {P : α → Prop} {xs : List α} {x : α} (h : Sole P xs x) : x ∈ xs := by
  obtain ⟨l, r, rfl, _⟩ := h
  exact List.mem_append_right l List.mem_cons_self

theorem Sole.congr {P Q : α → Prop} {xs : List α} {x : α} (h : Sole P xs x) (hiff : ∀ y ∈ xs, P y ↔ Q y) :
    Sole Q xs x := by
  obtain ⟨l, r, rfl, hx, hnone⟩ := h
  refine ⟨l, r, rfl, (hiff x (by simp)).mp hx, fun y hy hQ => hnone y hy ((hiff y ?_).mpr hQ)⟩
  rcases List.mem_append.mp hy with hy | hy
  · exact List.mem_append_left _ hy
  · exact List.mem_append_right l (List.mem_cons_of_mem x hy)

/-- Around one position that has the property, the others do not. -/
theorem Sole.others {P : α → Prop} {l r : List α} {x y : α} (h : Sole P (l ++ x :: r) y) (hx : P x) :
    ∀ z ∈ l ++ r, ¬ P z := by
  classical
  rw [sole_iff_filter, List.filter_append, List.filter_cons_of_pos (p := fun z => decide (P z)) (decide_eq_true hx)] at h
  have hlength := congrArg List.length h
  rw [List.length_append, List.length_cons, List.length_singleton] at hlength
  have hl : l.filter (fun z => P z) = [] := List.eq_nil_of_length_eq_zero (by omega)
  have hr : r.filter (fun z => P z) = [] := List.eq_nil_of_length_eq_zero (by omega)
  intro z hz
  rcases List.mem_append.mp hz with hz | hz
  · simpa using List.filter_eq_nil_iff.mp hl z hz
  · simpa using List.filter_eq_nil_iff.mp hr z hz

theorem Sole.map {f : α → β} {P : β → Prop} {xs : List α} {x : α} (h : Sole (fun y => P (f y)) xs x) :
    Sole P (xs.map f) (f x) := by
  obtain ⟨l, r, rfl, hx, hnone⟩ := h
  refine ⟨l.map f, r.map f, by rw [List.map_append, List.map_cons], hx, ?_⟩
  rw [← List.map_append]
  exact List.forall_mem_map.mpr hnone

/-- What a callback keeps is what has the property that it decides. -/
theorem filter_eq_decide {f : α → JsM Bool} {P : α → Prop} [DecidablePred P] (hP : ∀ x, f x = .ok true ↔ P x)
    {xs ys : List α} (h : filter f xs = .ok ys) : ys = xs.filter fun x => P x := by
  have hdecides : ∀ x ∈ xs, f x = .ok (decide (P x)) := by
    intro x hx
    obtain ⟨b, hb⟩ := exists_filter.mp ⟨ys, h⟩ x hx
    rw [hb]
    cases b with
    | true => rw [decide_eq_true ((hP x).mp hb)]
    | false => rw [decide_eq_false fun hPx => by rw [(hP x).mpr hPx] at hb; cases hb]
  rw [filter_eq hdecides] at h
  exact (Except.ok.inj h).symm

end

/-! ## Transfers -/

/-- A movement of value that a graph has a fact of, by token or by the native coin. -/
structure Transfer where
  fact_id : String
  intent_type : String
  chain_id : String
  tx_hash : String
  receipt_status : String
  token : Option String
  sender : String
  recipient : String
  amount : String

def TxFact.transfer (fact : TxFact) : Transfer :=
  { fact_id := fact.fact_id, intent_type := "EVM_NATIVE_TRANSFER", chain_id := fact.chain_id, tx_hash := fact.tx_hash,
    receipt_status := fact.receipt_status, token := none, sender := fact.raw_data.from_address,
    recipient := fact.raw_data.to_address, amount := fact.raw_data.value }

def TransferNode.toTransfer (node : TransferNode) : Transfer :=
  { fact_id := node.fact.fact_id, intent_type := "ERC20_TRANSFER", chain_id := node.fact.chain_id,
    tx_hash := node.fact.tx_hash, receipt_status := node.fact.receipt_status,
    token := some node.transfer.token_contract, sender := node.transfer.topic_from,
    recipient := node.transfer.topic_to, amount := node.transfer.raw_amount }

/-- The transfers that a graph has facts of. -/
def transfers (graph : FactGraph) : List Transfer :=
  TxFact.transfer graph.txFact :: (erc20TransferNodes graph).map TransferNode.toTransfer

section
variable (p : Node.Platform)

/-- The value is the text, up to the case of letters; what is missing is the empty text. -/
def Names (v : Option Json) (text : String) : Prop := ∃ s, strOrEmpty v = .ok s ∧ p.lower text = p.lower s

/-- The transfer is on the terms of the intent, whatever became of its transaction. -/
structure OnTerms (intent : Json) (t : Transfer) : Prop where
  type : hasType intent t.intent_type = true
  chain : Names p (intent.prop "chain_id") t.chain_id
  token : ∀ token ∈ t.token, Names p (intent.prop "token_contract") token
  sender : truthy (intent.prop "sender") = true → Names p (intent.prop "sender") t.sender
  recipient : Names p (intent.prop "recipient") t.recipient
  amount : ∃ moved asked, bigInt (some (.str t.amount)) = .ok moved ∧ bigInt (intent.prop "amount_raw") = .ok asked ∧
    asked ≤ moved

/-- A successful transfer on the terms of the intent. -/
def Settles (intent : Json) (t : Transfer) : Prop := OnTerms p intent t ∧ t.receipt_status = "1"

/-- The intents given: the members of a list, or the one. -/
def intentsOf : Json → List Json
  | .arr intents => intents
  | intent => [intent]

/-- The result is of a finalized verdict, and names the one transfer that settles the one intent given that any
transfer settles. -/
def Identifies (graph : FactGraph) (fplVerdict : Option Json) (input : Json) (r : Result) : Prop :=
  isFinalized fplVerdict = true ∧ ∃ intent t,
    Sole (fun i => ∃ u ∈ transfers graph, Settles p i u) (intentsOf input) intent ∧
    Sole (Settles p intent) (transfers graph) t ∧ r.matched_fact_id = some t.fact_id

/-- Where the result is a match, it identifies. -/
def MatchIdentifies (graph : FactGraph) (fplVerdict : Option Json) (input : Json) : Prop :=
  ∀ r, reconcile p graph fplVerdict input = .ok r → r.status = .MATCHED → Identifies p graph fplVerdict input r

/-! ## When a match identifies -/

/-- The intent can be read against the graph without an error. -/
def Readable (graph : FactGraph) (intent : Json) : Prop :=
  isSupported intent = true → ∃ marked, markedDuplicate intent = .ok marked ∧ (marked = false →
    if hasType intent "EVM_NATIVE_TRANSFER" then ∃ b, nativeMeets p intent graph.txFact = .ok b
    else ∀ node ∈ erc20TransferNodes graph, ∃ b, erc20Meets p intent node = .ok b)

/-- The status of a transaction is asked for only by the native filter. -/
def Counts (intent : Json) (t : Transfer) : Prop :=
  OnTerms p intent t ∧ (t.token = none → t.receipt_status = "1")

/-- The intent is not marked as a duplicate, one transfer counts for it, and no other log of a token transfer's
transaction stands beside it. -/
structure Clear (graph : FactGraph) (intent : Json) (t : Transfer) : Prop where
  unmarked : markedDuplicate intent = .ok false
  sole : Sole (Counts p intent) (transfers graph) t
  single : t.token ≠ none → isCompositeTransaction p graph t.chain_id t.tx_hash = .ok false

/-- Where a single intent given is clear, the transaction succeeded and no other intent has a transfer on its terms. -/
def Unshadowed (graph : FactGraph) (fplVerdict : Option Json) (input : Json) : Prop :=
  isFinalized fplVerdict = true → (∀ i ∈ intentsOf input, Readable p graph i) →
    ∀ before intent after t, intentsOf input = before ++ intent :: after → Clear p graph intent t →
      (∀ i ∈ before ++ after, ∀ u, ¬ Clear p graph i u) →
      graph.txFact.receipt_status = "1" ∧ ∀ i ∈ before ++ after, ∀ u ∈ transfers graph, ¬ OnTerms p i u

end

/-! ## One intent -/

variable {p : Node.Platform} {graph : FactGraph} {intent : Json}

theorem same_iff {text : String} {v : Option Json} : same p (some (.str text)) v = .ok true ↔ Names p v text := by
  unfold same Names
  rw [strOrEmpty_str, ok_bind, bind_eq_ok]
  refine exists_congr fun s => and_congr_right fun _ => ?_
  rw [pure_eq_ok, Except.ok.injEq, decide_eq_true_eq]

theorem senderMeets_iff {sender : String} : senderMeets p sender intent = .ok true ↔
    (truthy (intent.prop "sender") = true → Names p (intent.prop "sender") sender) := by
  unfold senderMeets
  by_cases hsender : truthy (intent.prop "sender") = true
  · rw [if_pos hsender, same_iff]
    exact ⟨fun h _ => h, fun h => h hsender⟩
  · rw [if_neg hsender]
    exact ⟨fun _ h => absurd h hsender, fun _ => rfl⟩

theorem amountMeets_iff {amount : String} : amountMeets amount intent = .ok true ↔
    ∃ moved asked, bigInt (some (.str amount)) = .ok moved ∧ bigInt (intent.prop "amount_raw") = .ok asked ∧
      asked ≤ moved := by
  unfold amountMeets
  rw [bind_eq_ok]
  refine exists_congr fun moved => ?_
  rw [bind_eq_ok, ← exists_and_left]
  refine exists_congr fun asked => and_congr_right fun _ => and_congr_right fun _ => ?_
  rw [pure_eq_ok, Except.ok.injEq, decide_eq_true_eq]

theorem erc20Meets_iff (htype : hasType intent "ERC20_TRANSFER" = true) (node : TransferNode) :
    erc20Meets p intent node = .ok true ↔ OnTerms p intent node.toTransfer := by
  unfold erc20Meets
  rw [both_eq_true, both_eq_true, both_eq_true, both_eq_true, same_iff, same_iff, same_iff, senderMeets_iff,
    amountMeets_iff]
  constructor
  · rintro ⟨hchain, htoken, hsender, hrecipient, hamount⟩
    exact ⟨htype, hchain, fun token h => by cases h; exact htoken, hsender, hrecipient, hamount⟩
  · rintro ⟨-, hchain, htoken, hsender, hrecipient, hamount⟩
    exact ⟨hchain, htoken _ rfl, hsender, hrecipient, hamount⟩

theorem nativeMeets_iff (htype : hasType intent "EVM_NATIVE_TRANSFER" = true) (fact : TxFact) :
    nativeMeets p intent fact = .ok true ↔ Counts p intent (TxFact.transfer fact) := by
  unfold nativeMeets
  rw [both_eq_true, both_eq_true, both_eq_true, both_eq_true, same_iff, same_iff, senderMeets_iff, amountMeets_iff,
    pure_eq_ok, Except.ok.injEq, decide_eq_true_eq]
  constructor
  · rintro ⟨hstatus, hchain, hsender, hrecipient, hamount⟩
    exact ⟨⟨htype, hchain, nofun, hsender, hrecipient, hamount⟩, fun _ => hstatus⟩
  · rintro ⟨⟨-, hchain, -, hsender, hrecipient, hamount⟩, hstatus⟩
    exact ⟨hstatus rfl, hchain, hsender, hrecipient, hamount⟩

theorem not_erc20_of_native (h : hasType intent "EVM_NATIVE_TRANSFER" = true) :
    hasType intent "ERC20_TRANSFER" = false := by
  unfold hasType at h ⊢
  rw [strictEq_str_iff.mp h]
  decide

theorem isSupported_iff : isSupported intent = true ↔
    hasType intent "ERC20_TRANSFER" = true ∨ hasType intent "EVM_NATIVE_TRANSFER" = true := by
  have htruthy : ∀ {type : String}, hasType intent type = true → intent.truthy = true := by
    intro type h
    have hprop : intent.prop "intent_type" = some (.str type) := strictEq_str_iff.mp h
    cases intent with
    | obj fs => rfl
    | _ => cases hprop
  unfold isSupported
  rw [Bool.and_eq_true, Bool.or_eq_true, and_iff_right_iff_imp]
  rintro (h | h)
  · exact htruthy h
  · exact htruthy h

open Classical in
theorem sole_native (htype : hasType intent "EVM_NATIVE_TRANSFER" = true) {t : Transfer} :
    Sole (Counts p intent) (transfers graph) t ↔
      Counts p intent (TxFact.transfer graph.txFact) ∧ TxFact.transfer graph.txFact = t := by
  have hnone : ((erc20TransferNodes graph).map TransferNode.toTransfer).filter (fun u => Counts p intent u) = [] := by
    rw [List.filter_eq_nil_iff, List.forall_mem_map]
    intro node _ hcounts
    have h : hasType intent "ERC20_TRANSFER" = true := (of_decide_eq_true hcounts).1.type
    rw [not_erc20_of_native htype] at h
    cases h
  rw [sole_iff_filter]
  unfold transfers
  rw [List.filter_cons, hnone]
  by_cases hcounts : Counts p intent (TxFact.transfer graph.txFact)
  · rw [if_pos (decide_eq_true hcounts), and_iff_right hcounts, List.singleton_inj]
  · rw [if_neg (by simpa using hcounts)]
    exact ⟨nofun, fun h => absurd h.1 hcounts⟩

open Classical in
theorem sole_erc20 (htype : hasType intent "ERC20_TRANSFER" = true) {t : Transfer} :
    Sole (Counts p intent) (transfers graph) t ↔ ∃ node,
      (erc20TransferNodes graph).filter (fun n => OnTerms p intent n.toTransfer) = [node] ∧ node.toTransfer = t := by
  have hnative : ¬ Counts p intent (TxFact.transfer graph.txFact) := by
    intro hcounts
    have h := not_erc20_of_native hcounts.1.type
    rw [htype] at h
    cases h
  have hcounts : ∀ n : TransferNode, Counts p intent n.toTransfer ↔ OnTerms p intent n.toTransfer :=
    fun n => and_iff_left nofun
  rw [sole_iff_filter]
  unfold transfers
  rw [List.filter_cons_of_neg (by simpa using hnative), List.filter_map, List.map_eq_singleton_iff]
  simp only [Function.comp_def, hcounts]

/-! ## What a result reports -/

/-- The result is a match just when there is a transfer with the property, and names it. -/
def Reports (r : Result) (P : Transfer → Prop) : Prop :=
  (r.status = .MATCHED → ∃ t, P t) ∧ ∀ t, P t → r.status = .MATCHED ∧ r.matched_fact_id = some t.fact_id

theorem Reports.none {r : Result} {P : Transfer → Prop} (hr : r.status ≠ .MATCHED) (hP : ∀ t, ¬ P t) : Reports r P :=
  ⟨fun h => absurd h hr, fun t ht => absurd ht (hP t)⟩

theorem Reports.congr {r : Result} {P Q : Transfer → Prop} (h : Reports r P) (hiff : ∀ t, P t ↔ Q t) : Reports r Q :=
  ⟨fun hr => (h.1 hr).imp fun t => (hiff t).mp, fun t ht => h.2 t ((hiff t).mpr ht)⟩

theorem reconcileNativeTransfer_reports (htype : hasType intent "EVM_NATIVE_TRANSFER" = true) {r : Result}
    (h : reconcileNativeTransfer p graph intent = .ok r) : Reports r (Sole (Counts p intent) (transfers graph)) := by
  unfold reconcileNativeTransfer txFacts at h
  obtain ⟨facts, hfacts, h⟩ := bind_eq_ok.mp h
  obtain ⟨keep, rest, hkeep, hrest, rfl⟩ := filter_cons_eq_ok.mp hfacts
  cases hrest
  cases keep with
  | true =>
    cases h
    have hcounts := (nativeMeets_iff htype graph.txFact).mp hkeep
    refine ⟨fun _ => ⟨_, (sole_native htype).mpr ⟨hcounts, rfl⟩⟩, fun t ht => ?_⟩
    obtain ⟨-, rfl⟩ := (sole_native htype).mp ht
    exact ⟨rfl, rfl⟩
  | false =>
    cases h
    refine .none (by decide) fun t ht => ?_
    have h := (nativeMeets_iff htype graph.txFact).mpr ((sole_native htype).mp ht).1
    rw [hkeep] at h
    cases h

theorem reconcileErc20Transfer_reports (htype : hasType intent "ERC20_TRANSFER" = true) {r : Result}
    (h : reconcileErc20Transfer p graph intent = .ok r) :
    Reports r fun t => Sole (Counts p intent) (transfers graph) t ∧
      isCompositeTransaction p graph t.chain_id t.tx_hash = .ok false := by
  classical
  unfold reconcileErc20Transfer at h
  obtain ⟨nodes, hnodes, h⟩ := bind_eq_ok.mp h
  have hfilter := filter_eq_decide (erc20Meets_iff (p := p) htype) hnodes
  split at h
  · cases h
    refine .none (by decide) fun t ht => ?_
    obtain ⟨node, hnode, -⟩ := (sole_erc20 htype).mp ht.1
    rw [← hfilter] at hnode
    cases hnode
  · next node =>
    have hsole : ∀ t, Sole (Counts p intent) (transfers graph) t ↔ node.toTransfer = t := by
      intro t
      rw [sole_erc20 htype, ← hfilter]
      simp
    obtain ⟨composite, hcomposite, h⟩ := bind_eq_ok.mp h
    cases composite with
    | true =>
      cases h
      refine .none (by decide) fun t ht => ?_
      obtain rfl := (hsole t).mp ht.1
      have hfalse := ht.2
      rw [show isCompositeTransaction p graph node.toTransfer.chain_id node.toTransfer.tx_hash = _ from hcomposite]
        at hfalse
      cases hfalse
    | false =>
      cases h
      refine ⟨fun _ => ⟨_, (hsole _).mpr rfl, hcomposite⟩, fun t ht => ?_⟩
      obtain rfl := (hsole t).mp ht.1
      exact ⟨rfl, rfl⟩
  · next hnil hone =>
    cases h
    refine .none (by decide) fun t ht => ?_
    obtain ⟨node, hnode, -⟩ := (sole_erc20 htype).mp ht.1
    rw [← hfilter] at hnode
    exact hone node hnode

/-- What an intent is found to have, where it can be read. -/
theorem reconcileIntent_reports {r : Result} (h : reconcileIntent p graph intent = .ok r) :
    Reports r (Clear p graph intent) := by
  unfold reconcileIntent at h
  by_cases hsupported : isSupported intent = false
  · rw [if_pos hsupported] at h
    cases h
    refine .none (by decide) fun t ht => ?_
    have htype := ht.sole.holds.1.type
    rw [← Bool.not_eq_true, isSupported_iff, not_or] at hsupported
    rcases List.mem_cons.mp ht.sole.mem with rfl | hmem
    · exact hsupported.2 htype
    · obtain ⟨node, -, rfl⟩ := List.mem_map.mp hmem
      exact hsupported.1 htype
  rw [if_neg hsupported] at h
  obtain ⟨marked, hmarked, h⟩ := bind_eq_ok.mp h
  cases marked with
  | true =>
    cases h
    refine .none (by decide) fun t ht => ?_
    have hfalse := ht.unmarked
    rw [hmarked] at hfalse
    cases hfalse
  | false =>
    rw [if_neg Bool.false_ne_true] at h
    by_cases hnative : hasType intent "EVM_NATIVE_TRANSFER" = true
    · rw [if_pos hnative] at h
      refine (reconcileNativeTransfer_reports hnative h).congr fun t => ⟨fun ht => ?_, fun ht => ht.sole⟩
      obtain ⟨-, rfl⟩ := (sole_native hnative).mp ht
      exact ⟨hmarked, ht, fun hne => absurd rfl hne⟩
    · rw [if_neg hnative] at h
      have htype : hasType intent "ERC20_TRANSFER" = true :=
        (isSupported_iff.mp (by simpa using hsupported)).resolve_right hnative
      refine (reconcileErc20Transfer_reports htype h).congr fun t => ⟨fun ht => ⟨hmarked, ht.1, fun _ => ht.2⟩, ?_⟩
      intro ht
      refine ⟨ht.sole, ht.single ?_⟩
      obtain ⟨node, -, rfl⟩ := (sole_erc20 htype).mp ht.sole
      exact nofun

theorem readable_iff : Readable p graph intent ↔ ∃ r, reconcileIntent p graph intent = .ok r := by
  unfold Readable reconcileIntent
  by_cases hsupported : isSupported intent = false
  · rw [if_pos hsupported, hsupported]
    exact ⟨fun _ => ⟨_, rfl⟩, fun _ => nofun⟩
  rw [if_neg hsupported, Bool.not_eq_false] at *
  rw [forall_prop_of_true hsupported]
  constructor
  · rintro ⟨marked, hmarked, h⟩
    rw [hmarked, ok_bind]
    cases marked with
    | true => exact ⟨_, rfl⟩
    | false =>
      rw [if_neg Bool.false_ne_true]
      specialize h rfl
      split at h
      · next hnative =>
        obtain ⟨b, hb⟩ := h
        rw [if_pos hnative]
        unfold reconcileNativeTransfer txFacts filter filter
        rw [hb, ok_bind, pure_eq_ok, ok_bind]
        cases b <;> exact ⟨_, rfl⟩
      · next hnative =>
        obtain ⟨nodes, hnodes⟩ := exists_filter.mpr h
        rw [if_neg hnative]
        unfold reconcileErc20Transfer
        rw [hnodes, ok_bind]
        split
        · exact ⟨_, rfl⟩
        · next node =>
          obtain ⟨composite, hcomposite⟩ :
              ∃ b, isCompositeTransaction p graph node.fact.chain_id node.fact.tx_hash = .ok b :=
            isCompositeTransaction_ok ..
          rw [hcomposite, ok_bind]
          cases composite <;> exact ⟨_, rfl⟩
        · exact ⟨_, rfl⟩
  · rintro ⟨r, h⟩
    obtain ⟨marked, hmarked, h⟩ := bind_eq_ok.mp h
    refine ⟨marked, hmarked, ?_⟩
    rintro rfl
    rw [if_neg Bool.false_ne_true] at h
    split at h
    · next hnative =>
      rw [if_pos hnative]
      obtain ⟨facts, hfacts, -⟩ := bind_eq_ok.mp h
      exact exists_filter.mp ⟨facts, hfacts⟩ _ (List.mem_singleton_self _)
    · next hnative =>
      rw [if_neg hnative]
      obtain ⟨nodes, hnodes, -⟩ := bind_eq_ok.mp h
      exact exists_filter.mp ⟨nodes, hnodes⟩

/-! ## The intents given -/

variable {input : Json}

theorem reconcileFinalized_of_flat (h : intent.isArray = false) :
    reconcileFinalized p graph intent = reconcileIntent p graph intent := by
  cases intent with
  | arr intents => cases h
  | _ => rfl

theorem mapM_congr_flat {intents : List Json} (h : ∀ i ∈ intents, i.isArray = false) :
    intents.mapM (reconcileFinalized p graph) = intents.mapM (reconcileIntent p graph) := by
  induction intents with
  | nil => rfl
  | cons i is ih =>
    rw [List.mapM_cons, List.mapM_cons, reconcileFinalized_of_flat (h i List.mem_cons_self),
      ih fun j hj => h j (List.mem_cons_of_mem i hj)]

theorem intentsOf_of_flat (h : input.isArray = false) : intentsOf input = [input] := by
  cases input with
  | arr intents => cases h
  | _ => rfl

theorem reconcileFinalized_ok_iff (hflat : ∀ i ∈ intentsOf input, i.isArray = false) :
    (∃ r, reconcileFinalized p graph input = .ok r) ↔ ∀ i ∈ intentsOf input, Readable p graph i := by
  simp only [readable_iff]
  by_cases harray : input.isArray = true
  · cases input with
    | arr intents =>
      have hmembers : intents.mapM (reconcileFinalized p graph) = intents.mapM (reconcileIntent p graph) :=
        mapM_congr_flat hflat
      rw [reconcileFinalized, reconcileMembers_eq_mapM, hmembers, show intentsOf (.arr intents) = intents from rfl,
        ← exists_mapM]
      constructor
      · rintro ⟨r, h⟩
        obtain ⟨rs, hrs, -⟩ := map_eq_ok.mp h
        exact ⟨rs, hrs⟩
      · rintro ⟨rs, hrs⟩
        exact ⟨_, map_eq_ok.mpr ⟨rs, hrs, rfl⟩⟩
    | _ => cases harray
  · rw [Bool.not_eq_true] at harray
    rw [intentsOf_of_flat harray, reconcileFinalized_of_flat harray, List.forall_mem_singleton]

/-- The match of a list is the result of its one match. -/
theorem selectMatch_status {rs : List Result} :
    ((selectMatch rs).status = .MATCHED → rs.filter (fun r => r.status = .MATCHED) = [selectMatch rs]) ∧
      ∀ r, rs.filter (fun r => r.status = .MATCHED) = [r] → selectMatch rs = r := by
  unfold selectMatch
  split
  · next hnil => exact ⟨nofun, fun r hr => by rw [hnil] at hr; cases hr⟩
  · next r hone => exact ⟨fun _ => hone, fun r' hr' => by rw [hone] at hr'; exact (List.singleton_inj.mp hr')⟩
  · next hnil hone => exact ⟨nofun, fun r hr => absurd hr (hone r)⟩

/-- The member of the list that is the only one to be clear decides. -/
theorem reconcileFinalized_sole (hflat : ∀ i ∈ intentsOf input, i.isArray = false) {r : Result}
    (h : reconcileFinalized p graph input = .ok r) :
    (r.status = .MATCHED → ∃ i, Sole (fun i => ∃ u, Clear p graph i u) (intentsOf input) i) ∧
      ∀ i, Sole (fun i => ∃ u, Clear p graph i u) (intentsOf input) i → reconcileIntent p graph i = .ok r := by
  classical
  have hclear : ∀ {i : Json} {r : Result}, reconcileIntent p graph i = .ok r →
      ((∃ u, Clear p graph i u) ↔ r.status = .MATCHED) := by
    intro i r hi
    have hreports := reconcileIntent_reports hi
    exact ⟨fun ⟨u, hu⟩ => (hreports.2 u hu).1, hreports.1⟩
  by_cases harray : input.isArray = true
  · cases input with
    | arr intents =>
      have hmembers : intents.mapM (reconcileFinalized p graph) = intents.mapM (reconcileIntent p graph) :=
        mapM_congr_flat hflat
      rw [reconcileFinalized, reconcileMembers_eq_mapM, hmembers] at h
      obtain ⟨rs, hrs, rfl⟩ := map_eq_ok.mp h
      have hfilter : (intents.filter fun i => ∃ u, Clear p graph i u).mapM (reconcileIntent p graph) =
          .ok (rs.filter fun r => r.status = .MATCHED) :=
        Lib.Runs.mapM_filter hrs fun i r hi => decide_eq_decide.mpr (hclear hi)
      simp only [sole_iff_filter, show intentsOf (.arr intents) = intents from rfl]
      constructor
      · intro hstatus
        rw [selectMatch_status.1 hstatus] at hfilter
        have hlength := Lib.Runs.length_mapM hfilter
        exact List.length_eq_one_iff.mp hlength.symm
      · intro i hi
        rw [hi] at hfilter
        obtain ⟨r, rest, hr, hrest, heq⟩ := mapM_cons_eq_ok.mp hfilter
        cases hrest
        rw [selectMatch_status.2 r heq]
        exact hr
    | _ => cases harray
  · rw [Bool.not_eq_true] at harray
    rw [reconcileFinalized_of_flat harray] at h
    rw [intentsOf_of_flat harray]
    constructor
    · intro hstatus
      exact ⟨input, [], [], rfl, (hclear h).mpr hstatus, nofun⟩
    · intro i hi
      rw [List.mem_singleton.mp hi.mem]
      exact h

/-! ## Graphs of receipts -/

theorem status_of_log {txFact : TxFact} {log : Raw} {index : Nat} {fact : LogFact}
    (h : normalizeLog p txFact log index = .ok fact) : fact.receipt_status = txFact.receipt_status := by
  unfold normalizeLog at h
  iterate 6 obtain ⟨_, -, h⟩ := bind_eq_ok.mp h
  cases h
  rfl

/-- A transfer node is one of a log. -/
theorem mem_of_transferNode {txFact : TxFact} {logFacts : List LogFact} {logsMissing : Bool}
    (h : buildFactGraph txFact logFacts logsMissing = .ok graph) {node : TransferNode}
    (hnode : node ∈ erc20TransferNodes graph) : node.fact ∈ logFacts ∧ graph.txFact = txFact := by
  unfold buildFactGraph at h
  obtain ⟨logs, hlogs, h⟩ := bind_eq_ok.mp h
  cases h
  refine ⟨?_, rfl⟩
  obtain ⟨n, hn, hnode⟩ := List.mem_filterMap.mp hnode
  cases n with
  | erc20 fact transfer =>
    cases hnode
    rcases List.mem_append.mp hn with hn | hn
    · rcases List.mem_cons.mp hn with hn | hn
      · cases hn
      · unfold revertNodes at hn
        split at hn <;> simp at hn
    · obtain ⟨nodes, hnodes, hn⟩ := List.mem_flatten.mp hn
      obtain ⟨logFact, hmem, hlogFact⟩ := (mem_mapM hlogs).mp hnodes
      obtain ⟨o, -, hlogFact⟩ := bind_eq_ok.mp hlogFact
      have heq : fact = logFact := by cases o <;> cases hlogFact <;> simp at hn <;> exact hn.1
      rw [heq]
      exact hmem
  | _ => cases hnode

/-- Every transfer of the graph of a receipt has the status of its transaction. -/
theorem status_of_transfer {raw : Option Raw} {receipt : CanonicalReceipt}
    (h : canonicalizeEthReceipt p raw = .ok receipt) :
    ∀ t ∈ transfers receipt.graph, t.receipt_status = receipt.graph.txFact.receipt_status := by
  unfold canonicalizeEthReceipt at h
  iterate 4 obtain ⟨_, -, h⟩ := bind_eq_ok.mp h
  obtain ⟨fact, -, h⟩ := bind_eq_ok.mp h
  obtain ⟨logs, hlogs, h⟩ := bind_eq_ok.mp h
  obtain ⟨graph, hgraph, h⟩ := bind_eq_ok.mp h
  have hreceipt : graph = receipt.graph := congrArg CanonicalReceipt.graph (Except.ok.inj h)
  rw [hreceipt] at hgraph
  intro t ht
  rcases List.mem_cons.mp ht with rfl | ht
  · rfl
  obtain ⟨node, hnode, rfl⟩ := List.mem_map.mp ht
  obtain ⟨hmem, hfact⟩ := mem_of_transferNode hgraph hnode
  obtain ⟨log, -, hlog⟩ := (mem_mapM hlogs).mp hmem
  rw [hfact]
  exact status_of_log hlog

/-! ## Matches -/

theorem Clear.counts {t : Transfer} (h : Clear p graph intent t) : OnTerms p intent t := h.sole.holds.1

/-- Of a transaction that succeeded, what counts settles. -/
theorem settles_iff_counts (hstatus : ∀ t ∈ transfers graph, t.receipt_status = "1") :
    ∀ t ∈ transfers graph, Counts p intent t ↔ Settles p intent t :=
  fun t ht => and_congr_right fun _ => ⟨fun _ => hstatus t ht, fun h _ => h⟩

/-- A match identifies one successful transfer just when the one clear intent is not shadowed. -/
theorem identifies_iff (p : Node.Platform) (raw : Option Raw) (receipt : CanonicalReceipt)
    (hraw : canonicalizeEthReceipt p raw = .ok receipt) (fplVerdict : Option Json) (input : Json)
    (hflat : ∀ i ∈ intentsOf input, i.isArray = false) :
    MatchIdentifies p receipt.graph fplVerdict input ↔ Unshadowed p receipt.graph fplVerdict input := by
  have hstatuses := status_of_transfer hraw
  have hreconcile : ∀ r, isFinalized fplVerdict = true →
      (reconcile p receipt.graph fplVerdict input = .ok r ↔ reconcileFinalized p receipt.graph input = .ok r) := by
    intro r hfinal
    unfold reconcile
    rw [if_pos hfinal]
  constructor
  · intro hidentifies hfinal hreadable before intent after t hsplit hclear hothers
    obtain ⟨r, hr⟩ := (reconcileFinalized_ok_iff hflat).mpr hreadable
    have hsole : Sole (fun i => ∃ u, Clear p receipt.graph i u) (intentsOf input) intent :=
      ⟨before, after, hsplit, ⟨t, hclear⟩, fun i hi ⟨u, hu⟩ => hothers i hi u hu⟩
    have hintent := (reconcileFinalized_sole hflat hr).2 intent hsole
    have hmatched := ((reconcileIntent_reports hintent).2 t hclear).1
    obtain ⟨-, i, u, hi, hu, -⟩ := hidentifies r ((hreconcile r hfinal).mpr hr) hmatched
    have hstatus : receipt.graph.txFact.receipt_status = "1" := (hstatuses u hu.mem).symm.trans hu.holds.2
    refine ⟨hstatus, ?_⟩
    -- The intent found is settled by its own transfer, so it is the one that any transfer settles.
    have hsettled : ∃ u ∈ transfers receipt.graph, Settles p intent u :=
      ⟨t, hclear.sole.mem, hclear.counts, (hstatuses t hclear.sole.mem).trans hstatus⟩
    rw [hsplit] at hi
    intro j hj u hu hterms
    exact hi.others hsettled j hj ⟨u, hu, hterms, (hstatuses u hu).trans hstatus⟩
  · intro hunshadowed r hr hmatched
    have hfinal : isFinalized fplVerdict = true := by
      by_contra hfinal
      unfold reconcile at hr
      rw [if_neg hfinal] at hr
      cases hr
      cases hmatched
    rw [hreconcile r hfinal] at hr
    have hdecides := reconcileFinalized_sole hflat hr
    obtain ⟨intent, hsole⟩ := hdecides.1 hmatched
    have hreports := reconcileIntent_reports (hdecides.2 intent hsole)
    obtain ⟨before, after, hsplit, ⟨t, hclear⟩, hothers⟩ := hsole
    obtain ⟨hstatus, hnone⟩ := hunshadowed hfinal ((reconcileFinalized_ok_iff hflat).mp ⟨r, hr⟩) before intent after t
      hsplit hclear fun i hi u hu => hothers i hi ⟨u, hu⟩
    have hsuccess : ∀ u ∈ transfers receipt.graph, u.receipt_status = "1" :=
      fun u hu => (hstatuses u hu).trans hstatus
    have hsettles := hclear.sole.congr (settles_iff_counts hsuccess)
    refine ⟨hfinal, intent, t, ?_, hsettles, (hreports.2 t hclear).2⟩
    exact ⟨before, after, hsplit, ⟨t, hsettles.mem, hsettles.holds⟩,
      fun i hi ⟨u, hu, hterms, _⟩ => hnone i hi u hu hterms⟩

/-- A match identifies one successful transfer just when the one clear intent is not shadowed. -/
theorem matched_identifies_iff (p : Node.Platform) (raw : Option Raw) (receipt : CanonicalReceipt)
    (hraw : canonicalizeEthReceipt p raw = .ok receipt) (fplVerdict : Option Json) (input : Json)
    (hflat : ∀ i ∈ intentsOf input, i.isArray = false) :
    MatchIdentifies p receipt.graph fplVerdict input ↔ Unshadowed p receipt.graph fplVerdict input :=
  identifies_iff p raw receipt hraw fplVerdict input hflat

section Example

def finalizedVerdict : Json := .obj [("verdict", .str "finalized")]

def transferTerms : Fields :=
  [("intent_type", .str "ERC20_TRANSFER"), ("chain_id", .num (.int 1)), ("token_contract", .str (wordText 40 'a')),
    ("recipient", .str (wordText 40 'b')), ("amount_raw", .str "1000")]

def transferIntent : Json := .obj transferTerms

/-- The same intent, marked as one of two. -/
def markedIntent : Json := .obj (transferTerms ++ [("duplicate_intent_count", .num (.int 2))])

/-- A receipt of a transaction that was reverted, with a log of a transfer. -/
def revertedPayload : Raw :=
  .obj [("chain_id", .num (.int 1)), ("observed_at", .str "2026-06-01T00:00:00.000Z"), ("source", .str "rpc"),
    ("transaction", .obj [("hash", .str (wordText 64 'b')), ("from", .str (wordText 40 'a')),
      ("to", .str (wordText 40 'a')), ("value", .str "0x0")]),
    ("receipt", .obj [("transactionHash", .str (wordText 64 'b')), ("blockHash", .str (wordText 64 'b')),
      ("blockNumber", .str "0x64"), ("transactionIndex", .str "0x0"), ("status", .str "0x0"),
      ("effectiveGasPrice", .str "0x1"), ("gasUsed", .str "0x5208"), ("logs", .arr [transferLog])])]

def revertedTxFact : TxFact := TxFact.identified blockPlatform
  { fact_id := "", chain_id := "1", block_number := "100", block_hash := wordText 64 'b', tx_hash := wordText 64 'b',
    transaction_index := "0", receipt_status := "0",
    raw_data := { effective_gas_price := "1", from_address := wordText 40 'a', gas_used := "21000",
                  input := some "0x", to_address := wordText 40 'a', value := "0" },
    observed_at := "2026-06-01T00:00:00.000Z", source := "rpc", timestamp := none }

theorem revertedPayload_ok : ∃ x, canonicalizeEthReceipt blockPlatform (some revertedPayload) = .ok x ∧
    x.graph = transferGraph revertedTxFact := by
  refine canonicalizeEthReceipt_of revertedTxFact [transferLogFact revertedTxFact]
    (by simp [List.lookup_cons, List.lookup_nil]; rfl) (by simp [List.lookup_cons, List.lookup_nil]; rfl) (by simp [List.lookup_cons, List.lookup_nil, blockOf]; rfl) ?_ ?_ ?_
  · unfold txFactOf revertedTxFact
    simp [List.lookup_cons, List.lookup_nil, firstDefined, given, List.find?, normalizeHash, normalizeAddress, normalizeFixed_wordText lowers_a,
      normalizeFixed_wordText lowers_b, sample_quantities, normalizeNullableHex, normalizeHex_empty, requiredString,
      timestampOf]
  · simp [logsOf, List.lookup_cons, List.lookup_nil, normalizeLog_transfer (rfl : revertedTxFact.tx_hash = _)]
  · simp [List.lookup_cons, List.lookup_nil, buildFactGraph_transfer]

/-- The status of what is found in the graph of a transfer. -/
def statusIn (txFact : TxFact) (input : Json) : Option Status :=
  (reconcile blockPlatform (transferGraph txFact) (some finalizedVerdict) input).toOption.map (·.status)

theorem of_statusIn {txFact : TxFact} {input : Json} {m : Status} (h : statusIn txFact input = some m) :
    ∃ r, reconcile blockPlatform (transferGraph txFact) (some finalizedVerdict) input = .ok r ∧ r.status = m := by
  obtain ⟨r, hr, hm⟩ := Option.map_eq_some_iff.mp h
  refine ⟨r, ?_, hm⟩
  cases hreconcile : reconcile blockPlatform (transferGraph txFact) (some finalizedVerdict) input with
  | error e =>
    rw [hreconcile] at hr
    cases hr
  | ok r' =>
    rw [hreconcile] at hr
    cases hr
    rfl

theorem reverted_matched : ∃ receipt, canonicalizeEthReceipt blockPlatform (some revertedPayload) = .ok receipt ∧
    ¬ MatchIdentifies blockPlatform receipt.graph (some finalizedVerdict) transferIntent := by
  obtain ⟨receipt, hreceipt, hgraph⟩ := revertedPayload_ok
  have hstatus : statusIn revertedTxFact transferIntent = some .MATCHED := by decide +kernel
  obtain ⟨r, hr, hmatched⟩ := of_statusIn hstatus
  refine ⟨receipt, hreceipt, fun hidentifies => ?_⟩
  rw [← hgraph] at hr
  obtain ⟨-, intent, t, -, ht, -⟩ := hidentifies r hr hmatched
  have hsuccess := ht.holds.2
  rw [status_of_transfer hreceipt t ht.mem, hgraph] at hsuccess
  exact absurd hsuccess (by decide)

theorem transfer_matched : statusIn transferTxFact (.arr [transferIntent, markedIntent]) = some .MATCHED := by
  decide +kernel

/-- Marking an intent does not change its terms. -/
theorem markedIntent_onTerms {p : Node.Platform} {t : Transfer} (h : OnTerms p transferIntent t) :
    OnTerms p markedIntent t := ⟨h.type, h.chain, h.token, nofun, h.recipient, h.amount⟩

theorem shadowed_matched : ∃ receipt, canonicalizeEthReceipt blockPlatform (some transferPayload) = .ok receipt ∧
    ¬ MatchIdentifies blockPlatform receipt.graph (some finalizedVerdict) (.arr [transferIntent, markedIntent]) := by
  obtain ⟨receipt, hreceipt, hgraph⟩ := transferPayload_ok
  obtain ⟨r, hr, hmatched⟩ := of_statusIn transfer_matched
  rw [← hgraph] at hr
  refine ⟨receipt, hreceipt, fun hidentifies => ?_⟩
  have hflat : ∀ i ∈ intentsOf (.arr [transferIntent, markedIntent]), i.isArray = false := by
    intro i hi
    rcases List.mem_pair.mp hi with rfl | rfl <;> rfl
  have hr' : reconcileFinalized blockPlatform receipt.graph (.arr [transferIntent, markedIntent]) = .ok r := hr
  have hmarked : ∀ u, ¬ Clear blockPlatform receipt.graph markedIntent u := by
    intro u hu
    have hunmarked := hu.unmarked
    rw [show markedDuplicate markedIntent = .ok true from rfl] at hunmarked
    cases hunmarked
  obtain ⟨i, hsole⟩ := (reconcileFinalized_sole hflat hr').1 hmatched
  obtain ⟨t, hclear⟩ : ∃ t, Clear blockPlatform receipt.graph transferIntent t := by
    obtain ⟨u, hu⟩ := hsole.holds
    rcases List.mem_pair.mp hsole.mem with rfl | rfl
    · exact ⟨u, hu⟩
    · exact absurd hu (hmarked u)
  have hunshadowed := (identifies_iff _ _ _ hreceipt _ _ hflat).mp hidentifies rfl
    ((reconcileFinalized_ok_iff hflat).mp ⟨r, hr'⟩) [] transferIntent [markedIntent] t rfl hclear
    fun i hi u => by rw [List.mem_singleton.mp hi]; exact hmarked u
  exact hunshadowed.2 markedIntent (List.mem_singleton_self _) t hclear.sole.mem (markedIntent_onTerms hclear.counts)

/-- A transfer of a reverted transaction is matched, and so is one that a marked intent asks for as well. -/
theorem match_without_identification :
    (∃ receipt, canonicalizeEthReceipt blockPlatform (some revertedPayload) = .ok receipt ∧
      ¬ MatchIdentifies blockPlatform receipt.graph (some finalizedVerdict) transferIntent) ∧
    ∃ receipt, canonicalizeEthReceipt blockPlatform (some transferPayload) = .ok receipt ∧
      ¬ MatchIdentifies blockPlatform receipt.graph (some finalizedVerdict) (.arr [transferIntent, markedIntent]) :=
  ⟨reverted_matched, shadowed_matched⟩

theorem transfer_identifies_iff : ∃ receipt, canonicalizeEthReceipt blockPlatform (some transferPayload) = .ok receipt ∧
    (MatchIdentifies blockPlatform receipt.graph (some finalizedVerdict) transferIntent ↔
      Unshadowed blockPlatform receipt.graph (some finalizedVerdict) transferIntent) := by
  obtain ⟨receipt, hreceipt, -⟩ := transferPayload_ok
  exact ⟨receipt, hreceipt, matched_identifies_iff blockPlatform _ receipt hreceipt _ _
    (by intro i hi; rw [List.mem_singleton.mp hi]; rfl)⟩

end Example

end SimpleL1.Evm.Reconciliation
