import SimpleL1.Settlement.Outcomes
import SimpleL1.Settlement.Receipts

/-!
# What is issued

The node signs a receipt with its public key in it, and verifies it without: the
two texts are never the same, and no receipt that the node issues verifies.
-/

namespace SimpleL1.Settlement

open SimpleL1.Js SimpleL1.Lib SimpleL1.Lib.Effect

namespace ReceiptEngine

variable {e : ReceiptEngine} {w : World} {m : Moment} {r : Record}

/-! ## What an issuing call writes -/

theorem after_storeOnce (id : String) (receipt : World → JsM Record) :
    after (e.storeOnce id m receipt) w = w ∨ (Assoc.find id w.receipts = none ∧
      ∃ body signature, receipt w = .ok body ∧ e.signReceipt body m = .ok signature ∧
        after (e.storeOnce id m receipt) w =
          { w with receipts := Assoc.insert id (withSignature body signature) w.receipts }) := by
  unfold storeOnce
  rw [after_bind, outcome_get, after_get]
  dsimp only
  cases hfind : Assoc.find id w.receipts with
  | some stored => exact .inl rfl
  | none =>
    dsimp only
    rw [after_bind, outcome_reading, after_reading]
    cases hbody : receipt w with
    | error err => exact .inl rfl
    | ok body =>
      dsimp only
      rw [after_bind, outcome_lift, after_lift]
      cases hsig : e.signReceipt body m with
      | error err => exact .inl rfl
      | ok signature => exact .inr ⟨rfl, body, signature, rfl, hsig, rfl⟩

/-- A receipt that is returned is stored. -/
theorem stored_of_storeOnce {id : String} {receipt : World → JsM Record}
    (h : outcome (e.storeOnce id m receipt) w = .ok r) :
    Assoc.find id (after (e.storeOnce id m receipt) w).receipts = some r := by
  unfold storeOnce at h ⊢
  rw [outcome_bind, outcome_get, after_get, ok_bind] at h
  rw [after_bind, outcome_get, after_get]
  dsimp only at h ⊢
  cases hfind : Assoc.find id w.receipts with
  | some stored =>
    rw [hfind] at h
    cases h
    exact hfind
  | none =>
    rw [hfind] at h
    dsimp only at h ⊢
    rw [outcome_bind, outcome_reading, after_reading] at h
    rw [after_bind, outcome_reading, after_reading]
    cases hbody : receipt w with
    | error err => rw [hbody] at h; cases h
    | ok body =>
      rw [hbody, ok_bind, outcome_bind, outcome_lift, after_lift] at h
      dsimp only at h ⊢
      rw [after_bind, outcome_lift, after_lift]
      cases hsig : e.signReceipt body m with
      | error err => rw [hsig] at h; cases h
      | ok signature =>
        rw [hsig] at h
        cases h
        show Assoc.find id (Assoc.insert id _ w.receipts) = _
        rw [Assoc.find_insert, if_pos rfl]

/-- The ledger with the receipt signed and stored. -/
def storing (w : World) (id : String) (body : Record) (signature : String) : World :=
  { w with receipts := Assoc.insert id (withSignature body signature) w.receipts }

section
variable {intent proof : Json} {attestationResult reason : Option Json}

/-- What is logged of the intent comes after the receipt is stored. -/
theorem after_issue_eq : after (e.issue intent proof attestationResult m) w =
    match e.issueId intent proof with
    | .error _ => w
    | .ok id => after (e.storeOnce id m fun w => e.finalized w id intent proof attestationResult m) w := by
  unfold issue
  rw [after_bind, outcome_lift, after_lift]
  cases e.issueId intent proof with
  | error err => rfl
  | ok id =>
    dsimp only
    rw [after_bind, outcome_get, after_get]
    dsimp only
    have hlast : ∀ r : Record, ∀ w' : World, after (do
        if (Assoc.find id w.receipts).isNone then liftM (logged intent)
        return r : GovernanceM Record) w' = w' := by
      intro r w'
      cases (Assoc.find id w.receipts).isNone with
      | false => rfl
      | true =>
        show after (liftM (logged intent) >>= fun _ => pure r) w' = w'
        rw [after_bind, outcome_lift, after_lift]
        cases logged intent <;> rfl
    rw [after_bind]
    cases outcome (e.storeOnce id m _) w with
    | error err => rfl
    | ok r => exact hlast r _

theorem after_issue : after (e.issue intent proof attestationResult m) w = w ∨
    ∃ id body signature, Assoc.find id w.receipts = none ∧
      e.finalized w id intent proof attestationResult m = .ok body ∧ e.signReceipt body m = .ok signature ∧
      after (e.issue intent proof attestationResult m) w = storing w id body signature := by
  rw [after_issue_eq]
  cases e.issueId intent proof with
  | error err => exact .inl rfl
  | ok id =>
    rcases e.after_storeOnce (w := w) (m := m) id fun w => e.finalized w id intent proof attestationResult m
      with heq | ⟨hnew, body, signature, hbody, hsig, heq⟩
    · exact .inl heq
    · exact .inr ⟨id, body, signature, hnew, hbody, hsig, heq⟩

theorem after_issueRejection : after (e.issueRejection intent reason m) w = w ∨
    ∃ id body signature, Assoc.find id w.receipts = none ∧ e.rejected id intent reason m = .ok body ∧
      e.signReceipt body m = .ok signature ∧
      after (e.issueRejection intent reason m) w = storing w id body signature := by
  unfold issueRejection
  rw [after_bind, outcome_lift, after_lift]
  cases Node.member (some intent) "intent_id" with
  | error err => exact .inl rfl
  | ok intent_id =>
    dsimp only
    rw [after_bind, outcome_lift, after_lift]
    cases toStr intent_id with
    | error err => exact .inl rfl
    | ok intentText =>
      dsimp only
      rw [after_bind, outcome_lift, after_lift]
      cases toStr reason with
      | error err => exact .inl rfl
      | ok reasonText =>
        rcases after_storeOnce (e := e) (w := w) (m := m)
            (e.receiptId ("rejected:" ++ intentText ++ ":" ++ reasonText)) (fun _ => e.rejected _ intent reason m)
          with heq | ⟨hnew, body, signature, hbody, hsig, heq⟩
        · exact .inl heq
        · exact .inr ⟨_, body, signature, hnew, hbody, hsig, heq⟩

/-- A receipt that `issue` returns is stored. -/
theorem stored_of_issue (h : outcome (e.issue intent proof attestationResult m) w = .ok r) :
    ∃ id, Assoc.find id (after (e.issue intent proof attestationResult m) w).receipts = some r := by
  unfold issue at h ⊢
  rw [outcome_bind, outcome_lift, after_lift] at h
  rw [after_bind, outcome_lift, after_lift]
  cases hid : e.issueId intent proof with
  | error err => rw [hid] at h; cases h
  | ok id =>
    rw [hid, ok_bind, outcome_bind, outcome_get, after_get, ok_bind, outcome_bind] at h
    dsimp only at h ⊢
    rw [after_bind, outcome_get, after_get]
    dsimp only
    rw [after_bind]
    cases hstore : outcome (e.storeOnce id m fun w => e.finalized w id intent proof attestationResult m) w with
    | error err => rw [hstore] at h; cases h
    | ok r' =>
      rw [hstore, ok_bind] at h
      dsimp only
      refine ⟨id, ?_⟩
      have hstored := stored_of_storeOnce hstore
      cases hnew : (Assoc.find id w.receipts).isNone with
      | false =>
        rw [hnew] at h
        cases h
        exact hstored
      | true =>
        rw [hnew] at h
        simp only [if_true] at h ⊢
        rw [outcome_bind, outcome_lift, after_lift] at h
        rw [after_bind, outcome_lift, after_lift]
        cases hlog : logged intent with
        | error err => rw [hlog] at h; cases h
        | ok u =>
          rw [hlog] at h
          cases h
          exact hstored

theorem stored_of_issueRejection (h : outcome (e.issueRejection intent reason m) w = .ok r) :
    ∃ id, Assoc.find id (after (e.issueRejection intent reason m) w).receipts = some r := by
  unfold issueRejection at h ⊢
  rw [outcome_bind, outcome_lift, after_lift] at h
  rw [after_bind, outcome_lift, after_lift]
  cases hmember : Node.member (some intent) "intent_id" with
  | error err => rw [hmember] at h; cases h
  | ok intent_id =>
    rw [hmember, ok_bind, outcome_bind, outcome_lift, after_lift] at h
    dsimp only
    rw [after_bind, outcome_lift, after_lift]
    cases htext : toStr intent_id with
    | error err => rw [htext] at h; cases h
    | ok intentText =>
      rw [htext, ok_bind, outcome_bind, outcome_lift, after_lift] at h
      dsimp only
      rw [after_bind, outcome_lift, after_lift]
      cases hreason : toStr reason with
      | error err => rw [hreason] at h; cases h
      | ok reasonText =>
        rw [hreason, ok_bind] at h
        exact ⟨_, stored_of_storeOnce h⟩

end

/-! ## Receipts do not verify -/

theorem mem_names_withSignature {k signature : String} : k ∈ (withSignature r signature).names ↔ k ∈ r.names := by
  have hnames : (withSignature r signature).names = r.names := by
    unfold withSignature Record.names
    rw [List.map_map]
    refine List.map_congr_left fun f _ => ?_
    show (if _ then _ else f : String × Option Json).1 = f.1
    split <;> rfl
  rw [hnames]

theorem get_withSignature_of_ne {k signature : String} (hk : k ≠ "receipt_signature") :
    (withSignature r signature).get k = r.get k := by
  induction r with
  | nil => rfl
  | cons f r ih =>
    obtain ⟨k', v⟩ := f
    show Record.get ((if k' = "receipt_signature" then (k', some (.str signature)) else (k', v)) ::
      withSignature r signature) k = _
    split
    · next heq => rw [Record.get_cons, Record.get_cons, heq, if_neg hk, if_neg hk, ih]
    · rw [Record.get_cons, Record.get_cons, ih]

theorem get_withSignature {signature : String} (h : "receipt_signature" ∈ r.names) :
    (withSignature r signature).get "receipt_signature" = some (.str signature) := by
  induction r with
  | nil => cases h
  | cons f r ih =>
    obtain ⟨k', v⟩ := f
    show Record.get ((if k' = "receipt_signature" then (k', some (.str signature)) else (k', v)) ::
      withSignature r signature) "receipt_signature" = _
    by_cases hk : k' = "receipt_signature"
    · rw [if_pos hk, Record.get_cons, if_pos hk.symm]
      rfl
    · rw [if_neg hk, Record.get_cons, if_neg (Ne.symm hk)]
      exact ih ((List.mem_cons.mp h).resolve_left (Ne.symm hk))

/-- With the engine's keys a signature verifies exactly on the text that was signed. -/
def SignsTexts (e : ReceiptEngine) : Prop :=
  ∀ keys, e.nodeKeys = some keys → ∀ (text : String) (salt : Nat) (text' : String),
    e.scheme.verify (some (.str keys.2)) (some (.str (e.scheme.sign keys.1 text salt))) text' =
      .ok (decide (text' = text))

/-- What the node signs shows its key, and what it verifies does not. -/
theorem refused_of_signed {body : Record} {signature : String} (hscheme : e.SignsTexts)
    (hkey : body.get "issuer_public_key" = e.nodePublicKey) (hnames : "issuer_public_key" ∈ body.names)
    (hfield : "receipt_signature" ∈ body.names) (hsig : e.signReceipt body m = .ok signature) :
    e.verify (withSignature body signature) = ⟨false, none⟩ := by
  unfold signReceipt at hsig
  cases hkeys : e.nodeKeys with
  | none => rw [hkeys] at hsig; cases hsig
  | some keys =>
    rw [hkeys] at hsig
    cases hsig
    have hpub : body.get "issuer_public_key" = some (.str keys.2) := by
      rw [hkey, nodePublicKey, hkeys]
      rfl
    unfold verify
    dsimp only
    rw [get_withSignature_of_ne (by decide), get_withSignature hfield, hpub, hscheme keys hkeys]
    have hne : (body.without ["receipt_signature"]).canonical ≠
        ((withSignature body (e.scheme.sign keys.1 (body.without ["receipt_signature"]).canonical m.salt)).without
          ["receipt_signature", "issuer_public_key"]).canonical := Record.canonical_ne
      (Record.mem_names_without.mpr ⟨hnames, by decide⟩)
      ((Record.get_without (by decide) body).trans hpub)
      (fun h => (Record.mem_names_without.mp h).2 (by decide))
    simp only [decide_eq_false (Ne.symm hne)]

/-- What a new receipt for a fulfilled intent says of its issuer and of the constitution. -/
structure Says (e : ReceiptEngine) (body : Record) (context : ConstitutionalContext) : Prop where
  names : "issuer_public_key" ∈ body.names ∧ "receipt_signature" ∈ body.names
  issuer : body.get "issuer_public_key" = e.nodePublicKey
  epoch : body.get "constitutional_epoch" = some context.constitutional_epoch
  root : body.get "constitution_root" = some context.constitution_root

theorem says_finalized {id : String} {intent proof : Json} {attestationResult : Option Json} {body : Record}
    (h : e.finalized w id intent proof attestationResult m = .ok body) :
    Says e body (e.getConstitutionalContext w) := by
  unfold finalized at h
  obtain ⟨amount, -, h⟩ := bind_eq_ok.mp h
  obtain ⟨attestation, -, h⟩ := bind_eq_ok.mp h
  obtain ⟨statement, -, h⟩ := bind_eq_ok.mp h
  cases h
  refine ⟨by simp [Record.names], ?_, ?_, ?_⟩ <;> simp [Record.get]

theorem issuer_rejected {id : String} {intent : Json} {reason : Option Json} {body : Record}
    (h : e.rejected id intent reason m = .ok body) :
    ("issuer_public_key" ∈ body.names ∧ "receipt_signature" ∈ body.names) ∧
      body.get "issuer_public_key" = e.nodePublicKey ∧ body.get "constitutional_epoch" = none := by
  unfold rejected at h
  obtain ⟨reasonText, -, h⟩ := bind_eq_ok.mp h
  cases h
  refine ⟨by simp [Record.names], ?_, ?_⟩ <;> simp [Record.get]

end ReceiptEngine

/-! ## Runs of the node -/

/-- The two engines on one ledger. -/
structure SettlementNode where
  governance : GovernanceEngine
  receipts : ReceiptEngine

inductive Action where
  | govern (c : GovernanceEngine.Call)
  | issue (intent proof : Json) (attestationResult : Option Json) (m : Moment)
  | issueRejection (intent : Json) (reason : Option Json) (m : Moment)
  /-- The ledger moves on to another state root. -/
  | settle (state_root : Option Json)

namespace SettlementNode

variable {n : SettlementNode} {w w' : World} {r : Record} {id : String}

/-- What an action leaves behind, whether it returns or throws. -/
def step (n : SettlementNode) (w : World) : Action → World
  | .govern c => n.governance.step w c
  | .issue intent proof attestationResult m => after (n.receipts.issue intent proof attestationResult m) w
  | .issueRejection intent reason m => after (n.receipts.issueRejection intent reason m) w
  | .settle state_root => { w with state_root }

/-- The receipt that the action returns. -/
def issued (n : SettlementNode) (w : World) : Action → Option Record
  | .issue intent proof attestationResult m =>
      (outcome (n.receipts.issue intent proof attestationResult m) w).toOption
  | .issueRejection intent reason m => (outcome (n.receipts.issueRejection intent reason m) w).toOption
  | _ => none

theorem ok_of_toOption {x : JsM Record} (h : x.toOption = some r) : x = .ok r := by
  cases x with
  | error err => cases h
  | ok r' => cases h; rfl

theorem stored_of_issued {a : Action} (h : n.issued w a = some r) :
    ∃ id, Assoc.find id (n.step w a).receipts = some r := by
  cases a with
  | govern c => cases h
  | issue intent proof attestationResult m => exact ReceiptEngine.stored_of_issue (ok_of_toOption h)
  | issueRejection intent reason m => exact ReceiptEngine.stored_of_issueRejection (ok_of_toOption h)
  | settle state_root => cases h

theorem receipts_govern (c : GovernanceEngine.Call) : (n.governance.step w c).receipts = w.receipts :=
  GovernanceEngine.step_rule (I := fun w' => w'.receipts = w.receipts) (fun _ _ _ h => h) (fun _ _ _ _ h _ => h)
    c rfl

/-- The ledger as it is when every receipt stored is refused. -/
def AllRefused (n : SettlementNode) (w : World) : Prop :=
  ∀ id r, Assoc.find id w.receipts = some r → (n.receipts.verify r).valid = false

theorem AllRefused.storing {body : Record} {signature : String} (h : AllRefused n w)
    (hnew : n.receipts.verify (ReceiptEngine.withSignature body signature) = ⟨false, none⟩) :
    AllRefused n (ReceiptEngine.storing w id body signature) := by
  intro id' r hr
  unfold ReceiptEngine.storing at hr
  rw [Assoc.find_insert] at hr
  split at hr
  · cases hr; rw [hnew]
  · exact h id' r hr

theorem allRefused_step (hscheme : n.receipts.SignsTexts) (a : Action) (h : AllRefused n w) :
    AllRefused n (n.step w a) := by
  cases a with
  | govern c =>
    intro id r hr
    unfold step at hr
    rw [receipts_govern] at hr
    exact h id r hr
  | issue intent proof attestationResult m =>
    show AllRefused n (after (n.receipts.issue intent proof attestationResult m) w)
    rcases n.receipts.after_issue with heq | ⟨id, body, signature, -, hbody, hsig, heq⟩
    · rwa [heq]
    · rw [heq]
      have hsays := ReceiptEngine.says_finalized hbody
      exact h.storing (ReceiptEngine.refused_of_signed hscheme hsays.issuer hsays.names.1 hsays.names.2 hsig)
  | issueRejection intent reason m =>
    show AllRefused n (after (n.receipts.issueRejection intent reason m) w)
    rcases n.receipts.after_issueRejection with heq | ⟨id, body, signature, -, hbody, hsig, heq⟩
    · rwa [heq]
    · rw [heq]
      obtain ⟨hnames, hissuer, -⟩ := ReceiptEngine.issuer_rejected hbody
      exact h.storing (ReceiptEngine.refused_of_signed hscheme hissuer hnames.1 hnames.2 hsig)
  | settle state_root => exact h

theorem allRefused_run (hscheme : n.receipts.SignsTexts) (actions : List Action) (h : AllRefused n w) :
    AllRefused n (actions.foldl n.step w) := by
  induction actions generalizing w with
  | nil => exact h
  | cons a actions ih => exact ih (allRefused_step hscheme a h)

/-- Whatever the node has done, the receipt it issues next is refused by its own verification. -/
theorem issued_is_refused (n : SettlementNode) (now : Int) (file dsl : Json) (root : Option Json)
    (hscheme : n.receipts.SignsTexts) (actions : List Action) (a : Action) (r : Record)
    (hissued : n.issued
      (actions.foldl n.step (GovernanceEngine.start n.governance.platform now file dsl [] root)) a = some r) :
    (n.receipts.verify r).valid = false := by
  obtain ⟨id, hr⟩ := stored_of_issued hissued
  have hstart : AllRefused n (GovernanceEngine.start n.governance.platform now file dsl [] root) := by
    intro id r h
    cases h
  exact allRefused_step hscheme a (allRefused_run hscheme actions hstart) id r hr

/-- Three validators, and a node key. -/
def plainNode : SettlementNode where
  governance := GovernanceEngine.threeValidators
  receipts := {
    platform := GovernanceEngine.plainPlatform
    scheme := GovernanceEngine.plainScheme
    nodeKeys := some ("node", "node")
    governed := true }

def plainWorld : World :=
  GovernanceEngine.start GovernanceEngine.plainPlatform 0 GovernanceEngine.emptyConstitution
    GovernanceEngine.emptyConstitution [] none

theorem plainNode_signsTexts : plainNode.receipts.SignsTexts := by
  intro keys hkeys text salt text'
  cases hkeys
  have hprefix : ("node" ++ ":" ++ text == "node" ++ ":" ++ text') = decide (text' = text) := by
    rw [Bool.eq_iff_iff, beq_iff_eq, decide_eq_true_eq, String.append_right_inj]
    exact eq_comm
  exact congrArg Except.ok hprefix

/-- Issues the receipt for a deposit of the amount. -/
def depositSettled (amount : String) : Action :=
  .issue (.obj [("intent_id", .str "intent_1"), ("type", .str "CROSS_CHAIN_DEPOSIT"),
      ("fulfillment", .obj [("amount", .str amount), ("fulfilled_at", .str "2026-06-26")])])
    (.obj [("proof_fingerprint", .str "8f2a")]) none ⟨0, 0⟩

theorem depositSettled_issued : ∃ r, plainNode.issued plainWorld (depositSettled "5") = some r :=
  Option.isSome_iff_exists.mp (by decide +kernel)

theorem depositSettled_is_refused :
    ∃ r, plainNode.issued plainWorld (depositSettled "5") = some r ∧ (plainNode.receipts.verify r).valid = false := by
  obtain ⟨r, hr⟩ := depositSettled_issued
  exact ⟨r, hr, issued_is_refused plainNode 0 GovernanceEngine.emptyConstitution
    GovernanceEngine.emptyConstitution none plainNode_signsTexts [] (depositSettled "5") r hr⟩

/-- The receipt of a deposit is refused as it was issued. -/
theorem deposit_receipt_fails :
    (plainNode.issued plainWorld (depositSettled "5")).map plainNode.receipts.verify = some ⟨false, none⟩ := by
  obtain ⟨r, hr⟩ := depositSettled_issued
  obtain ⟨id, hid⟩ := stored_of_issued hr
  change Assoc.find id (after (plainNode.receipts.issue _ _ _ _) plainWorld).receipts = some r at hid
  rcases plainNode.receipts.after_issue with heq | ⟨id', body, signature, -, hbody, hsig, heq⟩
  · rw [heq] at hid
    cases hid
  · rw [heq, ReceiptEngine.storing, Assoc.find_insert] at hid
    split at hid
    · cases hid
      have hsays := ReceiptEngine.says_finalized hbody
      rw [hr]
      exact congrArg some (ReceiptEngine.refused_of_signed plainNode_signsTexts hsays.issuer
        hsays.names.1 hsays.names.2 hsig)
    · cases hid

end SettlementNode

end SimpleL1.Settlement
