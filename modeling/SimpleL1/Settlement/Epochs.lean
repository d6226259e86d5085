import SimpleL1.Settlement.IssuedReceipts

/-!
# Receipts under later law

Each enactment opens the next epoch and keeps a snapshot of its constitution. A
receipt is verified against the snapshot of the epoch it names. The snapshots of
past epochs are never written again, so what `issue` has issued stays valid; a
receipt of a rejection names no epoch.
-/

namespace SimpleL1.Settlement

open SimpleL1.Js SimpleL1.Lib SimpleL1.Lib.Effect

/-! ## Verifying against the law of the time -/

structure EpochVerdict where
  valid : Bool
  epoch_match : Option Bool
  verified_epoch : Option Json
  snapshot_root : Option String
  receipt_root : Option Json
  constitution_version : Option Json
  constitution_snapshot : Option Snapshot
  error : Option String

namespace World

/-- `snapshots[epoch] || null`; the keys of the snapshots are epochs in decimal. -/
def getSnapshot (w : World) (epoch : Option Json) : JsM (Option Snapshot) := do
  let key ← toStr epoch
  return (w.governance.snapshots.find? fun s => Number.toString (.int s.1) = key).map Prod.snd

def verifyReceiptEpoch (w : World) (receipt : Record) : JsM EpochVerdict := do
  let constitutional_epoch := receipt.get "constitutional_epoch"
  let constitution_root := receipt.get "constitution_root"
  if constitutional_epoch.isNone then
    return ⟨false, none, none, none, none, none, none,
      some "Receipt has no constitutional_epoch — issued before governance system"⟩
  else
    match ← w.getSnapshot constitutional_epoch with
    | none => return ⟨false, none, none, none, none, none, none,
        some ("No snapshot found for epoch " ++ (← toStr constitutional_epoch))⟩
    | some snapshot =>
      let rootMatch := strictEq (some (.str snapshot.constitution_root)) constitution_root
      return ⟨rootMatch, some rootMatch, constitutional_epoch, some snapshot.constitution_root,
        constitution_root, optionalMember (some snapshot.constitution) "version", some snapshot, none⟩

/-- The receipt is valid under the law it names. -/
def Upholds (w : World) (receipt : Record) : Prop :=
  ∃ verdict, w.verifyReceiptEpoch receipt = .ok verdict ∧ verdict.valid = true

end World

/-! ## Epochs -/

/-- The epochs are numbered without gaps, each has a snapshot whose constitution has its root, and the
current root is that of the last. -/
structure Lawful (p : Node.Platform) (w : World) : Prop where
  numbered : w.governance.enacted_epochs.map (·.epoch) = List.range (w.governance.current_epoch + 1)
  keys : ∀ k ∈ w.governance.snapshots.map Prod.fst, k ≤ w.governance.current_epoch
  snapshot : ∀ k ≤ w.governance.current_epoch, ∃ s, Assoc.find k w.governance.snapshots = some s ∧
    s.epoch = k ∧ GovernanceEngine.constitutionRoot p s.constitution = s.constitution_root
  current : ∃ s, Assoc.find w.governance.current_epoch w.governance.snapshots = some s ∧
    s.constitution_root = w.governance.constitution_root

/-- The law of `w'` continues that of `w`: a snapshot that is kept stays as it is. -/
def Continues (w w' : World) : Prop :=
  ∀ k s, Assoc.find k w.governance.snapshots = some s → Assoc.find k w'.governance.snapshots = some s

namespace GovernanceEngine

variable {e : GovernanceEngine} {w : World} {p : Proposal} {m : Moment} {c : Json}

theorem constitutionRoot_written (platform : Node.Platform) (c : Json) :
    constitutionRoot platform c.written = constitutionRoot platform c := by
  unfold constitutionRoot
  rw [Json.text_written]

theorem lawful_start (platform : Node.Platform) (now : Int) (file dsl : Json)
    (receipts : List (String × Record)) (root : Option Json) :
    Lawful platform (start platform now file dsl receipts root) where
  numbered := rfl
  keys k hk := by
    rw [List.mem_singleton.mp hk]
    exact Nat.le_refl 0
  snapshot k hk := by
    obtain rfl : k = 0 := Nat.le_zero.mp hk
    exact ⟨_, rfl, rfl, rfl⟩
  current := ⟨_, rfl, rfl⟩

/-- Enacting opens the next epoch. -/
theorem lawful_enacted (h : Lawful e.platform w) : Lawful e.platform (e.enacted w p m c) where
  numbered := by
    show (w.governance.enacted_epochs ++ [_]).map Epoch.epoch = List.range (w.governance.current_epoch + 1 + 1)
    rw [List.map_append, h.numbered, List.range_succ (n := w.governance.current_epoch + 1)]
    rfl
  keys k hk := by
    change k ∈ (Assoc.insert (w.governance.current_epoch + 1) _ w.governance.snapshots).map Prod.fst at hk
    show k ≤ w.governance.current_epoch + 1
    rw [Assoc.keys_insert] at hk
    split at hk
    · have := h.keys k hk
      omega
    · rcases List.mem_append.mp hk with hk | hk
      · have := h.keys k hk
        omega
      · rw [List.mem_singleton.mp hk]
  snapshot k hk := by
    have hk : k ≤ w.governance.current_epoch + 1 := hk
    show ∃ s, Assoc.find k (Assoc.insert (w.governance.current_epoch + 1) _ w.governance.snapshots) = some s ∧ _
    rw [Assoc.find_insert]
    split
    · next heq => exact ⟨_, rfl, heq, constitutionRoot_written e.platform c⟩
    · exact h.snapshot k (by omega)
  current := by
    show ∃ s, Assoc.find (w.governance.current_epoch + 1)
      (Assoc.insert (w.governance.current_epoch + 1) _ w.governance.snapshots) = some s ∧ _
    rw [Assoc.find_insert, if_pos rfl]
    exact ⟨_, rfl, rfl⟩

theorem continues_enacted (h : Lawful e.platform w) : Continues w (e.enacted w p m c) := by
  intro k s hs
  show Assoc.find k (Assoc.insert (w.governance.current_epoch + 1) _ w.governance.snapshots) = some s
  rw [Assoc.find_insert, if_neg]
  · exact hs
  · rintro rfl
    have hmem : w.governance.current_epoch + 1 ∈ w.governance.snapshots.map Prod.fst := by
      by_contra hno
      rw [Assoc.find_eq_none.mpr hno] at hs
      cases hs
    have := h.keys _ hmem
    omega

/-- Every call of the governance engine keeps the law in order and continues it. -/
theorem lawful_step (call : Call) (h : Lawful e.platform w) :
    Lawful e.platform (e.step w call) ∧ Continues w (e.step w call) := by
  refine step_rule (I := fun w' => Lawful e.platform w' ∧ Continues w w')
    (fun _ _ _ hw' => ⟨⟨hw'.1.numbered, hw'.1.keys, hw'.1.snapshot, hw'.1.current⟩, hw'.2⟩) ?_ call
    ⟨h, fun _ _ hs => hs⟩
  intro w' p m c hw' _
  exact ⟨lawful_enacted hw'.1, fun k s hs => continues_enacted hw'.1 k s (hw'.2 k s hs)⟩

end GovernanceEngine

/-! ## Receipts of the node -/

/-- The receipt names an epoch and the root that the snapshot of the epoch has. -/
def Cites (w : World) (r : Record) : Prop :=
  ∃ (k : Nat) (s : Snapshot), r.get "constitutional_epoch" = some (.num (.int k)) ∧
    Assoc.find k w.governance.snapshots = some s ∧ r.get "constitution_root" = some (.str s.constitution_root)

theorem find?_key {β : Type} (m : List (Nat × β)) (k : Nat) :
    (m.find? fun s => Number.toString (.int s.1) = Number.toString (.int k)).map Prod.snd = Assoc.find k m := by
  induction m with
  | nil => rfl
  | cons p m ih =>
    obtain ⟨k', v⟩ := p
    by_cases h : k' = k
    · simp [Assoc.find, h]
    · have hne : Number.toString (.int k') ≠ Number.toString (.int k) := fun heq =>
        h (Int.ofNat.inj (Number.int.inj (Number.chars_injective rfl rfl (String.ofList_inj.mp heq))))
      simp only [Assoc.find, h, if_false, List.find?_cons, decide_eq_false hne]
      exact ih

theorem Cites.upholds {w : World} {r : Record} (h : Cites w r) : w.Upholds r := by
  obtain ⟨k, s, hepoch, hs, hroot⟩ := h
  have hget : w.getSnapshot (some (.num (.int k))) = .ok (some s) := by
    show Except.ok ((w.governance.snapshots.find? fun s =>
      Number.toString (.int s.1) = Number.toString (.int k)).map Prod.snd) = _
    rw [find?_key, hs]
  unfold World.Upholds World.verifyReceiptEpoch
  dsimp only
  rw [hepoch, hroot]
  simp only [Option.isNone_some, Bool.false_eq_true, if_false, hget, ok_bind]
  exact ⟨_, rfl, by simp⟩

theorem Cites.continues {w w' : World} {r : Record} (h : Cites w r) (hw' : Continues w w') : Cites w' r := by
  obtain ⟨k, s, hepoch, hs, hroot⟩ := h
  exact ⟨k, s, hepoch, hw' k s hs, hroot⟩

namespace SettlementNode

variable {n : SettlementNode} {w : World}

theorem lawful_of_unchanged {w' : World} {p : Node.Platform} (h : Lawful p w)
    (hw' : w'.governance = w.governance) : Lawful p w' ∧ Continues w w' := by
  refine ⟨⟨?_, ?_, ?_, ?_⟩, fun k s hs => ?_⟩ <;> rw [hw']
  · exact h.numbered
  · exact h.keys
  · exact h.snapshot
  · exact h.current
  · exact hs

/-- Whatever the node does keeps the law in order and continues it. -/
theorem lawful_step (a : Action) (h : Lawful n.governance.platform w) :
    Lawful n.governance.platform (n.step w a) ∧ Continues w (n.step w a) := by
  cases a with
  | govern c => exact GovernanceEngine.lawful_step c h
  | issue intent proof attestationResult m =>
    refine lawful_of_unchanged h ?_
    show (after (n.receipts.issue intent proof attestationResult m) w).governance = w.governance
    rcases n.receipts.after_issue with heq | ⟨id, body, signature, -, -, -, heq⟩ <;> rw [heq]
    rfl
  | issueRejection intent reason m =>
    refine lawful_of_unchanged h ?_
    show (after (n.receipts.issueRejection intent reason m) w).governance = w.governance
    rcases n.receipts.after_issueRejection with heq | ⟨id, body, signature, -, -, -, heq⟩ <;> rw [heq]
    rfl
  | settle state_root => exact lawful_of_unchanged h rfl

theorem lawful_run (actions : List Action) (h : Lawful n.governance.platform w) :
    Lawful n.governance.platform (actions.foldl n.step w) ∧ Continues w (actions.foldl n.step w) := by
  induction actions generalizing w with
  | nil => exact ⟨h, fun _ _ hs => hs⟩
  | cons a actions ih =>
    obtain ⟨hstep, hcont⟩ := lawful_step a h
    obtain ⟨hrun, hcont'⟩ := ih hstep
    exact ⟨hrun, fun k s hs => hcont' k s (hcont k s hs)⟩

/-- The texts that the id of a rejection is derived from can be read off. -/
def Readable (intent : Json) (reason : Option Json) : Prop :=
  ∃ intent_id text reasonText, Node.member (some intent) "intent_id" = .ok intent_id ∧
    toStr intent_id = .ok text ∧ toStr reason = .ok reasonText

/-- What is issued is issued with the governance engine wired, and is no receipt of a rejection. -/
def Cited (n : SettlementNode) : Action → Prop
  | .issue .. => n.receipts.governed = true
  | .issueRejection intent reason _ => n.receipts.nodeKeys = none ∨ ¬ Readable intent reason
  | _ => True

/-- Every receipt that is stored cites the law. -/
def AllCite (w : World) : Prop := ∀ id r, Assoc.find id w.receipts = some r → Cites w r

theorem cites_finalized {body : Record} {signature id : String} {intent proof : Json}
    {attestationResult : Option Json} {m : Moment} (h : Lawful n.governance.platform w)
    (hgoverned : n.receipts.governed = true)
    (hbody : n.receipts.finalized w id intent proof attestationResult m = .ok body) :
    Cites w (ReceiptEngine.withSignature body signature) := by
  have hsays := ReceiptEngine.says_finalized hbody
  have hcontext := hsays.epoch
  have hroot := hsays.root
  unfold ReceiptEngine.getConstitutionalContext at hcontext hroot
  rw [if_pos hgoverned] at hcontext hroot
  obtain ⟨s, hs, hcurrent⟩ := h.current
  refine ⟨w.governance.current_epoch, s, ?_, hs, ?_⟩
  · rw [ReceiptEngine.get_withSignature_of_ne (by decide)]
    exact hcontext
  · rw [ReceiptEngine.get_withSignature_of_ne (by decide), hcurrent]
    exact hroot

/-- A rejection that cannot be read, or signed, is not stored. -/
theorem rejection_unchanged {intent : Json} {reason : Option Json} {m : Moment}
    (h : n.receipts.nodeKeys = none ∨ ¬ Readable intent reason) :
    after (n.receipts.issueRejection intent reason m) w = w := by
  rcases h with hkeys | hread
  · have hstored : after (n.receipts.issueRejection intent reason m) w = w ∨ _ :=
      n.receipts.after_issueRejection
    rcases hstored with heq | ⟨id, body, signature, -, -, hsig, -⟩
    · exact heq
    · unfold ReceiptEngine.signReceipt at hsig
      rw [hkeys] at hsig
      cases hsig
  · unfold ReceiptEngine.issueRejection
    rw [after_bind, outcome_lift, after_lift]
    cases hid : Node.member (some intent) "intent_id" with
    | error err => rfl
    | ok intent_id =>
      dsimp only
      rw [after_bind, outcome_lift, after_lift]
      cases htext : toStr intent_id with
      | error err => rfl
      | ok text =>
        dsimp only
        rw [after_bind, outcome_lift, after_lift]
        cases hreason : toStr reason with
        | error err => rfl
        | ok reasonText => exact absurd ⟨intent_id, text, reasonText, hid, htext, hreason⟩ hread

theorem allCite_step (a : Action) (h : Lawful n.governance.platform w) (hall : AllCite w) (ha : n.Cited a) :
    AllCite (n.step w a) := by
  intro id r hr
  have hcont := (lawful_step a h).2
  cases a with
  | govern c =>
    unfold step at hr
    rw [receipts_govern] at hr
    exact (hall id r hr).continues hcont
  | issue intent proof attestationResult m =>
    change Assoc.find id (after (n.receipts.issue intent proof attestationResult m) w).receipts = some r at hr
    rcases n.receipts.after_issue with heq | ⟨id', body, signature, -, hbody, -, heq⟩
    · rw [heq] at hr
      exact (hall id r hr).continues hcont
    · rw [heq] at hr
      unfold ReceiptEngine.storing at hr
      rw [Assoc.find_insert] at hr
      split at hr
      · cases hr
        exact (cites_finalized h ha hbody).continues hcont
      · exact (hall id r hr).continues hcont
  | issueRejection intent reason m =>
    change Assoc.find id (after (n.receipts.issueRejection intent reason m) w).receipts = some r at hr
    rw [rejection_unchanged ha] at hr
    exact (hall id r hr).continues hcont
  | settle state_root => exact (hall id r hr).continues hcont

theorem allCite_run {actions : List Action} (h : Lawful n.governance.platform w) (hall : AllCite w)
    (hcited : ∀ a ∈ actions, n.Cited a) : AllCite (actions.foldl n.step w) := by
  induction actions generalizing w with
  | nil => exact hall
  | cons a actions ih =>
    exact ih (lawful_step a h).1 (allCite_step a h hall (hcited a List.mem_cons_self)) fun b hb =>
      hcited b (List.mem_cons_of_mem a hb)

/-- Whatever is proposed, voted, vetoed and enacted: the epochs are numbered without gaps and have
their snapshots, and what was issued under the governance engine at any time, but for rejections,
is valid under the law of its time. -/
theorem past_receipts_stay_valid (n : SettlementNode) (now : Int) (file dsl : Json) (root : Option Json)
    (actions : List Action) (hcited : ∀ a ∈ actions, n.Cited a) :
    let world (actions : List Action) : World :=
      actions.foldl n.step (GovernanceEngine.start n.governance.platform now file dsl [] root)
    Lawful n.governance.platform (world actions) ∧
    (∀ before rest, actions = before ++ rest → ∀ id r, Assoc.find id (world before).receipts = some r →
      (world actions).Upholds r) ∧
    ∀ before a rest, actions = before ++ a :: rest → ∀ r, n.issued (world before) a = some r →
      (world actions).Upholds r := by
  intro world
  have hstart : Lawful n.governance.platform
      (GovernanceEngine.start n.governance.platform now file dsl [] root) :=
    GovernanceEngine.lawful_start _ _ _ _ _ _
  have hempty : AllCite (GovernanceEngine.start n.governance.platform now file dsl [] root) := by
    intro id r hr
    cases hr
  have hstored : ∀ before rest, actions = before ++ rest → ∀ id r,
      Assoc.find id (world before).receipts = some r → (world actions).Upholds r := by
    rintro before rest rfl id r hr
    have hbefore := allCite_run hstart hempty fun a ha => hcited a (List.mem_append_left rest ha)
    have hcont := (lawful_run rest (lawful_run before hstart).1).2
    rw [← List.foldl_append] at hcont
    exact ((hbefore id r hr).continues hcont).upholds
  refine ⟨(lawful_run actions hstart).1, hstored, fun before a rest hsplit r hissued => ?_⟩
  obtain ⟨id, hr⟩ := stored_of_issued hissued
  refine hstored (before ++ [a]) rest (by rw [hsplit]; simp) id r ?_
  show Assoc.find id ((before ++ [a]).foldl n.step _).receipts = some r
  rw [List.foldl_append]
  exact hr

/-- The receipt of the deposit is valid after a policy was added. -/
theorem deposit_receipt_upheld :
    ∃ r, plainNode.issued plainWorld (depositSettled "5") = some r ∧
      ((depositSettled "5" :: GovernanceEngine.policyAdded.map .govern).foldl plainNode.step plainWorld).Upholds r := by
  obtain ⟨r, hr⟩ := depositSettled_issued
  have hcited : ∀ a ∈ depositSettled "5" :: GovernanceEngine.policyAdded.map .govern, plainNode.Cited a := by
    intro a ha
    rcases List.mem_cons.mp ha with rfl | ha
    · exact rfl
    · obtain ⟨c, -, rfl⟩ := List.mem_map.mp ha
      exact trivial
  exact ⟨r, hr, (past_receipts_stay_valid plainNode 0 GovernanceEngine.emptyConstitution
    GovernanceEngine.emptyConstitution none _ hcited).2.2 [] (depositSettled "5") _ rfl r hr⟩

/-- Rejects the intent. -/
def depositRejected : Action :=
  .issueRejection (.obj [("intent_id", .str "intent_1")]) (some (.str "expired")) ⟨0, 0⟩

/-- The receipt of a rejection is refused as soon as it is issued. -/
theorem rejection_receipt_fails :
    ∃ r, plainNode.issued plainWorld depositRejected = some r ∧
      ¬ (plainNode.step plainWorld depositRejected).Upholds r := by
  have hrun : (plainNode.issued plainWorld depositRejected).map
      (fun r => ((plainNode.step plainWorld depositRejected).verifyReceiptEpoch r).toOption.map (·.valid)) =
      some (some false) := by decide +kernel
  obtain ⟨r, hr, hverdict⟩ := Option.map_eq_some_iff.mp hrun
  refine ⟨r, hr, fun ⟨verdict, hok, hvalid⟩ => ?_⟩
  rw [hok] at hverdict
  have hverdict : some verdict.valid = some false := hverdict
  rw [hvalid] at hverdict
  cases hverdict

end SettlementNode

end SimpleL1.Settlement
