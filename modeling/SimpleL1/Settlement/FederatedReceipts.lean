import SimpleL1.Lib.Steps
import SimpleL1.Settlement.Epochs
import SimpleL1.Settlement.FederationRoot

/-!
# Receipts before governance and federation

At boot the server copies the epochs of the governance engine into the history of the
primary subnet. Enacting an amendment opens an epoch that only the governance engine
records, so that the receipts issued under it are refused by the registry. What is issued
of an epoch that both have on record passes both, then and ever after.
-/

namespace SimpleL1.Settlement

open SimpleL1.Js SimpleL1.Lib SimpleL1.Lib.Effect SimpleL1.Lib.Steps

/-- The node with its governance, its receipts and its federation. -/
structure FederatedNode extends SettlementNode where
  registry : FederationRegistry

/-- The ledger as both registries see it. -/
structure FederatedWorld where
  world : World
  federation : Federation

/-- The ledger that a node boots from: a new one, or one that it left behind. -/
structure SavedLedger (p : Node.Platform) where
  world : World
  federation : Option Federation
  lawful : Lawful p world

inductive FederatedAction where
  | node (a : Action)
  | registerSubnet (now : Int) (input : SubnetInput)

/-! ## Booting -/

namespace FederationRegistry

/-- The constructor on the ledger's federation. -/
def load (e : FederationRegistry) (now : Int) : Option Federation → Federation
  | none => e.start now
  | some f =>
    e.recompute (if f.subnets = [] then { f with subnets := [(primaryId, e.genesisSubnet now)] } else f)

end FederationRegistry

namespace FederatedNode

open FederationRegistry

variable {n : FederatedNode} {s : FederatedWorld}

def recordOf (e : Epoch) : EpochRecord :=
  ⟨.int e.epoch, some e.constitution_root, none, e.enacted_at⟩

/-- Sync primary subnet's constitution root with governance. -/
def syncPrimary (n : FederatedNode) (w : World) (f : Federation) : Federation :=
  match Assoc.find primaryId f.subnets with
  | none => f
  | some primary =>
    n.registry.recompute { f with subnets := Assoc.insert primaryId { primary with
      constitution_root := some w.governance.constitution_root
      epoch_history := w.governance.enacted_epochs.map recordOf } f.subnets }

/-- The wiring of `server.js`. -/
def boot (n : FederatedNode) (now : Int) (ledger : SavedLedger n.governance.platform) : FederatedWorld :=
  ⟨ledger.world, n.syncPrimary ledger.world (n.registry.load now ledger.federation)⟩

def step (n : FederatedNode) (s : FederatedWorld) : FederatedAction → FederatedWorld
  | .node a => { s with world := n.toSettlementNode.step s.world a }
  | .registerSubnet now input => { s with federation := (n.registry.registerSubnet now input s.federation).1 }

end FederatedNode

/-! ## What is written -/

namespace ReceiptEngine

variable {e : ReceiptEngine} {w : World} {m : Moment}

theorem signReceipt_of_keys (h : e.nodeKeys.isSome = true) (body : Record) :
    ∃ signature, e.signReceipt body m = .ok signature := by
  obtain ⟨keys, hkeys⟩ := Option.isSome_iff_exists.mp h
  unfold signReceipt
  rw [hkeys]
  exact ⟨_, rfl⟩

theorem keys_of_signReceipt {body : Record} {signature : String} (h : e.signReceipt body m = .ok signature) :
    e.nodeKeys.isSome = true := by
  unfold signReceipt at h
  cases hkeys : e.nodeKeys with
  | none => rw [hkeys] at h; cases h
  | some keys => rfl

/-- A receipt of which none is stored is stored as it was signed. -/
theorem after_storeOnce_of_new {id signature : String} {receipt : World → JsM Record} {body : Record}
    (hnew : Assoc.find id w.receipts = none) (hbody : receipt w = .ok body)
    (hsig : e.signReceipt body m = .ok signature) :
    after (e.storeOnce id m receipt) w = storing w id body signature := by
  unfold storeOnce
  rw [after_bind, outcome_get, after_get]
  dsimp only
  rw [hnew]
  dsimp only
  rw [after_bind, outcome_reading, after_reading, hbody]
  dsimp only
  rw [after_bind, outcome_lift, after_lift, hsig]
  rfl

end ReceiptEngine

namespace SettlementNode

variable {n : SettlementNode} {w : World}

/-- The id of the receipt for the rejected intent. -/
def rejectionId (n : SettlementNode) (intent : Json) (reason : Option Json) : JsM String := do
  let intent_id ← Node.member (some intent) "intent_id"
  let intentText ← toStr intent_id
  let reasonText ← toStr reason
  return n.receipts.receiptId ("rejected:" ++ intentText ++ ":" ++ reasonText)

/-- The action has a receipt to sign of which none is stored. -/
def Writes (n : SettlementNode) (w : World) : Action → Prop
  | .issue intent proof attestationResult m => n.receipts.nodeKeys.isSome = true ∧ ∃ id body,
      n.receipts.issueId intent proof = .ok id ∧ Assoc.find id w.receipts = none ∧
      n.receipts.finalized w id intent proof attestationResult m = .ok body
  | .issueRejection intent reason _ => n.receipts.nodeKeys.isSome = true ∧ ∃ id,
      n.rejectionId intent reason = .ok id ∧ Assoc.find id w.receipts = none
  | _ => False

theorem issueRejection_eq (intent : Json) (reason : Option Json) (m : Moment) :
    after (n.receipts.issueRejection intent reason m) w =
      match n.rejectionId intent reason with
      | .error _ => w
      | .ok id => after (n.receipts.storeOnce id m fun _ => n.receipts.rejected id intent reason m) w := by
  unfold ReceiptEngine.issueRejection rejectionId
  rw [after_bind, outcome_lift, after_lift]
  cases Node.member (some intent) "intent_id" with
  | error err => rfl
  | ok intent_id =>
    dsimp only
    rw [after_bind, outcome_lift, after_lift, ok_bind]
    cases toStr intent_id with
    | error err => rfl
    | ok intentText =>
      dsimp only
      rw [after_bind, outcome_lift, after_lift, ok_bind]
      cases toStr reason with
      | error err => rfl
      | ok reasonText => rfl

/-- An action writes nothing, or a receipt as it was signed. -/
theorem step_of_not_writes {a : Action} (h : ¬ n.Writes w a) :
    (n.step w a).receipts = w.receipts := by
  cases a with
  | govern c => exact receipts_govern c
  | issue intent proof attestationResult m =>
    show (after (n.receipts.issue intent proof attestationResult m) w).receipts = _
    rw [ReceiptEngine.after_issue_eq]
    cases hid : n.receipts.issueId intent proof with
    | error err => rfl
    | ok id =>
      dsimp only
      rcases n.receipts.after_storeOnce (w := w) (m := m) id
          fun w => n.receipts.finalized w id intent proof attestationResult m
        with heq | ⟨hnew, body, signature, hbody, hsig, -⟩
      · rw [heq]
      · exact absurd ⟨ReceiptEngine.keys_of_signReceipt hsig, id, body, hid, hnew, hbody⟩ h
  | issueRejection intent reason m =>
    show (after (n.receipts.issueRejection intent reason m) w).receipts = _
    rw [issueRejection_eq]
    cases hid : n.rejectionId intent reason with
    | error err => rfl
    | ok id =>
      dsimp only
      rcases n.receipts.after_storeOnce (w := w) (m := m) id fun _ => n.receipts.rejected id intent reason m
        with heq | ⟨hnew, body, signature, -, hsig, -⟩
      · rw [heq]
      · exact absurd ⟨ReceiptEngine.keys_of_signReceipt hsig, id, hid, hnew⟩ h
  | settle state_root => rfl

theorem issue_of_writes {intent proof : Json} {attestationResult : Option Json} {m : Moment}
    (h : n.Writes w (.issue intent proof attestationResult m)) :
    ∃ id body signature, Assoc.find id w.receipts = none ∧
      n.receipts.finalized w id intent proof attestationResult m = .ok body ∧
      n.step w (.issue intent proof attestationResult m) = ReceiptEngine.storing w id body signature := by
  obtain ⟨hkeys, id, body, hid, hnew, hbody⟩ := h
  obtain ⟨signature, hsig⟩ := ReceiptEngine.signReceipt_of_keys (m := m) hkeys body
  refine ⟨id, body, signature, hnew, hbody, ?_⟩
  show after (n.receipts.issue intent proof attestationResult m) w = _
  rw [ReceiptEngine.after_issue_eq, hid]
  exact ReceiptEngine.after_storeOnce_of_new hnew hbody hsig

theorem rejection_of_writes {intent : Json} {reason : Option Json} {m : Moment}
    (h : n.Writes w (.issueRejection intent reason m)) :
    ∃ id body signature, Assoc.find id w.receipts = none ∧ body.get "constitutional_epoch" = none ∧
      n.step w (.issueRejection intent reason m) = ReceiptEngine.storing w id body signature := by
  obtain ⟨hkeys, id, hid, hnew⟩ := h
  obtain ⟨body, hbody⟩ : ∃ body, n.receipts.rejected id intent reason m = .ok body := by
    unfold rejectionId at hid
    obtain ⟨intent_id, -, hid⟩ := bind_eq_ok.mp hid
    obtain ⟨intentText, -, hid⟩ := bind_eq_ok.mp hid
    obtain ⟨reasonText, hreason, -⟩ := bind_eq_ok.mp hid
    unfold ReceiptEngine.rejected
    rw [hreason]
    exact ⟨_, rfl⟩
  obtain ⟨signature, hsig⟩ := ReceiptEngine.signReceipt_of_keys (m := m) hkeys body
  refine ⟨id, body, signature, hnew, (ReceiptEngine.issuer_rejected hbody).2.2, ?_⟩
  show after (n.receipts.issueRejection intent reason m) w = _
  rw [issueRejection_eq, hid]
  exact ReceiptEngine.after_storeOnce_of_new hnew hbody hsig

/-- A receipt that is stored is never replaced. -/
theorem stored_kept {id : String} {r : Record} (a : Action) (h : Assoc.find id w.receipts = some r) :
    Assoc.find id (n.step w a).receipts = some r := by
  by_cases hwrites : n.Writes w a
  · have hnew : ∃ id' body signature, Assoc.find id' w.receipts = none ∧
        n.step w a = ReceiptEngine.storing w id' body signature := by
      cases a with
      | govern c => exact hwrites.elim
      | issue intent proof attestationResult m =>
        obtain ⟨id', body, signature, hnew, -, heq⟩ := issue_of_writes hwrites
        exact ⟨id', body, signature, hnew, heq⟩
      | issueRejection intent reason m =>
        obtain ⟨id', body, signature, hnew, -, heq⟩ := rejection_of_writes hwrites
        exact ⟨id', body, signature, hnew, heq⟩
      | settle state_root => exact hwrites.elim
    obtain ⟨id', body, signature, hnew, heq⟩ := hnew
    rw [heq]
    show Assoc.find id (Assoc.insert id' _ w.receipts) = some r
    rw [Assoc.find_insert, if_neg]
    · exact h
    · rintro rfl
      rw [hnew] at h
      cases h
  · rw [step_of_not_writes hwrites]
    exact h

end SettlementNode

/-! ## Passing both -/

/-- Snapshots that are kept are found under the same names. -/
theorem World.Upholds.continues {w w' : World} {r : Record} (h : w.Upholds r) (hw' : Continues w w') :
    w'.Upholds r := by
  obtain ⟨verdict, hverdict, hvalid⟩ := h
  unfold World.verifyReceiptEpoch at hverdict
  unfold World.Upholds World.verifyReceiptEpoch
  dsimp only at hverdict ⊢
  split at hverdict
  · cases hverdict
    cases hvalid
  · next hepoch =>
    rw [if_neg hepoch]
    obtain ⟨snapshot?, hsnapshot, hverdict⟩ := bind_eq_ok.mp hverdict
    cases snapshot? with
    | none =>
      obtain ⟨text, -, hverdict⟩ := bind_eq_ok.mp hverdict
      cases hverdict
      cases hvalid
    | some snapshot =>
      have hkept : w'.getSnapshot (r.get "constitutional_epoch") = .ok (some snapshot) := by
        unfold World.getSnapshot at hsnapshot ⊢
        obtain ⟨key, hkey, hsnapshot⟩ := bind_eq_ok.mp hsnapshot
        rw [hkey]
        obtain ⟨entry, hentry, hsnd⟩ := Option.map_eq_some_iff.mp (Except.ok.inj hsnapshot)
        obtain rfl : Number.toString (.int entry.1) = key := by
          simpa using List.find?_some hentry
        have hfind : Assoc.find entry.1 w.governance.snapshots = some snapshot := by
          rw [← find?_key, hentry, ← hsnd]
          rfl
        show Except.ok ((w'.governance.snapshots.find? _).map Prod.snd) = _
        rw [find?_key, hw' _ _ hfind]
      rw [hkept]
      exact ⟨verdict, hverdict, hvalid⟩

namespace FederatedNode

open FederationRegistry

variable {n : FederatedNode} {s : FederatedWorld}

/-- The federation finds the receipt valid for the primary subnet. -/
def FederatedValid (f : Federation) (r : Record) : Prop :=
  ∃ verdict, verifyReceiptSubnet f r primaryId = .ok verdict ∧ verdict.valid = true

/-- Every receipt issued since the boot passes both. -/
def AllPass (booted s : FederatedWorld) : Prop :=
  ∀ id r, Assoc.find id s.world.receipts = some r → Assoc.find id booted.world.receipts = none →
    s.world.Upholds r ∧ FederatedValid s.federation r

/-- The primary subnet has a record of the epoch the node is in, with its root. -/
def Recorded (s : FederatedWorld) : Prop :=
  ∃ primary record, Assoc.find primaryId s.federation.subnets = some primary ∧
    primary.epoch_history.find? (fun r => strictEq (some (.num r.epoch))
      (some (.num (.int s.world.governance.current_epoch)))) = some record ∧
    record.constitution_root = some s.world.governance.constitution_root

/-- A receipt that is written is of a fulfilled intent, with governance wired, and of an epoch that
the federation has on record. -/
def Agreed (n : FederatedNode) (s : FederatedWorld) : FederatedAction → Prop
  | .node (.issue intent proof attestationResult m) =>
      n.toSettlementNode.Writes s.world (.issue intent proof attestationResult m) →
        n.receipts.governed = true ∧ Recorded s
  | .node a => ¬ n.toSettlementNode.Writes s.world a
  | .registerSubnet .. => True

theorem strictEq_root {record : EpochRecord} {root : String} :
    strictEq (some (EpochRecord.root record)) (some (.str root)) = true ↔ record.constitution_root = some root := by
  unfold EpochRecord.root
  cases record.constitution_root with
  | none => simp [strictEq]
  | some root' => simp [strictEq]

/-- What the federation looks for in a receipt. -/
theorem federatedValid_iff {f : Federation} {r : Record} : FederatedValid f r ↔ ∃ primary epoch record,
    Assoc.find primaryId f.subnets = some primary ∧ r.get "constitutional_epoch" = some epoch ∧
    primary.epoch_history.find? (fun r => strictEq (some (.num r.epoch)) (some epoch)) = some record ∧
    strictEq (some (EpochRecord.root record)) (r.get "constitution_root") = true := by
  unfold FederatedValid verifyReceiptSubnet
  cases hprimary : Assoc.find primaryId f.subnets with
  | none => simp
  | some primary =>
    dsimp only
    cases hepoch : r.get "constitutional_epoch" with
    | none => simp
    | some epoch =>
      simp only [Option.isNone_some, Bool.false_eq_true, if_false]
      cases hrecord : primary.epoch_history.find? fun r => strictEq (some (.num r.epoch)) (some epoch) with
      | none =>
        constructor
        · rintro ⟨verdict, hverdict, hvalid⟩
          obtain ⟨text, -, hverdict⟩ := bind_eq_ok.mp hverdict
          cases hverdict
          cases hvalid
        · rintro ⟨_, _, record, hprimary', hepoch', hrecord', -⟩
          cases hprimary'
          cases hepoch'
          rw [hrecord] at hrecord'
          cases hrecord'
      | some record =>
        constructor
        · rintro ⟨verdict, hverdict, hvalid⟩
          cases hverdict
          exact ⟨primary, epoch, record, rfl, rfl, hrecord, hvalid⟩
        · rintro ⟨_, _, record', hprimary', hepoch', hrecord', hroot⟩
          cases hprimary'
          cases hepoch'
          rw [hrecord] at hrecord'
          cases hrecord'
          exact ⟨_, rfl, hroot⟩

/-- Registering another subnet leaves the primary one alone. -/
theorem federatedValid_registerSubnet {f : Federation} {r : Record} (now : Int) (input : SubnetInput)
    (h : FederatedValid f r) : FederatedValid (n.registry.registerSubnet now input f).1 r := by
  obtain ⟨primary, epoch, record, hprimary, hrest⟩ := federatedValid_iff.mp h
  refine federatedValid_iff.mpr ⟨primary, epoch, record, ?_, hrest⟩
  unfold registerSubnet
  split
  · exact hprimary
  · next hregistered =>
    show Assoc.find primaryId (Assoc.insert input.subnet_id _ f.subnets) = some primary
    rw [Assoc.find_insert, if_neg]
    · exact hprimary
    · intro heq
      refine hregistered ?_
      unfold registered
      rw [heq, hprimary]
      rfl

/-- The receipt of a fulfilled intent names the epoch it was signed in. -/
theorem passes_finalized_iff {body : Record} {signature id : String} {intent proof : Json}
    {attestationResult : Option Json} {m : Moment} (h : Lawful n.governance.platform s.world)
    (hbody : n.receipts.finalized s.world id intent proof attestationResult m = .ok body) :
    (s.world.Upholds (ReceiptEngine.withSignature body signature) ∧
      FederatedValid s.federation (ReceiptEngine.withSignature body signature)) ↔
      n.receipts.governed = true ∧ Recorded s := by
  have hsays := ReceiptEngine.says_finalized hbody
  have hepoch := hsays.epoch
  have hroot := hsays.root
  unfold ReceiptEngine.getConstitutionalContext at hepoch hroot
  rw [federatedValid_iff, ReceiptEngine.get_withSignature_of_ne (by decide),
    ReceiptEngine.get_withSignature_of_ne (by decide)]
  constructor
  · rintro ⟨-, primary, epoch, record, hprimary, hepoch', hrecord, hvalid⟩
    rw [hepoch'] at hepoch
    by_cases hgoverned : n.receipts.governed = true
    · rw [if_pos hgoverned] at hepoch hroot
      cases hepoch
      rw [hroot] at hvalid
      exact ⟨hgoverned, primary, record, hprimary, hrecord, strictEq_root.mp hvalid⟩
    · -- without governance the epoch is `null`, which no record has
      rw [if_neg hgoverned] at hepoch
      cases hepoch
      have hnull := List.find?_some hrecord
      cases hnull
  · rintro ⟨hgoverned, primary, record, hprimary, hrecord, hvalid⟩
    refine ⟨(SettlementNode.cites_finalized h hgoverned hbody).upholds, ?_⟩
    rw [if_pos hgoverned] at hepoch hroot
    refine ⟨primary, _, record, hprimary, hepoch, hrecord, ?_⟩
    rw [hroot]
    exact strictEq_root.mpr hvalid

/-! ## Runs -/

/-- What holds in every state of a run. -/
structure Sound (n : FederatedNode) (booted s : FederatedWorld) : Prop where
  lawful : Lawful n.governance.platform s.world
  kept : ∀ id r, Assoc.find id booted.world.receipts = some r → Assoc.find id s.world.receipts = some r

theorem sound_step {booted : FederatedWorld} (a : FederatedAction) (h : Sound n booted s) :
    Sound n booted (n.step s a) := by
  cases a with
  | node a =>
    exact ⟨(SettlementNode.lawful_step (n := n.toSettlementNode) a h.lawful).1,
      fun id r hr => SettlementNode.stored_kept a (h.kept id r hr)⟩
  | registerSubnet now input => exact ⟨h.lawful, h.kept⟩

/-- A node that boots on a new ledger has the first epoch on record. -/
theorem recorded_boot (n : FederatedNode) (now : Int) (file dsl : Json) (root : Option Json) :
    Recorded (n.boot now ⟨GovernanceEngine.start n.governance.platform now file dsl [] root, none,
      GovernanceEngine.lawful_start _ _ _ _ _ _⟩) :=
  ⟨_, _, rfl, rfl, rfl⟩

/-- A new receipt is stored, and the others still pass. -/
theorem allPass_storing {booted : FederatedWorld} {a : Action} {id signature : String} {body : Record}
    (h : Sound n booted s) (hall : AllPass booted s) (hnew : Assoc.find id s.world.receipts = none)
    (ha : n.toSettlementNode.step s.world a = ReceiptEngine.storing s.world id body signature) :
    AllPass booted (n.step s (.node a)) ↔ s.world.Upholds (ReceiptEngine.withSignature body signature) ∧
      FederatedValid s.federation (ReceiptEngine.withSignature body signature) := by
  have hbooted : Assoc.find id booted.world.receipts = none := by
    cases hfind : Assoc.find id booted.world.receipts with
    | none => rfl
    | some r =>
      rw [h.kept id r hfind] at hnew
      cases hnew
  have hstate : n.step s (.node a) = ⟨ReceiptEngine.storing s.world id body signature, s.federation⟩ :=
    congrArg (FederatedWorld.mk · s.federation) ha
  have hstored : ∀ id', Assoc.find id' (n.step s (.node a)).world.receipts =
      if id = id' then some (ReceiptEngine.withSignature body signature)
      else Assoc.find id' s.world.receipts := by
    intro id'
    rw [hstate]
    exact Assoc.find_insert s.world.receipts id id' _
  constructor
  · intro hafter
    have hpass := hafter id _ ((hstored id).trans (if_pos rfl)) hbooted
    rw [hstate] at hpass
    exact hpass
  · intro hpass id' r hr hid'
    rw [hstored] at hr
    rw [hstate]
    split at hr
    · cases hr
      exact hpass
    · exact hall id' r hr hid'

/-- A step lets every receipt pass just when it agrees with the federation. -/
theorem allPass_step {booted : FederatedWorld} (a : FederatedAction) (h : Sound n booted s)
    (hall : AllPass booted s) : AllPass booted (n.step s a) ↔ n.Agreed s a := by
  have hidle : ∀ a : Action, ¬ n.toSettlementNode.Writes s.world a → AllPass booted (n.step s (.node a)) := by
    intro a hwrites id r hr hid
    change Assoc.find id (n.toSettlementNode.step s.world a).receipts = some r at hr
    rw [SettlementNode.step_of_not_writes hwrites] at hr
    obtain ⟨hupholds, hvalid⟩ := hall id r hr hid
    exact ⟨hupholds.continues (SettlementNode.lawful_step (n := n.toSettlementNode) a h.lawful).2, hvalid⟩
  cases a with
  | node a =>
    cases a with
    | govern c => exact iff_of_true (hidle _ id) id
    | issue intent proof attestationResult m =>
      by_cases hwrites : n.toSettlementNode.Writes s.world (.issue intent proof attestationResult m)
      · obtain ⟨id, body, signature, hnew, hbody, heq⟩ := SettlementNode.issue_of_writes hwrites
        rw [allPass_storing h hall hnew heq, passes_finalized_iff h.lawful hbody]
        exact ⟨fun hagreed _ => hagreed, fun hagreed => hagreed hwrites⟩
      · exact iff_of_true (hidle _ hwrites) fun hw => absurd hw hwrites
    | issueRejection intent reason m =>
      by_cases hwrites : n.toSettlementNode.Writes s.world (.issueRejection intent reason m)
      · obtain ⟨id, body, signature, hnew, hepoch, heq⟩ := SettlementNode.rejection_of_writes hwrites
        rw [allPass_storing h hall hnew heq]
        refine iff_of_false (fun hpass => ?_) fun hagreed => hagreed hwrites
        -- a receipt of a rejection names no epoch
        obtain ⟨primary, epoch, record, -, hepoch', -⟩ := federatedValid_iff.mp hpass.2
        rw [ReceiptEngine.get_withSignature_of_ne (by decide), hepoch] at hepoch'
        cases hepoch'
      · exact iff_of_true (hidle _ hwrites) hwrites
    | settle state_root => exact iff_of_true (hidle _ id) id
  | registerSubnet now input =>
    refine iff_of_true (fun id r hr hid => ?_) trivial
    obtain ⟨hupholds, hvalid⟩ := hall id r hr hid
    exact ⟨hupholds, federatedValid_registerSubnet now input hvalid⟩

/-- In a run from the boot every receipt that is issued passes both registries, then and at every later
point, just when every receipt is written of an epoch that both have on record. -/
theorem receipts_pass_iff (n : FederatedNode) (now : Int) (ledger : SavedLedger n.governance.platform)
    (actions : List FederatedAction) :
    Throughout n.step (AllPass (n.boot now ledger)) (n.boot now ledger) actions ↔
      EveryStep n.step n.Agreed (n.boot now ledger) actions := by
  refine throughout_iff (I := Sound n (n.boot now ledger)) (fun _ a h => sound_step a h)
    (fun _ a h hall => allPass_step a h hall) ⟨ledger.lawful, fun _ _ hr => hr⟩ fun id r hr hid => ?_
  rw [hid] at hr
  cases hr

section Example

def plainFederated : FederatedNode where
  toSettlementNode := SettlementNode.plainNode
  registry := plainRegistry

/-- The ledger that the node starts with when it has none. -/
def newLedger : SavedLedger plainFederated.governance.platform where
  world := SettlementNode.plainWorld
  federation := none
  lawful := GovernanceEngine.lawful_start _ _ _ _ _ _

/-- An amendment is enacted, and a receipt issued under it. -/
def receiptUnderAmendment : List FederatedAction :=
  (GovernanceEngine.policyAdded.map Action.govern ++ [SettlementNode.depositSettled "5"]).map .node

/-- The federation has no record of the epoch that the amendment opened. -/
theorem receipt_under_amendment_fails : ¬ Throughout plainFederated.step
    (AllPass (plainFederated.boot 0 newLedger)) (plainFederated.boot 0 newLedger) receiptUnderAmendment := by
  have hrun : ((receiptUnderAmendment.foldl plainFederated.step (plainFederated.boot 0 newLedger)).world.receipts.map
      fun x => (verifyReceiptSubnet (receiptUnderAmendment.foldl plainFederated.step
        (plainFederated.boot 0 newLedger)).federation x.2 primaryId).toOption.map (·.valid)) = [some false] := by
    decide +kernel
  intro h
  have hall := h receiptUnderAmendment List.prefix_rfl
  obtain ⟨stored, hstored, hverdict⟩ := List.map_eq_singleton_iff.mp hrun
  obtain ⟨id, r⟩ := stored
  have hfind : Assoc.find id (receiptUnderAmendment.foldl plainFederated.step
      (plainFederated.boot 0 newLedger)).world.receipts = some r := by
    rw [hstored]
    exact if_pos rfl
  obtain ⟨verdict, hok, hvalid⟩ := (hall id r hfind rfl).2
  rw [hok] at hverdict
  have hverdict : some verdict.valid = some false := hverdict
  rw [hvalid] at hverdict
  cases hverdict

end Example

end FederatedNode

end SimpleL1.Settlement
