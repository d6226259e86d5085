import SimpleL1.Lib.Register
import SimpleL1.Node.Approvals

/-!
# Runs of approval calls

A replay key makes one approval, and an approval is consumed while it is pending
and only then, so a replay key is consumed once. That an approval has ended is
another matter: one that is created under its id takes its place, and one that
was executed can be revoked still.
-/

namespace SimpleL1.Node

open SimpleL1.Js SimpleL1.Lib SimpleL1.Lib.Effect

/-! ## Calls -/

inductive ApprovalCall where
  | createIntentApproval (input : Fields) (now : Number)
  | verifyIntentApproval (approvalId : String) (context : Fields) (now : Number)
  | consumeIntentApproval (approvalId : String) (input : Fields) (now : Number)
  | revokeIntentApproval (approvalId : String) (input : Fields) (now : Number)

def ApprovalCall.run (p : Platform) : ApprovalCall → ApprovalM Unit
  | .createIntentApproval input now => discard (Node.createIntentApproval p input now)
  | .verifyIntentApproval approvalId context now =>
    discard (reading fun s => verifyIntentApprovalById p s approvalId context now)
  | .consumeIntentApproval approvalId input now =>
    discard (Node.consumeIntentApproval p approvalId input now)
  | .revokeIntentApproval approvalId input now =>
    discard (Node.revokeIntentApproval p approvalId input now)

def approvalStep (p : Platform) (s : ApprovalState) (call : ApprovalCall) : ApprovalState :=
  after (call.run p) s

/-- The replay key of the approval that was consumed. -/
def consumedKeys (p : Platform) (s : ApprovalState) : ApprovalCall → List Json
  | .consumeIntentApproval approvalId input now =>
    match outcome (Node.consumeIntentApproval p approvalId input now) s with
    | .ok (⟨true, _⟩, some approval) => (approval.get "replay_key").toList
    | _ => []
  | _ => []

/-! ## Stored approvals -/

/-- The approval was executed or revoked. -/
def Ended (a : Fields) : Prop :=
  a.get "status" = some (.str "executed") ∨ a.get "status" = some (.str "revoked")

/-- The same intent, with the same status. -/
structure SameOutcome (a a' : Fields) : Prop where
  status : a'.get "status" = a.get "status"
  intent_id : a'.get "intent_id" = a.get "intent_id"
  intent_hash : a'.get "intent_hash" = a.get "intent_hash"
  canonical_intent : a'.get "canonical_intent" = a.get "canonical_intent"

/-- What `consumeIntentApproval` and `revokeIntentApproval` write. -/
structure Marks (status : String) (f : Fields → Fields) : Prop where
  status : ∀ e, (f e).get "status" = some (.str status)
  keeps : ∀ e, ∀ k ∈ ["id", "replay_key", "intent_id", "intent_hash", "canonical_intent"],
    (f e).get k = e.get k

section
variable {p : Platform} {s : ApprovalState} {xs : List Fields} {x : Fields} {f g : Fields → Fields}
  {i j status : String}

theorem Marks.id_eq (h : Marks status f) (e : Fields) : (f e).get "id" = e.get "id" :=
  h.keeps e "id" (by decide)

theorem marks_set (status : String) : Marks status (·.set "status" (.str status)) where
  status e := by rw [Fields.get_set, if_pos rfl]
  keeps e k hk := by
    rw [Fields.get_set, if_neg]
    rintro rfl
    exact absurd hk (by decide)

theorem Marks.set_set (h : Marks status f) (k₁ k₂ : String) (v₁ v₂ : Json)
    (h₁ : k₁ ∉ ["status", "id", "replay_key", "intent_id", "intent_hash", "canonical_intent"])
    (h₂ : k₂ ∉ ["status", "id", "replay_key", "intent_id", "intent_hash", "canonical_intent"]) :
    Marks status fun e => ((f e).set k₁ v₁).set k₂ v₂ := by
  have hget : ∀ e, ∀ k ∈ ["status", "id", "replay_key", "intent_id", "intent_hash", "canonical_intent"],
      (((f e).set k₁ v₁).set k₂ v₂).get k = (f e).get k := by
    intro e k hk
    rw [Fields.get_set, if_neg, Fields.get_set, if_neg]
    · rintro rfl
      exact h₁ hk
    · rintro rfl
      exact h₂ hk
  exact ⟨fun e => (hget e _ (.head _)).trans (h.status e),
    fun e k hk => (hget e k (.tail _ hk)).trans (h.keeps e k hk)⟩

theorem updateFirst_updateFirst {P : Fields → Bool} (hf : ∀ e, P (f e) = P e) :
    updateFirst P g (updateFirst P f xs) = updateFirst P (fun e => g (f e)) xs := by
  induction xs with
  | nil => rfl
  | cons e es ih =>
    by_cases he : P e = true
    · simp [updateFirst, he, hf]
    · simp [updateFirst, he, ih]

theorem findById_updateFirst (hf : ∀ e, (f e).get "id" = e.get "id") :
    findById (updateFirst (hasApprovalId i) f xs) (some (.str j)) =
      if i = j then (findById xs (some (.str i))).map f else findById xs (some (.str j)) := by
  induction xs with
  | nil => simp [findById, updateFirst]
  | cons e es ih =>
    unfold findById at ih ⊢
    by_cases hi : hasApprovalId i e = true
    · rw [updateFirst, if_pos hi, List.find?_cons, List.find?_cons, hf]
      have hget : e.get "id" = some (.str i) := strictEq_str_iff.mp hi
      by_cases hij : i = j
      · simp [hget, hij]
      · have hne : (i == j) = false := beq_false_of_ne hij
        simp [hget, hij, hne]
    · rw [updateFirst, if_neg hi, List.find?_cons, List.find?_cons, List.find?_cons, ih]
      have hi : strictEq (e.get "id") (some (.str i)) = false := by simpa [hasApprovalId] using hi
      by_cases hij : i = j
      · subst hij
        simp [hi]
      · cases hj : strictEq (e.get "id") (some (.str j)) <;> simp [hij]

theorem findById_upsert_str :
    findById (upsert "id" x (fun _ => x) xs) (some (.str j)) =
      if hasApprovalId j x then some x else findById xs (some (.str j)) := by
  unfold findById hasApprovalId
  induction xs with
  | nil => cases h : strictEq (x.get "id") (some (.str j)) <;> simp [upsert, h]
  | cons e es ih =>
    unfold upsert
    split
    · next heq =>
      rw [List.find?_cons, List.find?_cons, eq_of_strictEq heq]
      cases h : strictEq (x.get "id") (some (.str j)) <;> simp
    · next hneq =>
      rw [List.find?_cons, List.find?_cons, ih]
      cases h : strictEq (x.get "id") (some (.str j)) with
      | true =>
        rw [strictEq_str_iff.mp h] at hneq
        simp [hneq]
      | false => simp

end

/-! ## What a call does -/

section
variable {p : Platform} {s : ApprovalState} {input : Fields} {now : Number} {i j status : String}
  {f g : Fields → Fields}

@[simp] theorem approvals_update :
    (s.update i f).approvals = updateFirst (hasApprovalId i) f s.approvals :=
  ApprovalState.approvals_setApprovals _ _

@[simp] theorem approvals_add {a : Fields} {key : String} :
    (s.add a key).approvals = upsert "id" a (fun _ => a) s.approvals := by
  show (s.setApprovals _).approvals = _
  exact ApprovalState.approvals_setApprovals _ _

theorem update_update (hf : ∀ e, (f e).get "id" = e.get "id") :
    (s.update i f).update i g = s.update i (fun e => g (f e)) := by
  have hid : ∀ e, hasApprovalId i (f e) = hasApprovalId i e := fun e => by
    unfold hasApprovalId
    rw [hf]
  have hset : ∀ xs ys, (s.setApprovals xs).setApprovals ys = s.setApprovals ys := by
    intro xs ys
    simp [ApprovalState.setApprovals, Ledger.setStore]
  show (s.setApprovals _).setApprovals _ = s.setApprovals _
  rw [hset, approvals_update, updateFirst_updateFirst hid]

theorem approvalById_update (hf : ∀ e, (f e).get "id" = e.get "id") :
    approvalById (s.update i f) j = if i = j then (approvalById s i).map f else approvalById s j := by
  unfold approvalById
  rw [approvals_update, findById_updateFirst hf]

theorem approvalById_add {a : Fields} {key : String} :
    approvalById (s.add a key) j = if hasApprovalId j a then some a else approvalById s j := by
  unfold approvalById
  rw [approvals_add, findById_upsert_str]

theorem step_create : approvalStep p s (.createIntentApproval input now) =
    match newApproval p s input now with
    | .ok (a, key) => s.add a key
    | .error _ => s := by
  unfold approvalStep ApprovalCall.run createIntentApproval
  show after (_ <$> _) s = _
  rw [after_map, after_bind, outcome_reading, after_reading]
  cases newApproval p s input now <;> rfl

theorem step_verify : approvalStep p s (.verifyIntentApproval i input now) = s := by
  unfold approvalStep ApprovalCall.run
  show after (_ <$> _) s = _
  rw [after_map, after_reading]

theorem consume_passes {c : Checked} {stored : Option Fields}
    (hverify : verifyIntentApprovalById p s i input now = .ok (c, stored)) (hok : c.ok = true) :
    ∃ f, Marks "executed" f ∧ after (consumeIntentApproval p i input now) s = s.update i f ∧
      ∀ r, outcome (consumeIntentApproval p i input now) s = .ok r → r.2 = (approvalById s i).map f := by
  have hmarks := marks_set "executed"
  unfold consumeIntentApproval
  simp only [after_bind, outcome_bind, outcome_reading, after_reading, hverify]
  cases htime : toISOString p now with
  | error e =>
    -- The status is written before the time is read.
    refine ⟨_, hmarks, by simp [updateApproval, after_bind, hok], fun r hr => ?_⟩
    simp [updateApproval, outcome_bind, hok] at hr
  | ok t =>
    have hmarks' := hmarks.set_set "consumed_at" "transaction_id" (.str t) (orNull (input.get "transaction_id"))
      (by decide) (by decide)
    refine ⟨_, hmarks', by simp [updateApproval, after_bind, hok, update_update hmarks.id_eq], ?_⟩
    intro r hr
    simp [updateApproval, outcome_bind, hok, update_update hmarks.id_eq] at hr
    cases hr
    exact (approvalById_update hmarks'.id_eq).trans (if_pos rfl)

/-- A call that consumes marks a pending approval as executed, and is the only one to do so. -/
theorem consume_cases (p : Platform) (s : ApprovalState) (i : String) (input : Fields) (now : Number) :
    (approvalStep p s (.consumeIntentApproval i input now) = s ∧
      consumedKeys p s (.consumeIntentApproval i input now) = []) ∨
    ∃ a c f, approvalById s i = some a ∧ verifyIntentApproval p (.obj a) input now = .ok c ∧
      c.ok = true ∧ Marks "executed" f ∧
      approvalStep p s (.consumeIntentApproval i input now) = s.update i f ∧
      (consumedKeys p s (.consumeIntentApproval i input now) = (a.get "replay_key").toList ∨
        consumedKeys p s (.consumeIntentApproval i input now) = []) := by
  have hstep : approvalStep p s (.consumeIntentApproval i input now) =
      after (consumeIntentApproval p i input now) s := after_map _ _ _
  rw [hstep]
  cases hverify : verifyIntentApprovalById p s i input now with
  | error e =>
    have hout : outcome (consumeIntentApproval p i input now) s = .error e := by
      simp [consumeIntentApproval, outcome_bind, hverify]
    refine .inl ⟨by simp [consumeIntentApproval, after_bind, hverify], ?_⟩
    simp [consumedKeys, hout]
  | ok r =>
    obtain ⟨c, stored⟩ := r
    cases hok : c.ok with
    | false =>
      have hout : outcome (consumeIntentApproval p i input now) s = .ok (c, none) := by
        simp [consumeIntentApproval, outcome_bind, hverify, hok]
      refine .inl ⟨by simp [consumeIntentApproval, after_bind, hverify, hok], ?_⟩
      simp [consumedKeys, hout]
    | true =>
      obtain ⟨a, hfind, hchecked⟩ : ∃ a, approvalById s i = some a ∧
          verifyIntentApproval p (.obj a) input now = .ok c := by
        unfold verifyIntentApprovalById at hverify
        split at hverify
        · cases hverify
          cases hok
        · next a hfind =>
          obtain ⟨c', hc', heq⟩ := map_eq_ok.mp hverify
          cases heq
          exact ⟨a, hfind, hc'⟩
      obtain ⟨f, hmarks, hafter, hout⟩ := consume_passes hverify hok
      refine .inr ⟨a, c, f, hfind, hchecked, hok, hmarks, hafter, ?_⟩
      unfold consumedKeys
      dsimp only
      split
      · next codes approval heq =>
        have hstored := hout _ heq
        rw [hfind] at hstored
        cases hstored
        exact .inl (congrArg Option.toList (hmarks.keeps a "replay_key" (by decide)))
      · exact .inr rfl

theorem revoke_cases (p : Platform) (s : ApprovalState) (i : String) (input : Fields) (now : Number) :
    approvalStep p s (.revokeIntentApproval i input now) = s ∨
    ∃ a f, approvalById s i = some a ∧ Marks "revoked" f ∧
      approvalStep p s (.revokeIntentApproval i input now) = s.update i f := by
  have hstep : approvalStep p s (.revokeIntentApproval i input now) =
      after (revokeIntentApproval p i input now) s := after_map _ _ _
  rw [hstep]
  have hmarks := marks_set "revoked"
  unfold revokeIntentApproval
  rw [after_bind, outcome_get, after_get]
  dsimp only
  cases hfind : approvalById s i with
  | none => exact .inl rfl
  | some a =>
    cases htime : orNow p (input.get "revoked_at") now with
    | error e =>
      refine .inr ⟨a, _, rfl, hmarks, ?_⟩
      simp [updateApproval, after_bind]
    | ok t =>
      have hmarks' := hmarks.set_set "revoked_at" "revocation_reason" t
        (orElse (input.get "reason") (.str "revoked")) (by decide) (by decide)
      refine .inr ⟨a, _, rfl, hmarks', ?_⟩
      simp [updateApproval, after_bind, update_update hmarks.id_eq]

end

/-! ## A replay key is consumed once -/

/-- Approvals and replay keys belong together, and a key that was consumed has an approval that ended. -/
structure Approvals (s : ApprovalState) (consumed : List Json) : Prop where
  recorded : ∀ a ∈ s.approvals, ∃ key ∈ s.intent_approval_replay_keys,
    a.get "replay_key" = some (.str key)
  distinct : s.approvals.Pairwise fun a b => a.get "replay_key" ≠ b.get "replay_key"
  known : ∀ k ∈ consumed, ∃ key ∈ s.intent_approval_replay_keys, k = .str key
  spent : ∀ a ∈ s.approvals, ∀ k ∈ consumed, a.get "replay_key" = some k → Ended a
  once : consumed.Nodup

section
variable {p : Platform} {s : ApprovalState} {consumed : List Json} {input : Fields} {now : Number}
  {i status : String} {f : Fields → Fields} {a : Fields}

theorem newApproval_gives {key : String} (h : newApproval p s input now = .ok (a, key)) :
    ∃ r, readApprovalRequest p input = .ok r ∧ key = r.replayKey p ∧
      key ∉ s.intent_approval_replay_keys ∧ a.get "id" = some (r.id p input) ∧
      a.get "replay_key" = some (.str key) := by
  unfold newApproval at h
  obtain ⟨r, hr, h⟩ := bind_eq_ok.mp h
  obtain ⟨-, h⟩ := throwUnless_bind_eq_ok.mp h
  obtain ⟨expires, -, h⟩ := bind_eq_ok.mp h
  obtain ⟨-, h⟩ := throwUnless_bind_eq_ok.mp h
  obtain ⟨-, h⟩ := throwUnless_bind_eq_ok.mp h
  obtain ⟨codes, -, h⟩ := bind_eq_ok.mp h
  obtain ⟨-, h⟩ := throwUnless_bind_eq_ok.mp h
  obtain ⟨hfresh, h⟩ := throwUnless_bind_eq_ok.mp h
  obtain ⟨issuedAt, -, h⟩ := bind_eq_ok.mp h
  cases h
  refine ⟨r, hr, rfl, by simpa using hfresh, ?_, ?_⟩
  · simp [ApprovalRequest.approval]
  · simp [ApprovalRequest.approval]

theorem pairwise_upsert {R : Fields → Fields → Prop} {xs : List Fields} {x : Fields}
    (h : xs.Pairwise R) (hx : ∀ e ∈ xs, R e x ∧ R x e) : (upsert "id" x (fun _ => x) xs).Pairwise R := by
  induction xs with
  | nil => exact List.pairwise_singleton R x
  | cons e es ih =>
    obtain ⟨hall, htail⟩ := List.pairwise_cons.mp h
    unfold upsert
    split
    · exact List.pairwise_cons.mpr ⟨fun y hy => (hx y (.tail e hy)).2, htail⟩
    · refine List.pairwise_cons.mpr ⟨fun y hy => ?_, ih htail fun y hy => hx y (.tail e hy)⟩
      rcases mem_of_mem_upsert hy with rfl | hy
      · exact (hx e (.head es)).1
      · exact hall y hy

theorem map_updateFirst {P : Fields → Bool} {k : String} (hf : ∀ e, (f e).get k = e.get k)
    (xs : List Fields) : (updateFirst P f xs).map (·.get k) = xs.map (·.get k) := by
  induction xs with
  | nil => rfl
  | cons e es ih =>
    unfold updateFirst
    split
    · rw [List.map_cons, List.map_cons, hf]
    · rw [List.map_cons, List.map_cons, ih]

theorem Approvals.add {key : String} (h : Approvals s consumed) (hnew : newApproval p s input now = .ok (a, key)) :
    Approvals (s.add a key) consumed := by
  obtain ⟨r, -, -, hfresh, -, hkey⟩ := newApproval_gives hnew
  have hmem : ∀ {b}, b ∈ (s.add a key).approvals → b = a ∨ b ∈ s.approvals := fun hb =>
    mem_of_mem_upsert (approvals_add ▸ hb)
  have hne : ∀ b ∈ s.approvals, b.get "replay_key" ≠ a.get "replay_key" := by
    intro b hb heq
    obtain ⟨key', hkey', hget⟩ := h.recorded b hb
    rw [hget, hkey] at heq
    cases heq
    exact hfresh hkey'
  refine ⟨fun b hb => ?_, ?_, fun k hk => ?_, fun b hb k hk hget => ?_, h.once⟩
  · rcases hmem hb with rfl | hb
    · exact ⟨key, List.mem_append_right _ (.head []), hkey⟩
    · obtain ⟨key', hkey', hget⟩ := h.recorded b hb
      exact ⟨key', List.mem_append_left _ hkey', hget⟩
  · rw [approvals_add]
    exact pairwise_upsert h.distinct fun b hb => ⟨hne b hb, (hne b hb).symm⟩
  · obtain ⟨key', hkey', heq⟩ := h.known k hk
    exact ⟨key', List.mem_append_left _ hkey', heq⟩
  · rcases hmem hb with rfl | hb
    · obtain ⟨key', hkey', rfl⟩ := h.known k hk
      rw [hkey] at hget
      cases hget
      exact absurd hkey' hfresh
    · exact h.spent b hb k hk hget

theorem Approvals.update (h : Approvals s consumed) (hmarks : Marks status f)
    (hended : status = "executed" ∨ status = "revoked") : Approvals (s.update i f) consumed := by
  have hkey : ∀ e, (f e).get "replay_key" = e.get "replay_key" := fun e =>
    hmarks.keeps e "replay_key" (by decide)
  have hmem : ∀ {b}, b ∈ (s.update i f).approvals → b ∈ s.approvals ∨
      ∃ e ∈ s.approvals, b = f e := by
    intro b hb
    rw [approvals_update] at hb
    exact (mem_of_mem_updateFirst hb).imp id fun ⟨e, he, _, heq⟩ => ⟨e, he, heq⟩
  refine ⟨fun b hb => ?_, ?_, h.known, fun b hb k hk hget => ?_, h.once⟩
  · rcases hmem hb with hb | ⟨e, he, rfl⟩
    · exact h.recorded b hb
    · rw [hkey]
      exact h.recorded e he
  · have hpairwise := h.distinct
    rw [← List.pairwise_map (f := fun a : Fields => a.get "replay_key") (R := (· ≠ ·))] at hpairwise ⊢
    rwa [approvals_update, map_updateFirst hkey]
  · rcases hmem hb with hb | ⟨e, he, rfl⟩
    · exact h.spent b hb k hk hget
    · unfold Ended
      rw [hmarks.status]
      rcases hended with rfl | rfl
      · exact .inl rfl
      · exact .inr rfl

/-- With distinct replay keys, the one with the key of the marked approval is the marked one. -/
theorem eq_of_mem_updateFirst {xs : List Fields} (hmem : a ∈ updateFirst (hasApprovalId i) f xs)
    (hpairwise : xs.Pairwise fun a b => a.get "replay_key" ≠ b.get "replay_key") {e : Fields}
    (hfind : findById xs (some (.str i)) = some e) (hsame : a.get "replay_key" = e.get "replay_key") :
    a = f e := by
  induction xs with
  | nil => cases hfind
  | cons x xs ih =>
    obtain ⟨hall, htail⟩ := List.pairwise_cons.mp hpairwise
    unfold findById at hfind ih
    rw [List.find?_cons] at hfind
    by_cases hx : hasApprovalId i x = true
    · rw [show strictEq (x.get "id") (some (.str i)) = true from hx] at hfind
      cases hfind
      rw [updateFirst, if_pos hx] at hmem
      rcases List.mem_cons.mp hmem with rfl | hmem
      · rfl
      · exact absurd hsame.symm (hall a hmem)
    · rw [show strictEq (x.get "id") (some (.str i)) = false from Bool.eq_false_iff.mpr hx] at hfind
      rw [updateFirst, if_neg hx] at hmem
      rcases List.mem_cons.mp hmem with rfl | hmem
      · exact absurd hsame (hall e (List.mem_of_find?_eq_some hfind))
      · exact ih hmem htail hfind

/-- The key of an approval that had not ended joins the consumed ones as the approval ends. -/
theorem Approvals.consume (hupdate : Approvals (s.update i f) consumed) (h : Approvals s consumed)
    (hfind : approvalById s i = some a) (hmarks : Marks "executed" f) (hopen : ¬ Ended a) :
    Approvals (s.update i f) (consumed ++ (a.get "replay_key").toList) := by
  have ha := List.mem_of_find?_eq_some hfind
  obtain ⟨key, hmem, hget⟩ := h.recorded a ha
  rw [hget, Option.toList_some]
  refine ⟨hupdate.recorded, hupdate.distinct, fun k hk => ?_, fun b hb k hk hkey => ?_, ?_⟩
  · rcases List.mem_append.mp hk with hk | hk
    · exact h.known k hk
    · exact ⟨key, hmem, List.mem_singleton.mp hk⟩
  · rcases List.mem_append.mp hk with hk | hk
    · exact hupdate.spent b hb k hk hkey
    · rw [List.mem_singleton.mp hk, ← hget] at hkey
      rw [approvals_update] at hb
      rw [eq_of_mem_updateFirst hb h.distinct hfind hkey]
      exact .inl (hmarks.status a)
  · refine h.once.append (List.nodup_singleton _) ?_
    rw [List.disjoint_singleton]
    exact fun hk => hopen (h.spent a ha _ hk hget)

/-- An approval that passes has not ended. -/
theorem not_ended_of_passes (hlower : ∀ status ∈ ["executed", "revoked"], p.lower status = status)
    {c : Checked} (hchecked : verifyIntentApproval p (.obj a) input now = .ok c) (hok : c.ok = true) :
    ¬ Ended a := by
  have hpending := (verifyIntentApproval_passes hchecked hok).1.pending
  have hno : ∀ status ∈ ["executed", "revoked"], a.get "status" ≠ some (.str status) := by
    intro status hstatus hget
    have hne : status ≠ "" ∧ status ≠ "pending" := by
      simp only [List.mem_cons, List.not_mem_nil, or_false] at hstatus
      rcases hstatus with rfl | rfl <;> decide
    rw [Json.prop_obj, hget, lowerOf_str hne.1 (hlower status hstatus)] at hpending
    exact hne.2 (Except.ok.inj hpending)
  rintro (h | h)
  · exact hno _ (.head _) h
  · exact hno _ (.tail _ (.head _)) h

theorem Approvals.step (hlower : ∀ status ∈ ["executed", "revoked"], p.lower status = status)
    (h : Approvals s consumed) (call : ApprovalCall) :
    Approvals (approvalStep p s call) (consumed ++ consumedKeys p s call) := by
  cases call with
  | createIntentApproval input now =>
    rw [step_create]
    show Approvals _ (consumed ++ [])
    rw [List.append_nil]
    split
    · next hnew => exact h.add hnew
    · exact h
  | verifyIntentApproval i context now =>
    rw [step_verify]
    exact (List.append_nil consumed).symm ▸ h
  | revokeIntentApproval i input now =>
    show Approvals _ (consumed ++ [])
    rw [List.append_nil]
    rcases revoke_cases p s i input now with hsame | ⟨a, f, -, hmarks, hstep⟩
    · rw [hsame]
      exact h
    · rw [hstep]
      exact h.update hmarks (.inr rfl)
  | consumeIntentApproval i input now =>
    rcases consume_cases p s i input now with ⟨hsame, hnone⟩ | ⟨a, c, f, hfind, hchecked, hok, hmarks, hstep, hkeys⟩
    · rw [hsame, hnone, List.append_nil]
      exact h
    · rw [hstep]
      have hupdate : Approvals (s.update i f) consumed := h.update hmarks (.inl rfl)
      rcases hkeys with hkeys | hkeys
      · rw [hkeys]
        exact hupdate.consume h hfind hmarks (not_ended_of_passes hlower hchecked hok)
      · rw [hkeys, List.append_nil]
        exact hupdate

end

/-! ## Approvals that have ended -/

/-- What has ended keeps its status and its intent. -/
def EndsStay (s s' : ApprovalState) : Prop :=
  ∀ i a, approvalById s i = some a → Ended a → ∃ a', approvalById s' i = some a' ∧ SameOutcome a a'

/-- The call does not reach an approval that has ended: the id of a new one is not the id of one that
has ended, and what is revoked was not executed. -/
def KeepsEnded (p : Platform) (s : ApprovalState) : ApprovalCall → Prop
  | .createIntentApproval input _ => ∀ r, readApprovalRequest p input = .ok r →
    ∀ i a, r.id p input = .str i → approvalById s i = some a → ¬ Ended a
  | .revokeIntentApproval approvalId _ _ => ∀ a, approvalById s approvalId = some a →
    a.get "status" ≠ some (.str "executed")
  | _ => True

section
variable {p : Platform} {s s' s'' : ApprovalState} {i : String} {f : Fields → Fields} {a a' : Fields}

theorem SameOutcome.refl (a : Fields) : SameOutcome a a := ⟨rfl, rfl, rfl, rfl⟩

theorem SameOutcome.ended (h : SameOutcome a a') (ha : Ended a) : Ended a' := by
  unfold Ended
  rwa [h.status]

theorem SameOutcome.trans {a'' : Fields} (h : SameOutcome a a') (h' : SameOutcome a' a'') :
    SameOutcome a a'' :=
  ⟨h'.status.trans h.status, h'.intent_id.trans h.intent_id, h'.intent_hash.trans h.intent_hash,
    h'.canonical_intent.trans h.canonical_intent⟩

theorem EndsStay.refl (s : ApprovalState) : EndsStay s s := fun _ a ha _ => ⟨a, ha, .refl a⟩

theorem EndsStay.trans (h : EndsStay s s') (h' : EndsStay s' s'') : EndsStay s s'' := by
  intro i a ha hended
  obtain ⟨a', ha', hsame⟩ := h i a ha hended
  obtain ⟨a'', ha'', hsame'⟩ := h' i a' ha' (hsame.ended hended)
  exact ⟨a'', ha'', hsame.trans hsame'⟩

/-- A mark leaves the other approvals alone, and one that ended with this status as it is. -/
theorem endsStay_update {status : String} (hmarks : Marks status f)
    (hfind : approvalById s i = some a) (hsame : Ended a → a.get "status" = some (.str status)) :
    EndsStay s (s.update i f) := by
  intro j b hb hended
  rw [approvalById_update hmarks.id_eq]
  by_cases hij : i = j
  · subst hij
    rw [hfind] at hb
    cases hb
    refine ⟨f a, by rw [if_pos rfl, hfind, Option.map_some], ?_⟩
    exact ⟨(hmarks.status a).trans (hsame hended).symm, hmarks.keeps a _ (by decide),
      hmarks.keeps a _ (by decide), hmarks.keeps a _ (by decide)⟩
  · rw [if_neg hij]
    exact ⟨b, hb, .refl b⟩

theorem endsStay_step (hlower : ∀ status ∈ ["executed", "revoked"], p.lower status = status)
    {call : ApprovalCall} (h : KeepsEnded p s call) : EndsStay s (approvalStep p s call) := by
  cases call with
  | createIntentApproval input now =>
    rw [step_create]
    split
    · next a key hnew =>
      obtain ⟨r, hr, -, -, hid, -⟩ := newApproval_gives hnew
      intro i b hb hended
      rw [approvalById_add, if_neg]
      · exact ⟨b, hb, .refl b⟩
      · intro hi
        rw [strictEq_str_iff.mp hi] at hid
        exact h r hr i b (Option.some.inj hid).symm hb hended
    · exact .refl s
  | verifyIntentApproval i context now =>
    rw [step_verify]
    exact .refl s
  | consumeIntentApproval i input now =>
    rcases consume_cases p s i input now with ⟨hsame, -⟩ | ⟨a, c, f, hfind, hchecked, hok, hmarks, hstep, -⟩
    · rw [hsame]
      exact .refl s
    · rw [hstep]
      exact endsStay_update hmarks hfind fun hended =>
        absurd hended (not_ended_of_passes hlower hchecked hok)
  | revokeIntentApproval i input now =>
    rcases revoke_cases p s i input now with hsame | ⟨a, f, hfind, hmarks, hstep⟩
    · rw [hsame]
      exact .refl s
    · rw [hstep]
      exact endsStay_update hmarks hfind fun hended => hended.resolve_left (h a hfind)

end

/-- Whatever the calls, no replay key is consumed twice. What has ended stays as it is along every run
whose calls do not reach it. -/
theorem approvals_spent_once_and_final (p : Platform)
    (hlower : ∀ status ∈ ["executed", "revoked"], p.lower status = status) {start s : ApprovalState}
    (hempty : start.approvals = []) {consumed : List Json}
    (hrun : Trace (approvalStep p) (consumedKeys p) (fun _ _ _ => True) start consumed s) :
    consumed.Nodup ∧ ∀ {consumed' : List Json} {s' : ApprovalState},
      Trace (approvalStep p) (consumedKeys p) (fun _ => KeepsEnded p) s consumed' s' → EndsStay s s' := by
  have hstart : Approvals start [] := by
    refine ⟨?_, ?_, nofun, nofun, List.nodup_nil⟩
    · rw [hempty]
      nofun
    · rw [hempty]
      exact .nil
  have happrovals : Approvals s consumed :=
    hrun.invariant (I := fun consumed s => Approvals s consumed) hstart
      fun _ _ call h _ => h.step hlower call
  refine ⟨happrovals.once, ?_⟩
  intro consumed' s' hlater
  exact hlater.invariant (I := fun _ => EndsStay s) (.refl s) fun _ _ _ h hkeeps =>
    h.trans (endsStay_step hlower hkeeps)

/-! ## An approval that comes back -/

/-- The texts that are hashed for the approval with the nonce, with short digests. -/
def shopDigests (nonce : String) : List (String × String) :=
  [("\x7b\"audience\":\"shop\",\"capability\":null,\"entity_l1_address\":\"" ++ aliceAddress
      ++ "\",\"expires_at\":\"2030-01-01\",\"id\":\"intent_" ++ nonce
      ++ "\",\"intent_type\":\"pay\",\"nonce\":\"" ++ nonce
      ++ "\",\"object_type\":\"Intent\",\"payload_hash\":\"none\",\"scope\":null\x7d",
      "intent-" ++ nonce),
    ("\x7b\"domain\":\"SL1_INTENT_APPROVAL_V1\",\"intent_hash\":\"intent-" ++ nonce ++ "\"\x7d",
      "challenge-" ++ nonce),
    ("\x7b\"audience\":\"shop\",\"controller_l1_address\":\"" ++ aliceKey
      ++ "\",\"credential_id\":\"cred_1\",\"intent_hash\":\"intent-" ++ nonce
      ++ "\",\"nonce\":\"" ++ nonce ++ "\"\x7d", "replay-" ++ nonce)]

def shopPlatform : Platform :=
  { plainPlatform with
    toHost := .ofTable (shopDigests "n1" ++ shopDigests "n2") [] (by decide +kernel) }

def shopIntent (nonce : String) : Json :=
  .obj [("id", .str ("intent_" ++ nonce)), ("entity_l1_address", .str aliceAddress),
    ("intent_type", .str "pay"), ("audience", .str "shop"), ("nonce", .str nonce),
    ("expires_at", .str "2030-01-01"), ("payload_hash", .str "none")]

def shopApproval (nonce : String) : Fields :=
  [("id", .str "iap_1"), ("intent", shopIntent nonce), ("controller_l1_address", .str aliceKey),
    ("credential_id", .str "cred_1"), ("challenge", .str ("challenge-" ++ nonce))]

def shopState : ApprovalState where
  ledger := (Ledger.fresh none ⟨none, [], none⟩).setStore .controller_bindings
    [[("credential_id", .str "cred_1"), ("entity_l1_address", .str aliceAddress),
      ("controller_l1_address", .str aliceKey)]]
  intent_approval_replay_keys := []

def approvedState : ApprovalState :=
  approvalStep shopPlatform shopState (.createIntentApproval (shopApproval "n1") (.int 0))

def spentState : ApprovalState :=
  approvalStep shopPlatform approvedState (.consumeIntentApproval "iap_1" [] (.int 1))

/-- Approved and consumed, and looked at after that. -/
theorem spentState_spent_once_and_final :
    (consumedKeys shopPlatform approvedState (.consumeIntentApproval "iap_1" [] (.int 1))).Nodup ∧
    EndsStay spentState (approvalStep shopPlatform spentState (.verifyIntentApproval "iap_1" [] (.int 2))) := by
  have hrun : Trace (approvalStep shopPlatform) (consumedKeys shopPlatform) (fun _ _ _ => True)
      shopState (([] ++ consumedKeys shopPlatform shopState
        (.createIntentApproval (shopApproval "n1") (.int 0))) ++
        consumedKeys shopPlatform approvedState (.consumeIntentApproval "iap_1" [] (.int 1))) spentState :=
    (Trace.start.step _ trivial).step _ trivial
  have hempty : shopState.approvals = [] := by simp [ApprovalState.approvals, shopState, Ledger.setStore, Ledger.fresh]
  obtain ⟨honce, hfinal⟩ :=
    approvals_spent_once_and_final shopPlatform (fun _ _ => rfl) hempty hrun
  have hcreate : consumedKeys shopPlatform shopState
      (.createIntentApproval (shopApproval "n1") (.int 0)) = [] := rfl
  rw [hcreate, List.nil_append, List.nil_append] at honce
  refine ⟨honce, ?_⟩
  have hlater : Trace (approvalStep shopPlatform) (consumedKeys shopPlatform)
      (fun _ => KeepsEnded shopPlatform) spentState
      ([] ++ consumedKeys shopPlatform spentState (.verifyIntentApproval "iap_1" [] (.int 2)))
      (approvalStep shopPlatform spentState (.verifyIntentApproval "iap_1" [] (.int 2))) :=
    Trace.start.step _ trivial
  exact hfinal hlater

/-- The status of the approval under the id. -/
def statusOf (s : ApprovalState) (i : String) : Option Json :=
  (approvalById s i).bind (·.get "status")

theorem EndsStay.statusOf_eq {s s' : ApprovalState} {i : String} (hstay : EndsStay s s')
    (h : statusOf s i = some (.str "executed")) : statusOf s' i = some (.str "executed") := by
  obtain ⟨a, ha, hget⟩ := Option.bind_eq_some_iff.mp h
  obtain ⟨a', ha', hsame⟩ := hstay i a ha (.inl hget)
  exact Option.bind_eq_some_iff.mpr ⟨a', ha', hsame.status.trans hget⟩

/-- Another intent is approved under the id of the consumed approval. -/
def reusedState : ApprovalState :=
  approvalStep shopPlatform spentState (.createIntentApproval (shopApproval "n2") (.int 2))

def revokedState : ApprovalState :=
  approvalStep shopPlatform spentState (.revokeIntentApproval "iap_1" [] (.int 2))

theorem statuses : statusOf spentState "iap_1" = some (.str "executed") ∧
    statusOf reusedState "iap_1" = some (.str "pending") ∧
    statusOf revokedState "iap_1" = some (.str "revoked") := by
  simp only [← strictEq_str_iff]
  decide +kernel

/-- Once consumed, the approval is pending again when another intent is approved under its id, and
revoked when it is revoked. -/
theorem executed_approval_changes :
    ¬ EndsStay spentState reusedState ∧ ¬ EndsStay spentState revokedState := by
  constructor
  · intro hstay
    have hstatus := hstay.statusOf_eq statuses.1
    rw [statuses.2.1] at hstatus
    simp at hstatus
  · intro hstay
    have hstatus := hstay.statusOf_eq statuses.1
    rw [statuses.2.2] at hstatus
    simp at hstatus

end SimpleL1.Node
