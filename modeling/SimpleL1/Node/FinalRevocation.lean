import SimpleL1.Node.GrantCalls

/-!
# Whether a revocation is final

A revoked grant stays revoked, and no authorization rests on it, as long as nobody
creates a grant under its id again: `createControlGrant` puts the new grant in the
place of the revoked one.
-/

namespace SimpleL1.Node

open SimpleL1.Js SimpleL1.Lib SimpleL1.Lib.Effect

/-- Every grant with the id `g` is revoked. -/
def AllRevoked (g : String) (grants : List Fields) : Prop :=
  ∀ grant ∈ grants, grant.get "id" = some (.str g) → IsRevoked (grant.get "status")

def hasId (g : String) (grant : Fields) : Bool := strictEq (grant.get "id") (some (.str g))

/-- After the first grant with the id `g` come only revoked ones. -/
def FurtherRevoked (g : String) (grants : List Fields) : Prop :=
  ∀ grant ∈ (grants.filter (hasId g)).tail, IsRevoked (grant.get "status")

def GrantRevoked (g : String) (ledger : Ledger) : Prop :=
  ∀ s : Store, s.IsGrants → AllRevoked g (ledger.stores s)

/-- The call creates no grant with the id `g`, unless as a revoked one. -/
def GrantCall.KeepsRevoked (p : Platform) (g : String) : GrantCall → Prop
  | .createControlGrant input now => ∀ grant, buildControlGrant p input now = .ok grant →
      grant.get "id" = some (.str g) → IsRevoked (grant.get "status")
  | _ => True

/-- The authorization can be executed and rests on the grant `g`. -/
def ExecutesBy (g : String) (authorization : Fields) : Prop :=
  authorization.get "can_execute" = some (.bool true) ∧
    ∃ ids, authorization.get "matched_grants" = some (.arr ids) ∧ .str g ∈ ids

/-! ## The stores of the grants -/

section
variable {g g' : String} {x revocation : Fields} {xs : List Fields}

theorem allRevoked_upsert (h : AllRevoked g xs) :
    AllRevoked g (upsert "id" x (fun _ => x) xs) ↔
      (x.get "id" = some (.str g) → IsRevoked (x.get "status")) := by
  constructor
  · exact fun hall => hall x (mem_upsert_self "id" x xs)
  · intro hx y hy
    rcases mem_of_mem_upsert hy with rfl | hy
    · exact hx
    · exact h y hy

theorem allRevoked_markRevoked (h : AllRevoked g xs) : AllRevoked g (markRevoked g' revocation xs) := by
  intro y hy hid
  rcases mem_of_mem_updateFirst hy with hy | ⟨x, -, -, rfl⟩
  · exact h y hy hid
  · exact isRevoked_markedGrant

/-- A revocation marks the first grant of the id. -/
theorem allRevoked_markRevoked_iff :
    AllRevoked g (markRevoked g revocation xs) ↔ FurtherRevoked g xs := by
  unfold FurtherRevoked
  show AllRevoked g (updateFirst (hasId g) (markedGrant revocation) xs) ↔ _
  induction xs with
  | nil => exact ⟨fun _ => nofun, fun _ => nofun⟩
  | cons x xs ih =>
    by_cases hx : hasId g x = true
    · rw [updateFirst, if_pos hx, List.filter_cons_of_pos hx, List.tail_cons]
      constructor
      · intro hall y hy
        obtain ⟨hy, hid⟩ := List.mem_filter.mp hy
        exact hall y (.tail _ hy) (strictEq_str_iff.mp hid)
      · intro hall y hy hid
        rcases List.mem_cons.mp hy with rfl | hy
        · exact isRevoked_markedGrant
        · exact hall y (List.mem_filter.mpr ⟨hy, strictEq_str_iff.mpr hid⟩)
    · rw [updateFirst, if_neg hx, List.filter_cons_of_neg hx, ← ih]
      constructor
      · exact fun hall y hy => hall y (.tail x hy)
      · intro hall y hy hid
        rcases List.mem_cons.mp hy with rfl | hy
        · exact absurd (strictEq_str_iff.mpr hid) hx
        · exact hall y hy hid

end

/-! ## One call -/

section
variable {p : Platform} {ledger : Ledger} {g : String} {grant : Fields}

theorem keepsRevoked_iff (h : GrantRevoked g ledger) (call : GrantCall) :
    GrantRevoked g (after (call.run p) ledger) ↔ call.KeepsRevoked p g := by
  cases call with
  | createControlGrant input now =>
    show (∀ s : Store, s.IsGrants → AllRevoked g ((after (createControlGrant p input now) ledger).stores s)) ↔
      ∀ grant, buildControlGrant p input now = .ok grant → _
    cases hgrant : buildControlGrant p input now with
    | error e =>
      rw [after_createControlGrant_error hgrant]
      exact ⟨fun _ => nofun, fun _ => h⟩
    | ok grant =>
      obtain ⟨hcontrol, hcre⟩ := after_createControlGrant ledger hgrant
      have hiff := allRevoked_upsert (x := grant) (h .control_grants (.inl rfl))
      constructor
      · rintro hall _ ⟨⟩
        have hstore := hall .control_grants (.inl rfl)
        rw [hcontrol] at hstore
        exact hiff.mp hstore
      · intro hkeeps s hs
        have hgrant := hkeeps grant rfl
        rcases hs with rfl | rfl
        · rw [hcontrol]
          exact hiff.mpr hgrant
        · rw [hcre]
          refine (allRevoked_upsert (h .capability_grants (.inr rfl))).mpr ?_
          rwa [id_grantToCreGrant, status_grantToCreGrant]
  | registerCapability input now =>
    refine iff_of_true (fun s hs => ?_) trivial
    rw [GrantCall.run, after_registerCapability hs]
    exact h s hs
  | revokeControlGrant input now =>
    refine iff_of_true (fun s hs => ?_) trivial
    rw [GrantCall.run]
    cases hrevocation : revocationOf p ledger input now with
    | error e =>
      rw [after_revokeControlGrant_error hrevocation]
      exact h s hs
    | ok result =>
      rw [after_revokeControlGrant hrevocation hs]
      exact allRevoked_markRevoked (h s hs)
  | buildAuthorization input now =>
    refine iff_of_true (fun s hs => ?_) trivial
    rw [GrantCall.run, after_buildAuthorization hs]
    exact h s hs

/-! ## No authorization rests on it -/

/-- A revoked grant is in force for nothing. -/
theorem not_inForce_of_isRevoked (hlower : p.lower "revoked" = "revoked")
    (h : IsRevoked (grant.get "status")) {cre : CreInput} {now : Number} :
    ¬ InForce p cre now grant := by
  intro hforce
  have hactive := hforce.active
  rw [strictEq_str_iff.mp h] at hactive
  exact absurd (hlower.symm.trans (Except.ok.inj hactive)) (by decide)

theorem not_executesBy (hlower : p.lower "revoked" = "revoked") (h : GrantRevoked g ledger)
    {input authorization : Fields} {now : Number}
    (hauthorization : authorizationOf p ledger input now = .ok authorization) :
    ¬ ExecutesBy g authorization := by
  rintro ⟨-, ids, hids, hmem⟩
  obtain ⟨cre, d, hrecords⟩ := authorizationOf_gives hauthorization
  rw [hrecords.matched] at hids
  cases hids
  obtain ⟨grant, hgrant, hid, happlies⟩ := hrecords.exists_grant hmem
  obtain ⟨s, hs, x, hx, rfl⟩ := mem_activeControlGrants hgrant
  rw [id_grantToCreGrant] at hid
  refine not_inForce_of_isRevoked hlower ?_ happlies.toInForce
  rw [status_grantToCreGrant]
  exact h s hs x hx hid

/-! ## Runs -/

/-- In every state of the run the grant is revoked, and no authorization that is built rests on it. -/
def RevocationFinal (p : Platform) (g : String) (ledger : Ledger) (calls : List GrantCall) : Prop :=
  ∀ before rest, calls = before ++ rest → GrantRevoked g (afterCalls p ledger before) ∧
    ∀ input now later authorization, rest = .buildAuthorization input now :: later →
      outcome (buildAuthorization p input now) (afterCalls p ledger before) = .ok authorization →
        ¬ ExecutesBy g authorization

theorem grantRevoked_run (h : GrantRevoked g ledger) {calls : List GrantCall}
    (hcalls : ∀ call ∈ calls, call.KeepsRevoked p g) : GrantRevoked g (afterCalls p ledger calls) := by
  induction calls generalizing ledger with
  | nil => exact h
  | cons call calls ih =>
    obtain ⟨hcall, hcalls⟩ := List.forall_mem_cons.mp hcalls
    exact ih ((keepsRevoked_iff h call).mpr hcall) hcalls

theorem keepsRevoked_of_run {calls : List GrantCall}
    (h : ∀ before rest, calls = before ++ rest → GrantRevoked g (afterCalls p ledger before)) :
    ∀ call ∈ calls, call.KeepsRevoked p g := by
  induction calls generalizing ledger with
  | nil => exact nofun
  | cons call calls ih =>
    refine List.forall_mem_cons.mpr ⟨?_, @ih (after (call.run p) ledger) fun before rest hsplit => ?_⟩
    · exact (keepsRevoked_iff (h [] _ rfl) call).mp (h [call] calls rfl)
    · exact h (call :: before) rest (by rw [hsplit, List.cons_append])

end

/-- A revocation is final exactly when no further grant of the id was in force, and none is created. -/
theorem revocation_final_iff (p : Platform) (hlower : p.lower "revoked" = "revoked")
    {ledger ledger' : Ledger} {input revocation : Fields} {now : Number}
    (hrevoke : revokeControlGrant p input now ledger = .ok revocation ledger') {g : String}
    (hid : revocation.get "grant_id" = some (.str g)) (calls : List GrantCall) :
    RevocationFinal p g ledger' calls ↔
      (∀ s : Store, s.IsGrants → FurtherRevoked g (ledger.stores s)) ∧
        ∀ call ∈ calls, call.KeepsRevoked p g := by
  have hstart : GrantRevoked g ledger' ↔
      ∀ s : Store, s.IsGrants → FurtherRevoked g (ledger.stores s) := by
    obtain ⟨hrevocation, hledger⟩ := revokeControlGrant_eq_ok hrevoke hid
    refine forall_congr' fun s => forall_congr' fun hs => ?_
    rw [hledger s hs]
    exact allRevoked_markRevoked_iff
  constructor
  · intro h
    exact ⟨hstart.mp (h [] calls rfl).1, keepsRevoked_of_run fun before rest hsplit =>
      (h before rest hsplit).1⟩
  · rintro ⟨hfurther, hcalls⟩ before rest rfl
    have hrevoked := grantRevoked_run (hstart.mpr hfurther) fun call hmem =>
      hcalls call (List.mem_append_left rest hmem)
    refine ⟨hrevoked, fun input now later authorization _ hbuilt => ?_⟩
    rw [outcome_buildAuthorization] at hbuilt
    exact not_executesBy hlower hrevoked hbuilt

/-! ## A grant that is created again -/

def payGrantInput : Fields :=
  [("id", .str "grant_1"), ("entity_l1_address", .str aliceAddress), ("capability", .str "pay"),
    ("scope", .str "shop")]

theorem payGrantInput_builds : ∃ grant, buildControlGrant plainPlatform payGrantInput (.int 0) = .ok grant ∧
    grant.get "id" = some (.str "grant_1") ∧ grant.get "status" = some (.str "active") :=
  ⟨_, rfl, rfl, rfl⟩

/-- A ledger with one grant. -/
def payGrantLedger : Ledger :=
  after (createControlGrant plainPlatform payGrantInput (.int 0)) (.fresh none ⟨none, [], none⟩)

theorem payGrantLedger_single {s : Store} (hs : s.IsGrants) : ∃ grant, payGrantLedger.stores s = [grant] := by
  obtain ⟨grant, hgrant, -⟩ := payGrantInput_builds
  obtain ⟨hcontrol, hcre⟩ :=
    after_createControlGrant (.fresh none ⟨none, [], none⟩) hgrant
  rcases hs with rfl | rfl
  · exact ⟨_, hcontrol⟩
  · exact ⟨_, hcre⟩

theorem payGrantLedger_further {s : Store} (hs : s.IsGrants) :
    FurtherRevoked "grant_1" (payGrantLedger.stores s) := by
  obtain ⟨grant, hgrant⟩ := payGrantLedger_single hs
  rw [hgrant]
  unfold FurtherRevoked
  rw [List.filter_cons]
  split <;> exact nofun

def payRevocationInput : Fields := [("grant_id", .str "grant_1")]

theorem payRevocation_revokes : ∃ revocation ledger',
    revokeControlGrant plainPlatform payRevocationInput (.int 1) payGrantLedger = .ok revocation ledger' ∧
      revocation.get "grant_id" = some (.str "grant_1") :=
  ⟨_, _, rfl, rfl⟩

theorem revocation_final_iff_repeated : ∃ revocation ledger',
    revokeControlGrant plainPlatform payRevocationInput (.int 1) payGrantLedger = .ok revocation ledger' ∧
      RevocationFinal plainPlatform "grant_1" ledger'
        [.revokeControlGrant payRevocationInput (.int 2), .buildAuthorization payGrantInput (.int 3)] := by
  obtain ⟨revocation, ledger', hrevoke, hid⟩ := payRevocation_revokes
  refine ⟨revocation, ledger', hrevoke, ?_⟩
  refine (revocation_final_iff plainPlatform rfl hrevoke hid _).mpr ⟨fun s hs => payGrantLedger_further hs, ?_⟩
  exact List.forall_mem_cons.mpr ⟨trivial, List.forall_mem_singleton.mpr trivial⟩

/-- The grant is revoked and created again: it is in force. -/
theorem created_again : ∃ revocation ledger',
    revokeControlGrant plainPlatform payRevocationInput (.int 1) payGrantLedger = .ok revocation ledger' ∧
      revocation.get "grant_id" = some (.str "grant_1") ∧
      ¬ RevocationFinal plainPlatform "grant_1" ledger' [.createControlGrant payGrantInput (.int 2)] := by
  obtain ⟨revocation, ledger', hrevoke, hid⟩ := payRevocation_revokes
  refine ⟨revocation, ledger', hrevoke, hid, fun h => ?_⟩
  obtain ⟨grant, hgrant, hgrantId, hstatus⟩ := payGrantInput_builds
  have hkeeps := keepsRevoked_of_run (fun before rest hsplit => (h before rest hsplit).1) _ (.head [])
  have hrevoked := hkeeps grant hgrant hgrantId
  rw [hstatus] at hrevoked
  cases hrevoked

end SimpleL1.Node
