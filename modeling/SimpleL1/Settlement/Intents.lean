import SimpleL1.Lib.Assoc
import SimpleL1.Lib.Steps
import SimpleL1.Settlement.Outcomes

/-!
# Cross-chain intents

The registry of deposit and withdrawal intents and what moves an intent from one state
to another. `fulfill` looks at the intent alone: it refuses a second fulfillment of the
same intent, and asks no other intent whether the proof has been spent on it.
-/

namespace SimpleL1.Settlement.IntentResolution

open SimpleL1.Js SimpleL1.Lib SimpleL1.Lib.Steps

/-! ## Records -/

inductive IntentState where
  | PENDING
  | OBSERVING
  | VERIFYING
  | FULFILLED
  | REJECTED
  | EXPIRED
  deriving DecidableEq

def IntentState.name : IntentState → String
  | PENDING => "PENDING"
  | OBSERVING => "OBSERVING"
  | VERIFYING => "VERIFYING"
  | FULFILLED => "FULFILLED"
  | REJECTED => "REJECTED"
  | EXPIRED => "EXPIRED"

structure Observation where
  observed_at : String
  tx_hash : Option Json
  confirmations : Option Json
  status : Option Json

structure Fulfillment where
  fulfilled_at : String
  tx_hash : Option Json
  network : Option Json
  amount : Option Json
  confirmations : Option Json
  block_number : Option Json
  explorer_url : Option Json
  proof_summary : String

structure Rejection where
  rejected_at : String
  reason : Option Json
  evidence : Json

/-- What a deposit and a withdrawal do not share. -/
inductive Terms where
  | deposit (expected_amount : Option Json) (deposit_address : String)
  | withdrawal (amount external_recipient : Option Json)

/-- The parameters that both kinds have. -/
structure Params where
  sl1_address : Option Json
  pubkey : Option Json
  network : Option Json
  asset : Option Json

structure Intent where
  intent_id : String
  state : IntentState
  params : Params
  terms : Terms
  created_at : String
  expires_at : String
  fulfillment : Option Fulfillment
  rejection : Option Rejection
  observations : List Observation

/-- `ledger.intent_registry`. Names that objects inherit are not among its intents: what is
written through one of them lands on a built-in and on no intent. -/
abbrev Registry := List (String × Intent)

/-- `new Date(now + ttl)` and `now` are in milliseconds. -/
def INTENT_TTL_MS : Int := 24 * 60 * 60 * 1000

/-- The calendar, the digest and `ethers.getAddress`, which may throw. -/
structure Platform extends Node.Platform where
  getAddress : String → Option String

section
variable (p : Platform)

/-! ## The engine -/

def evmNetworks : List String := ["ethereum", "base", "arbitrum", "polygon", "bsc", "optimism"]

/-- `network.slice(0, 3)` in a template. -/
def sliceNetwork : Option Json → JsM String
  | some (.str s) => return Node.sliceTo 3 s
  | some (.arr xs) => (Json.arr (xs.take 3)).toStr
  | none => throw (.typeError "Cannot read properties of undefined (reading 'slice')")
  | some .null => throw (.typeError "Cannot read properties of null (reading 'slice')")
  | some _ => throw (.typeError "network.slice is not a function")

def formatDepositAddress (network : Option Json) (hash : String) : JsM String := do
  if evmNetworks.any fun n => strictEq (some (.str n)) network then
    return (p.getAddress ("0x" ++ Node.sliceTo 40 hash)).getD ("0x" ++ Node.sliceTo 40 hash)
  if strictEq network (some (.str "bitcoin")) then return "bc1q" ++ Node.sliceTo 38 hash
  if strictEq network (some (.str "solana")) then return p.upper (Node.sliceTo 44 hash)
  if strictEq network (some (.str "ton")) then return "EQ" ++ Node.sliceTo 46 hash
  if strictEq network (some (.str "tron")) then return "T" ++ Node.sliceTo 33 hash
  return (← sliceNetwork network) ++ "_" ++ Node.sliceTo 30 hash

/-- `${sl1_address}:${pubkey}:${network}:${asset}` -/
def Params.seed (q : Params) : JsM String := do
  let sl1_address ← toStr q.sl1_address
  let pubkey ← toStr q.pubkey
  let network ← toStr q.network
  let asset ← toStr q.asset
  return sl1_address ++ ":" ++ pubkey ++ ":" ++ network ++ ":" ++ asset

def intentId (seed : String) : String := Node.sliceTo 32 (p.sha256 seed)

def newIntent (now : Int) (intent_id : String) (q : Params) (terms : Terms) : JsM Intent := do
  let expires_at ← Node.toISOString p.toPlatform (Node.timeClip (.int (now + INTENT_TTL_MS)))
  return ⟨intent_id, .PENDING, q, terms, p.isoDate now, expires_at, none, none, []⟩

def createDepositIntent (now : Int) (q : Params) (amount : Option Json) (r : Registry) :
    Registry × JsM Intent :=
  let made : JsM (String × JsM Intent) := do
    let intent_id := intentId p ((← q.seed) ++ ":" ++ toString (now / 3600000))
    return (intent_id, do
      let depositSeed := intent_id ++ ":" ++ (← toStr q.pubkey) ++ ":" ++ (← toStr q.network) ++ ":" ++
        (← toStr q.asset)
      let deposit_address ← formatDepositAddress p q.network (p.sha256 depositSeed)
      newIntent p now intent_id q (.deposit amount deposit_address))
  match made with
  | .error e => (r, .error e)
  | .ok (intent_id, intent) =>
    match Assoc.find intent_id r with
    | some intent => (r, .ok intent)
    | none =>
      match intent with
      | .error e => (r, .error e)
      | .ok intent => (Assoc.insert intent_id intent r, .ok intent)

/-- `(ledger.accounts[sl1_address]?.nonce || 0).toString()` -/
def nonceOf (accounts : Fields) (sl1_address : Option Json) : JsM String := do
  let account := accounts.get (← toStr sl1_address)
  toStr (or (account.bind fun a => a.prop "nonce") (some (.num (.int 0))))

def createWithdrawalIntent (now : Int) (accounts : Fields) (q : Params)
    (amount external_recipient : Option Json) (r : Registry) : Registry × JsM Intent :=
  let made : JsM String := do
    let nonce ← nonceOf accounts q.sl1_address
    return intentId p ("withdraw:" ++ (← q.seed) ++ ":" ++ (← toStr amount) ++ ":" ++ nonce)
  match made with
  | .error e => (r, .error e)
  | .ok intent_id =>
    match Assoc.find intent_id r with
    | some intent => (r, .ok intent)
    | none =>
      match newIntent p now intent_id q (.withdrawal amount external_recipient) with
      | .error e => (r, .error e)
      | .ok intent => (Assoc.insert intent_id intent r, .ok intent)

def notFound (intent_id : String) : Error := .error ("Intent not found: " ++ intent_id)

def observe (now : Int) (intent_id : String) (settlementEvent : Option Json) (r : Registry) :
    Registry × JsM Intent :=
  match Assoc.find intent_id r with
  | none => (r, .error (notFound intent_id))
  | some intent =>
    let observation : JsM Observation := do
      let txHash ← Node.member settlementEvent "txHash"
      let tx_hash ← Node.member settlementEvent "tx_hash"
      let confirmations ← Node.member settlementEvent "confirmations"
      let status ← Node.member settlementEvent "status"
      return ⟨p.isoDate now, Js.or txHash tx_hash, Js.or confirmations (some (.num (.int 0))), status⟩
    match observation with
    | .error e => (r, .error e)
    | .ok observation =>
      let intent := { intent with
        observations := intent.observations ++ [observation]
        state := if intent.state = .PENDING then .OBSERVING else intent.state }
      (Assoc.insert intent_id intent r, .ok intent)

/-- `new Date() > new Date(intent.expires_at)` -/
def expired (now : Int) (intent : Intent) : Bool :=
  (Node.timeClip (p.parseDate intent.expires_at)).lt (.int now)

def digestProof (proof : Option Json) : JsM String := do
  let txHash ← Node.member proof "txHash"
  let network ← Node.member proof "network"
  let amount ← Node.member proof "amount"
  let blockNumber ← Node.member proof "blockNumber"
  let raw := Json.obj (Fields.ofOptions [("txHash", txHash), ("network", network), ("amount", amount),
    ("blockNumber", blockNumber)])
  return Node.sliceTo 16 (p.sha256 (String.ofList raw.text))

def fulfillmentOf (now : Int) (proof : Option Json) : JsM Fulfillment := do
  let tx_hash ← Node.member proof "txHash"
  let network ← Node.member proof "network"
  let amount ← Node.member proof "amount"
  let confirmations ← Node.member proof "confirmations"
  let block_number ← Node.member proof "blockNumber"
  let explorer_url ← Node.member proof "explorerUrl"
  let proof_summary ← digestProof p proof
  return ⟨p.isoDate now, tx_hash, network, amount, confirmations, block_number, explorer_url, proof_summary⟩

/-- The state is written before the proof is read. -/
def fulfill (now : Int) (intent_id : String) (proof : Option Json) (r : Registry) :
    Registry × JsM Intent :=
  match Assoc.find intent_id r with
  | none => (r, .error (notFound intent_id))
  | some intent =>
    if intent.state = .FULFILLED then
      (r, .error (.error ("Intent " ++ intent_id ++ " already fulfilled — replay protection active")))
    else if intent.state = .REJECTED then
      (r, .error (.error ("Intent " ++ intent_id ++ " was rejected and cannot be fulfilled")))
    else if expired p now intent then
      (Assoc.insert intent_id { intent with state := .EXPIRED } r,
        .error (.error ("Intent " ++ intent_id ++ " has expired")))
    else
      match fulfillmentOf p now proof with
      | .error e => (Assoc.insert intent_id { intent with state := .FULFILLED } r, .error e)
      | .ok fulfillment =>
        let intent := { intent with state := .FULFILLED, fulfillment := some fulfillment }
        (Assoc.insert intent_id intent r, .ok intent)

def reject (now : Int) (intent_id : String) (reason : Option Json) (evidence : Option Json)
    (r : Registry) : Registry × JsM Intent :=
  match Assoc.find intent_id r with
  | none => (r, .error (notFound intent_id))
  | some intent =>
    if intent.state = .FULFILLED ∨ intent.state = .REJECTED then
      (r, .error (.error ("Intent " ++ intent_id ++ " is already terminal (" ++ intent.state.name ++ ")")))
    else
      let intent := { intent with
        state := .REJECTED
        rejection := some ⟨p.isoDate now, reason, evidence.getD (.obj [])⟩ }
      (Assoc.insert intent_id intent r, .ok intent)

/-- What `expireStale` makes of one intent. -/
def expire (now : Int) (intent : Intent) : Intent :=
  if (intent.state = .PENDING ∨ intent.state = .OBSERVING) ∧ expired p now intent then
    { intent with state := .EXPIRED }
  else
    intent

def expireStale (now : Int) (r : Registry) : Registry := r.map fun e => (e.1, expire p now e.2)

inductive Call where
  | createDepositIntent (q : Params) (amount : Option Json)
  | createWithdrawalIntent (accounts : Fields) (q : Params) (amount external_recipient : Option Json)
  | observe (intent_id : String) (settlementEvent : Option Json)
  | fulfill (intent_id : String) (proof : Option Json)
  | reject (intent_id : String) (reason evidence : Option Json)
  | expireStale

/-- One call at its time. -/
def step (r : Registry) (c : Int × Call) : Registry :=
  match c.2 with
  | .createDepositIntent q amount => (createDepositIntent p c.1 q amount r).1
  | .createWithdrawalIntent accounts q amount external_recipient =>
    (createWithdrawalIntent p c.1 accounts q amount external_recipient r).1
  | .observe intent_id settlementEvent => (observe p c.1 intent_id settlementEvent r).1
  | .fulfill intent_id proof => (fulfill p c.1 intent_id proof r).1
  | .reject intent_id reason evidence => (reject p c.1 intent_id reason evidence r).1
  | .expireStale => expireStale p c.1 r

end

/-! ## What is fulfilled -/

/-- The intent is FULFILLED by a proof, of which `f` is the record. -/
def Fulfils (r : Registry) (intent_id : String) (f : Fulfillment) : Prop :=
  ∃ intent, Assoc.find intent_id r = some intent ∧ intent.state = .FULFILLED ∧ intent.fulfillment = some f

def SameTransaction (f g : Fulfillment) : Prop := f.network = g.network ∧ f.tx_hash = g.tx_hash

/-- No transaction fulfils two intents. -/
def SpentOnce (r : Registry) : Prop :=
  ∀ i j f g, Fulfils r i f → Fulfils r j g → SameTransaction f g → i = j

section
variable {p : Platform} {now : Int} {r : Registry} {i j : String} {f g : Fulfillment} {intent : Intent}
  {proof : Option Json}

theorem fulfils_insert : Fulfils (Assoc.insert i intent r) j f ↔
    if i = j then intent.state = .FULFILLED ∧ intent.fulfillment = some f else Fulfils r j f := by
  unfold Fulfils
  rw [Assoc.find_insert]
  split
  · constructor
    · rintro ⟨_, h, hstate⟩
      cases h
      exact hstate
    · intro hstate
      exact ⟨intent, rfl, hstate⟩
  · exact Iff.rfl

/-- A call that fulfils nothing and takes no fulfillment back. -/
inductive Quiet (p : Platform) (r : Registry) : Registry → Prop
  | same : Quiet p r r
  | created {i : String} {intent : Intent} (hnone : Assoc.find i r = none)
      (hstate : intent.state ≠ .FULFILLED) (hfulfillment : intent.fulfillment = none) :
      Quiet p r (Assoc.insert i intent r)
  | rewritten {i : String} {old intent : Intent} (hold : Assoc.find i r = some old)
      (hstate : intent.state = .FULFILLED ↔ old.state = .FULFILLED)
      (hfulfillment : intent.fulfillment = old.fulfillment) : Quiet p r (Assoc.insert i intent r)
  | aged (now : Int) : Quiet p r (expireStale p now r)

theorem newIntent_eq_ok {q : Params} {terms : Terms} (h : newIntent p now i q terms = .ok intent) :
    intent.state = .PENDING ∧ intent.fulfillment = none := by
  unfold newIntent at h
  obtain ⟨expires_at, -, h⟩ := bind_eq_ok.mp h
  cases h
  exact ⟨rfl, rfl⟩

theorem quiet_createDepositIntent {q : Params} {amount : Option Json} :
    Quiet p r (createDepositIntent p now q amount r).1 := by
  unfold createDepositIntent
  dsimp only
  split
  · exact .same
  · rename_i hmade
    split
    · exact .same
    · rename_i hnone
      split
      · exact .same
      · obtain ⟨seed, -, hmade⟩ := bind_eq_ok.mp hmade
        simp only [pure, Except.pure, Except.ok.injEq, Prod.mk.injEq] at hmade
        obtain ⟨-, hmade⟩ := hmade
        obtain ⟨_, -, hmade⟩ := bind_eq_ok.mp hmade
        obtain ⟨_, -, hmade⟩ := bind_eq_ok.mp hmade
        obtain ⟨_, -, hmade⟩ := bind_eq_ok.mp hmade
        obtain ⟨_, -, hmade⟩ := bind_eq_ok.mp hmade
        obtain ⟨hstate, hfulfillment⟩ := newIntent_eq_ok hmade
        exact .created hnone (by rw [hstate]; decide) hfulfillment

theorem quiet_createWithdrawalIntent {accounts : Fields} {q : Params} {amount external_recipient : Option Json} :
    Quiet p r (createWithdrawalIntent p now accounts q amount external_recipient r).1 := by
  unfold createWithdrawalIntent
  dsimp only
  split
  · exact .same
  · split
    · exact .same
    · rename_i hnone
      split
      · exact .same
      · rename_i hintent
        obtain ⟨hstate, hfulfillment⟩ := newIntent_eq_ok hintent
        exact .created hnone (by rw [hstate]; decide) hfulfillment

theorem quiet_observe {event : Option Json} : Quiet p r (observe p now i event r).1 := by
  unfold observe
  split
  · exact .same
  · rename_i old hold
    dsimp only
    split
    · exact .same
    · refine .rewritten hold ?_ rfl
      dsimp only
      by_cases hpending : old.state = .PENDING
      · rw [if_pos hpending, hpending]
        decide
      · rw [if_neg hpending]

theorem quiet_reject {reason evidence : Option Json} : Quiet p r (reject p now i reason evidence r).1 := by
  unfold reject
  split
  · exact .same
  · rename_i old hold
    split
    · exact .same
    · rename_i hopen
      refine .rewritten hold ⟨fun h => (nomatch h), fun h => absurd (.inl h) hopen⟩ rfl

theorem find_expireStale (r : Registry) (j : String) :
    Assoc.find j (expireStale p now r) = (Assoc.find j r).map (expire p now) := by
  unfold expireStale
  induction r with
  | nil => rfl
  | cons e r ih =>
    obtain ⟨k, intent⟩ := e
    rw [List.map_cons]
    unfold Assoc.find
    split
    · rfl
    · exact ih

theorem expire_spec (p : Platform) (now : Int) (intent : Intent) :
    ((expire p now intent).state = .FULFILLED ↔ intent.state = .FULFILLED) ∧
      (expire p now intent).fulfillment = intent.fulfillment := by
  unfold expire
  split
  · rename_i hopen
    obtain ⟨hstate | hstate, -⟩ := hopen
    · exact ⟨⟨fun h => (nomatch h), fun h => (nomatch hstate.symm.trans h)⟩, rfl⟩
    · exact ⟨⟨fun h => (nomatch h), fun h => (nomatch hstate.symm.trans h)⟩, rfl⟩
  · exact ⟨Iff.rfl, rfl⟩

theorem fulfils_of_quiet {r' : Registry} (h : Quiet p r r') : Fulfils r' j f ↔ Fulfils r j f := by
  cases h with
  | same => exact Iff.rfl
  | @created i intent hnone hstate hfulfillment =>
    rw [fulfils_insert]
    split
    · rename_i hij
      subst hij
      refine ⟨fun h => absurd h.1 hstate, ?_⟩
      rintro ⟨_, hfind, -⟩
      cases hnone.symm.trans hfind
    · exact Iff.rfl
  | @rewritten i old intent hold hstate hfulfillment =>
    rw [fulfils_insert]
    split
    · rename_i hij
      subst hij
      rw [hstate, hfulfillment]
      refine ⟨fun h => ⟨old, hold, h⟩, ?_⟩
      rintro ⟨_, hfind, h⟩
      cases hold.symm.trans hfind
      exact h
    · exact Iff.rfl
  | aged now =>
    unfold Fulfils
    rw [find_expireStale]
    cases Assoc.find j r with
    | none => simp
    | some old =>
      obtain ⟨hstate, hfulfillment⟩ := expire_spec p now old
      simp [hstate, hfulfillment]

/-! ## What `fulfill` adds -/

/-- An intent has no fulfillment on record until it is fulfilled. -/
def Intent.Unrecorded (intent : Intent) : Prop := intent.state ≠ .FULFILLED → intent.fulfillment = none

def Unrecorded (r : Registry) : Prop := ∀ i intent, Assoc.find i r = some intent → intent.Unrecorded

theorem unrecorded_insert (hr : Unrecorded r) (h : intent.Unrecorded) :
    Unrecorded (Assoc.insert i intent r) := by
  intro j old hold
  rw [Assoc.find_insert] at hold
  split at hold
  · cases hold
    exact h
  · exact hr j old hold

theorem unrecorded_of_quiet {r' : Registry} (hr : Unrecorded r) (h : Quiet p r r') : Unrecorded r' := by
  cases h with
  | same => exact hr
  | created hnone hstate hfulfillment => exact unrecorded_insert hr fun _ => hfulfillment
  | rewritten hold hstate hfulfillment =>
    refine unrecorded_insert hr fun hopen => ?_
    rw [hfulfillment]
    exact hr _ _ hold (mt hstate.mpr hopen)
  | aged now =>
    intro j intent hfind
    rw [find_expireStale] at hfind
    obtain ⟨old, hold, rfl⟩ := Option.map_eq_some_iff.mp hfind
    obtain ⟨hstate, hfulfillment⟩ := expire_spec p now old
    intro hopen
    rw [hfulfillment]
    exact hr j old hold (mt hstate.mpr hopen)

/-- `fulfill` gets past its checks and reads the proof. -/
def Accepts (p : Platform) (now : Int) (r : Registry) (intent_id : String) (proof : Option Json)
    (f : Fulfillment) : Prop :=
  ∃ intent, Assoc.find intent_id r = some intent ∧ intent.state ≠ .FULFILLED ∧ intent.state ≠ .REJECTED ∧
    expired p now intent = false ∧ fulfillmentOf p now proof = .ok f

/-- An accepted proof is on record; a proof that cannot be read leaves the intent FULFILLED
by none, and every other call of `fulfill` changes no fulfillment. -/
theorem fulfils_fulfill (hr : Unrecorded r) :
    Fulfils (fulfill p now i proof r).1 j f ↔ Fulfils r j f ∨ (i = j ∧ Accepts p now r i proof f) := by
  unfold fulfill Accepts
  cases hfind : Assoc.find i r with
  | none => simp
  | some old =>
    dsimp only
    by_cases hfulfilled : old.state = .FULFILLED
    · simp [hfulfilled]
    rw [if_neg hfulfilled]
    have hnew : ¬ Fulfils r i f := by
      rintro ⟨_, h, hstate, -⟩
      cases hfind.symm.trans h
      exact hfulfilled hstate
    by_cases hrejected : old.state = .REJECTED
    · simp [hrejected]
    rw [if_neg hrejected]
    cases hexpired : expired p now old with
    | true =>
      rw [if_pos rfl, fulfils_insert]
      split
      · rename_i hij
        subst hij
        simp [hnew, hexpired]
      · simp [hexpired]
    | false =>
      rw [if_neg (by decide)]
      cases hproof : fulfillmentOf p now proof with
      | error e =>
        rw [fulfils_insert]
        split
        · rename_i hij
          subst hij
          simp [hnew, hr i old hfind hfulfilled]
        · simp
      | ok g =>
        rw [fulfils_insert]
        split
        · rename_i hij
          subst hij
          simp [hnew, hfulfilled, hrejected, hexpired]
        · rename_i hij
          simp [hij]

theorem unrecorded_fulfill (hr : Unrecorded r) : Unrecorded (fulfill p now i proof r).1 := by
  unfold fulfill
  split
  · exact hr
  · rename_i old hold
    split
    · exact hr
    · rename_i hopen
      split
      · exact hr
      · split
        · exact unrecorded_insert hr fun _ => hr i old hold hopen
        · split
          · exact unrecorded_insert hr fun h => absurd rfl h
          · exact unrecorded_insert hr fun h => absurd rfl h

/-! ## Runs -/

/-- The calls that spend no transaction a second time: `fulfill` is refused, or no other
intent is FULFILLED by a proof of this network and transaction. -/
def Unspent (p : Platform) (r : Registry) (c : Int × Call) : Prop :=
  match c.2 with
  | .fulfill intent_id proof => ∀ f, Accepts p c.1 r intent_id proof f →
      ∀ j g, j ≠ intent_id → Fulfils r j g → ¬ SameTransaction f g
  | _ => True

/-- Every call is quiet but `fulfill`. -/
theorem step_cases (p : Platform) (r : Registry) (c : Int × Call) :
    (Quiet p r (step p r c) ∧ Unspent p r c) ∨ ∃ intent_id proof, c.2 = .fulfill intent_id proof := by
  obtain ⟨now, call⟩ := c
  cases call with
  | createDepositIntent q amount => exact .inl ⟨quiet_createDepositIntent, trivial⟩
  | createWithdrawalIntent accounts q amount external_recipient =>
    exact .inl ⟨quiet_createWithdrawalIntent, trivial⟩
  | observe intent_id settlementEvent => exact .inl ⟨quiet_observe, trivial⟩
  | fulfill intent_id proof => exact .inr ⟨intent_id, proof, rfl⟩
  | reject intent_id reason evidence => exact .inl ⟨quiet_reject, trivial⟩
  | expireStale => exact .inl ⟨.aged now, trivial⟩

theorem unrecorded_step (r : Registry) (c : Int × Call) (hr : Unrecorded r) : Unrecorded (step p r c) := by
  rcases step_cases p r c with ⟨hquiet, -⟩ | ⟨intent_id, proof, hc⟩
  · exact unrecorded_of_quiet hr hquiet
  · unfold step
    rw [hc]
    exact unrecorded_fulfill hr

theorem spentOnce_fulfill (hr : Unrecorded r) (h : SpentOnce r) :
    SpentOnce (fulfill p now i proof r).1 ↔ ∀ f, Accepts p now r i proof f →
      ∀ j g, j ≠ i → Fulfils r j g → ¬ SameTransaction f g := by
  constructor
  · intro hspent f hf j g hj hg hsame
    refine hj (hspent i j f g ?_ ?_ hsame).symm
    · exact (fulfils_fulfill hr).mpr (.inr ⟨rfl, hf⟩)
    · exact (fulfils_fulfill hr).mpr (.inl hg)
  · intro hfresh j k f g hf hg hsame
    rcases (fulfils_fulfill hr).mp hf with hfold | ⟨rfl, hfnew⟩ <;>
      rcases (fulfils_fulfill hr).mp hg with hgold | ⟨rfl, hgnew⟩
    · exact h j k f g hfold hgold hsame
    · by_contra hjk
      exact hfresh g hgnew j f hjk hfold ⟨hsame.1.symm, hsame.2.symm⟩
    · by_contra hjk
      exact hfresh f hfnew k g (Ne.symm hjk) hgold hsame
    · rfl

theorem spentOnce_step (r : Registry) (c : Int × Call) (hr : Unrecorded r) (h : SpentOnce r) :
    SpentOnce (step p r c) ↔ Unspent p r c := by
  rcases step_cases p r c with ⟨hquiet, hunspent⟩ | ⟨intent_id, proof, hc⟩
  · refine ⟨fun _ => hunspent, fun _ i j f g hf hg hsame => ?_⟩
    exact h i j f g ((fulfils_of_quiet hquiet).mp hf) ((fulfils_of_quiet hquiet).mp hg) hsame
  · unfold step Unspent
    rw [hc]
    exact spentOnce_fulfill hr h

/-- One transaction fulfils one intent throughout a run, just when every call of the run
leaves spent transactions alone. -/
theorem spent_once_iff (p : Platform) (calls : List (Int × Call)) :
    Throughout (step p) SpentOnce [] calls ↔ EveryStep (step p) (Unspent p) [] calls :=
  throughout_iff unrecorded_step spentOnce_step (fun _ _ h => nomatch h) (fun _ _ _ _ ⟨_, h, _⟩ => nomatch h)

end

section Example

def plain : Platform where
  toPlatform := GovernanceEngine.plainPlatform
  getAddress _ := none

def depositOf (asset : String) : Call :=
  .createDepositIntent ⟨some (.str "sl1e_alice"), some (.str "key"), some (.str "base"), some (.str asset)⟩ none

def proofOfTransfer : Option Json :=
  some (.obj [("txHash", .str "0x01"), ("network", .str "base"), ("amount", .str "100")])

/-- Two deposits are announced, and one transfer is presented for both. -/
def oneTransferTwice : List (Int × Call) :=
  [(0, depositOf "USDC"), (0, depositOf "USDT"),
    (0, .fulfill "~sl1e_alice:key:base:USDC:0" proofOfTransfer),
    (0, .fulfill "~sl1e_alice:key:base:USDT:0" proofOfTransfer)]

theorem transfer_spent_twice : ¬ ∀ p calls, Throughout (step p) SpentOnce [] calls := by
  intro h
  have hspent := h plain oneTransferTwice oneTransferTwice List.prefix_rfl
  have hsame := hspent "~sl1e_alice:key:base:USDC:0" "~sl1e_alice:key:base:USDT:0" _ _
    ⟨_, rfl, rfl, rfl⟩ ⟨_, rfl, rfl, rfl⟩ ⟨rfl, rfl⟩
  exact absurd hsame (by decide)

end Example

end SimpleL1.Settlement.IntentResolution
