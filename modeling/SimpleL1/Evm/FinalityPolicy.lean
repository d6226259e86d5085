import SimpleL1.Js.Order
import SimpleL1.Node.Platform

/-!
# The finality policy

`evaluateFpl` asks whether the transaction fact of a graph is final in a context. The checks of the
evidence come first, each with its own verdict; then the confirmations are counted and compared. A
comparison with `NaN` is false, so a bound that is no number is never missed, and what the context
leaves out is taken from the fact itself: the comparison fails open on both.
-/

namespace SimpleL1.Evm

open SimpleL1.Js

inductive FplResult where
  | CANDIDATE
  | CHALLENGED
  | FINALIZED
  | INVALIDATED
  | REJECTED
  deriving DecidableEq, Repr

structure FplVerdict where
  verdict : FplResult
  reason_codes : List String
  fact_id : Json
  chain_id : Json
  tx_hash : Json
  confirmations : Option Number
  required_confirmations : Option Number
  context_id : Json

/-- `(graph?.facts || []).find((fact) => fact.fact_type === 'EVM_TX') || null` -/
def findTxFact (graph : Option Json) : JsM (Option Json) := do
  let facts ← Node.arrayOrEmpty (graph.bind (·.prop "facts")) "(graph?.facts || []).find"
  find (fun fact => do
    let fact_type ← Node.member (some fact) "fact_type"
    return strictEq fact_type (some (.str "EVM_TX"))) facts

section
variable (p : Node.Platform)

def normalize (value : Option Json) : JsM String := p.lower <$> toStr (or value (some (.str "")))

/-- The verdict, with the context's own id; `null` has none. -/
def verdict (result : FplResult) (reasonCodes : List String) (txFact : Option Json) (context : Json)
    (counted : Option (Number × Number)) : JsM FplVerdict := do
  let context_id ← Node.member (some context) "context_id"
  return { verdict := result, reason_codes := reasonCodes, fact_id := orNull (txFact.bind (·.prop "fact_id")),
           chain_id := orNull (txFact.bind (·.prop "chain_id")), tx_hash := orNull (txFact.bind (·.prop "tx_hash")),
           confirmations := counted.map Prod.fst, required_confirmations := counted.map Prod.snd,
           context_id := orNull context_id }

def falseField (context : Json) (k : String) : Bool := strictEq (context.prop k) (some (.bool false))

def partialEvidence (graph : Option Json) : Bool :=
  strictEq ((graph.bind (·.prop "observation")).bind (·.prop "evidence_completeness")) (some (.str "partial"))

/-- `observed && normalize(observed) !== txFact.block_hash` -/
def blockHashMismatch (context fact : Json) : JsM Bool :=
  if truthy (context.prop "observed_block_hash") then do
    let observed ← normalize p (context.prop "observed_block_hash")
    return !(strictEq (some (.str observed)) (fact.prop "block_hash"))
  else return false

/-- The verdict of a check before the count. -/
def earlyExit (graph : Option Json) (context fact : Json) : JsM (Option (FplResult × String)) :=
  if falseField context "receipt_exists" then return some (.REJECTED, "RECEIPT_MISSING")
  else if partialEvidence graph || falseField context "required_evidence_present" then
    return some (.CHALLENGED, "REQUIRED_EVIDENCE_MISSING")
  else if strictEq (context.prop "known_reorg_contradiction") (some (.bool true)) then
    return some (.INVALIDATED, "KNOWN_REORG_CONTRADICTION")
  else do
    return if ← blockHashMismatch p context fact then some (.INVALIDATED, "BLOCK_HASH_MISMATCH") else none

def requiredConfirmations (context : Json) : JsM Number :=
  toNumber (nullish (context.prop "required_confirmations") (some (.num (.int 0))))

def currentBlock (context fact : Json) : JsM Number :=
  toNumber (nullish (context.prop "current_block") (fact.prop "block_number"))

def evaluateFpl (graph : Option Json) (context : Json) : JsM FplVerdict := do
  match ← findTxFact graph with
  | none => verdict .REJECTED ["EVM_TX_FACT_MISSING"] none context none
  | some txFact =>
    let _ ← Node.member (some context) "receipt_exists"
    match ← earlyExit p graph context txFact with
    | some (result, code) => verdict result [code] (some txFact) context none
    | none =>
      let required ← requiredConfirmations context
      let current ← currentBlock context txFact
      let blockNumber ← toNumber (txFact.prop "block_number")
      let confirmations := Number.maxZero (Number.sub current blockNumber)
      if confirmations.lt required then
        verdict .CANDIDATE ["INSUFFICIENT_CONFIRMATIONS"] (some txFact) context (some (confirmations, required))
      else
        verdict .FINALIZED ["FPL_ELIGIBILITY_SATISFIED"] (some txFact) context (some (confirmations, required))

end

/-! ## Where the confirmations are counted -/

variable {p : Node.Platform} {graph : Option Json} {context fact : Json}

theorem earlyExit_eq_none : earlyExit p graph context fact = .ok none ↔
    falseField context "receipt_exists" = false ∧ partialEvidence graph = false ∧
      falseField context "required_evidence_present" = false ∧
      strictEq (context.prop "known_reorg_contradiction") (some (.bool true)) = false ∧
      blockHashMismatch p context fact = .ok false := by
  unfold earlyExit
  cases falseField context "receipt_exists" with
  | true => exact ⟨nofun, nofun⟩
  | false =>
    cases partialEvidence graph with
    | true => exact ⟨nofun, nofun⟩
    | false =>
      cases falseField context "required_evidence_present" with
      | true => exact ⟨nofun, nofun⟩
      | false =>
        cases strictEq (context.prop "known_reorg_contradiction") (some (.bool true)) with
        | true => exact ⟨nofun, nofun⟩
        | false =>
          cases hhash : blockHashMismatch p context fact with
          | error e => exact ⟨nofun, nofun⟩
          | ok b =>
            cases b with
            | true => exact ⟨nofun, fun h => by cases h.2.2.2.2⟩
            | false => exact ⟨fun _ => ⟨rfl, rfl, rfl, rfl, rfl⟩, fun _ => rfl⟩

theorem earlyExit_result {result : FplResult} {code : String}
    (h : earlyExit p graph context fact = .ok (some (result, code))) :
    result ≠ .FINALIZED ∧ result ≠ .CANDIDATE := by
  unfold earlyExit at h
  split at h
  · cases h
    decide
  split at h
  · cases h
    decide
  split at h
  · cases h
    decide
  obtain ⟨b, -, h⟩ := bind_eq_ok.mp h
  cases b with
  | true =>
    cases h
    decide
  | false => cases h

/-- The evaluation gets to the count, with these numbers. -/
structure Counted (p : Node.Platform) (graph : Option Json) (context fact : Json)
    (required current block : Number) : Prop where
  found : findTxFact graph = .ok (some fact)
  given : context ≠ .null
  passed : earlyExit p graph context fact = .ok none
  required : requiredConfirmations context = .ok required
  current : currentBlock context fact = .ok current
  block : toNumber (fact.prop "block_number") = .ok block

def Evaluates (p : Node.Platform) (graph : Option Json) (context : Json) (result : FplResult) : Prop :=
  ∃ v, evaluateFpl p graph context = .ok v ∧ v.verdict = result

theorem verdict_eq_ok {result : FplResult} {codes : List String} {txFact : Option Json}
    {counted : Option (Number × Number)} {v : FplVerdict} (h : verdict result codes txFact context counted = .ok v) :
    v.verdict = result := by
  unfold verdict at h
  obtain ⟨context_id, -, h⟩ := bind_eq_ok.mp h
  cases h
  rfl

theorem exists_verdict (h : context ≠ .null) (result : FplResult) (codes : List String) (txFact : Option Json)
    (counted : Option (Number × Number)) :
    ∃ v, verdict result codes txFact context counted = .ok v ∧ v.verdict = result := by
  unfold verdict
  rw [Node.member_eq_ok.mpr ⟨h, rfl⟩]
  exact ⟨_, rfl, rfl⟩

/-- A verdict that is `finalized` or `candidate` comes from the count. -/
theorem evaluates_iff {result : FplResult} (hresult : result = .FINALIZED ∨ result = .CANDIDATE) :
    Evaluates p graph context result ↔ ∃ fact required current block,
      Counted p graph context fact required current block ∧
      ((Number.maxZero (Number.sub current block)).lt required = true ↔ result = .CANDIDATE) := by
  unfold Evaluates evaluateFpl
  constructor
  · rintro ⟨v, hv, rfl⟩
    obtain ⟨found, hfound, hv⟩ := bind_eq_ok.mp hv
    cases found with
    | none =>
      have hrejected := verdict_eq_ok hv
      rw [hrejected] at hresult
      rcases hresult with h | h <;> cases h
    | some fact =>
      obtain ⟨_, hmember, hv⟩ := bind_eq_ok.mp hv
      obtain ⟨exit, hexit, hv⟩ := bind_eq_ok.mp hv
      cases exit with
      | some out =>
        have hout := verdict_eq_ok hv
        obtain ⟨hfinal, hcandidate⟩ := earlyExit_result hexit
        rw [← hout] at hfinal hcandidate
        exact (hresult.elim hfinal hcandidate).elim
      | none =>
        obtain ⟨required, hrequired, hv⟩ := bind_eq_ok.mp hv
        obtain ⟨current, hcurrent, hv⟩ := bind_eq_ok.mp hv
        obtain ⟨block, hblock, hv⟩ := bind_eq_ok.mp hv
        refine ⟨fact, required, current, block,
          ⟨hfound, (Node.member_eq_ok.mp hmember).1, hexit, hrequired, hcurrent, hblock⟩, ?_⟩
        dsimp only at hv
        split at hv
        · next hlt => exact ⟨fun _ => verdict_eq_ok hv, fun _ => hlt⟩
        · next hlt =>
          have hfinal := verdict_eq_ok hv
          exact ⟨fun h => absurd h hlt, fun h => by rw [hfinal] at h; cases h⟩
  · rintro ⟨fact, required, current, block, h, hcount⟩
    rw [h.found, ok_bind]
    dsimp only
    rw [Node.member_eq_ok.mpr ⟨h.given, rfl⟩, ok_bind, h.passed, ok_bind]
    dsimp only
    rw [h.required, ok_bind, h.current, ok_bind, h.block, ok_bind]
    split
    · next hlt =>
      rw [hcount.mp hlt]
      exact exists_verdict h.given _ _ _ _
    · next hlt =>
      rw [hresult.resolve_right fun hcandidate => hlt (hcount.mpr hcandidate)]
      exact exists_verdict h.given _ _ _ _

theorem Counted.unique {fact' : Json} {required required' current current' block block' : Number}
    (h : Counted p graph context fact required current block)
    (h' : Counted p graph context fact' required' current' block') :
    fact' = fact ∧ required' = required ∧ current' = current ∧ block' = block := by
  have hfact : some fact' = some fact := Except.ok.inj (h'.found.symm.trans h.found)
  cases hfact
  exact ⟨rfl, Except.ok.inj (h'.required.symm.trans h.required), Except.ok.inj (h'.current.symm.trans h.current),
    Except.ok.inj (h'.block.symm.trans h.block)⟩

/-! ## What a final verdict stands on -/

structure Justified (p : Node.Platform) (graph : Option Json) (context fact : Json) : Prop where
  found : findTxFact graph = .ok (some fact)
  evidence : partialEvidence graph = false ∧ falseField context "required_evidence_present" = false
  noReorg : strictEq (context.prop "known_reorg_contradiction") (some (.bool true)) = false
  sameBlock : blockHashMismatch p context fact = .ok false
  deep : ∃ current required block, context.prop "current_block" = some (.num current) ∧
    context.prop "required_confirmations" = some (.num required) ∧
    toNumber (fact.prop "block_number") = .ok block ∧ required.le (Number.sub current block) = true

/-- The context, at another block. -/
def atBlock (context : Json) (current : Number) : Json :=
  match context with
  | .obj fs => .obj (Fields.set fs "current_block" (.num current))
  | context => context

/-- A final verdict is justified, and a larger block does not take it back. -/
def SoundVerdict (p : Node.Platform) (graph : Option Json) (context : Json) : Prop :=
  (Evaluates p graph context .FINALIZED → ∃ fact, Justified p graph context fact) ∧
  ∀ current current' : Number, current.lt current' = true → Evaluates p graph (atBlock context current) .FINALIZED →
    ¬ Evaluates p graph (atBlock context current') .CANDIDATE

/-- Where the count is reached, either it falls short, or both bounds are numbers that can be compared and the
count is not of blocks that are still to come. -/
def FailsClosed (p : Node.Platform) (graph : Option Json) (context : Json) : Prop :=
  ∀ fact required current block, Counted p graph context fact required current block →
    (Number.maxZero (Number.sub current block)).lt required = true ∨
    context.prop "current_block" = some (.num current) ∧ context.prop "required_confirmations" = some (.num required) ∧
      required ≠ .nan ∧ Number.sub current block ≠ .nan ∧
      ((Number.int 0).lt required = true ∨ required.le (Number.sub current block) = true)

theorem prop_atBlock {k : String} (hk : k ≠ "current_block") (current : Number) :
    (atBlock context current).prop k = context.prop k := by
  cases context with
  | obj fs =>
    show Fields.get (Fields.set fs _ _) k = _
    rw [Fields.get_set, if_neg hk]
    rfl
  | null | bool | num | str | arr => rfl

/-- The checks before the count do not read the block. -/
theorem earlyExit_atBlock (current : Number) :
    earlyExit p graph (atBlock context current) fact = earlyExit p graph context fact := by
  unfold earlyExit blockHashMismatch falseField
  rw [prop_atBlock (by decide), prop_atBlock (by decide), prop_atBlock (by decide), prop_atBlock (by decide)]

theorem final_stays {current current' : Number} (hlt : current.lt current' = true)
    (hfinal : Evaluates p graph (atBlock context current) .FINALIZED) :
    ¬ Evaluates p graph (atBlock context current') .CANDIDATE := by
  intro hcandidate
  obtain ⟨fact, required, counted, block, h, hcount⟩ := (evaluates_iff (.inl rfl)).mp hfinal
  obtain ⟨fact', required', counted', block', h', hcount'⟩ := (evaluates_iff (.inr rfl)).mp hcandidate
  have hfact : some fact' = some fact := Except.ok.inj (h'.found.symm.trans h.found)
  cases hfact
  have hblock : block' = block := Except.ok.inj (h'.block.symm.trans h.block)
  have hrequired : required' = required := by
    have hsame : requiredConfirmations (atBlock context current') = requiredConfirmations (atBlock context current) := by
      unfold requiredConfirmations
      rw [prop_atBlock (by decide), prop_atBlock (by decide)]
    exact Except.ok.inj ((h'.required.symm.trans hsame).trans h.required)
  subst hblock hrequired
  have hshort := hcount'.mpr rfl
  have hnot : ¬ (Number.maxZero (Number.sub counted block')).lt required' = true := fun hc => by cases hcount.mp hc
  cases context with
  | obj fs =>
    have hread : ∀ x : Number, (Json.obj (Fields.set fs "current_block" (.num x))).prop "current_block" = some (.num x) :=
      fun x => (Fields.get_set fs _ _ _).trans (if_pos rfl)
    have hcurrent : counted = current := by
      have hc := h.current
      unfold currentBlock atBlock at hc
      rw [hread] at hc
      exact (Except.ok.inj hc).symm
    have hcurrent' : counted' = current' := by
      have hc := h'.current
      unfold currentBlock atBlock at hc
      rw [hread] at hc
      exact (Except.ok.inj hc).symm
    subst hcurrent hcurrent'
    exact hnot (Number.lt_maxZero_sub hlt hshort)
  | null | bool | num | str | arr =>
    have hsame : counted' = counted := Except.ok.inj (h'.current.symm.trans h.current)
    rw [hsame] at hshort
    exact hnot hshort

section Example

/-- A platform without dates. -/
def timeless : Node.Platform where
  toHost := Realm.Host.ofTable [] [] Realm.Host.no_digests
  lower := id
  upper := id
  nfc := id
  parseDate := fun _ => .nan
  isoDate := fun _ => "-"
  lower_lower := fun _ => rfl
  isoDate_ne_empty := fun _ => by decide

/-- A transaction in block 100. -/
def blockGraph : Json := .obj [("facts", .arr [.obj [("fact_type", .str "EVM_TX"), ("block_number", .str "100")]])]

/-- Twelve confirmations are asked for in words. -/
def wordedContext : Json :=
  .obj [("required_confirmations", .str "twelve"), ("current_block", .num (.int 100))]

theorem worded_finalized : Evaluates timeless (some blockGraph) wordedContext .FINALIZED :=
  (evaluates_iff (.inl rfl)).mpr ⟨.obj [("fact_type", .str "EVM_TX"), ("block_number", .str "100")], .nan, .int 100, .int 100,
    { found := by rfl
      given := nofun
      passed := by rfl
      required := by decide +kernel
      current := by rfl
      block := by decide +kernel },
    by decide +kernel⟩

end Example

end SimpleL1.Evm
