import SimpleL1.Settlement.Intents

/-!
# Which intent a request gets

An intent is registered under the digest of a text, in which the parameters are joined by
colons. A deposit's text has the hour in place of the amount, and no text has the external
recipient. A request that meets an intent under its own id gets that intent as it stands.
-/

namespace SimpleL1.Settlement.IntentResolution

open SimpleL1.Js SimpleL1.Lib SimpleL1.Lib.Steps

/-! ## Requests -/

/-- The calls that ask for an intent. -/
inductive Request where
  | deposit (q : Params) (amount : Option Json)
  | withdrawal (accounts : Fields) (q : Params) (amount external_recipient : Option Json)

namespace Request

def params : Request → Params
  | deposit q _ => q
  | withdrawal _ q _ _ => q

def call : Request → Call
  | deposit q amount => .createDepositIntent q amount
  | withdrawal accounts q amount external_recipient =>
    .createWithdrawalIntent accounts q amount external_recipient

def create (p : Platform) (now : Int) : Request → Registry → Registry × JsM Intent
  | deposit q amount => createDepositIntent p now q amount
  | withdrawal accounts q amount external_recipient =>
    createWithdrawalIntent p now accounts q amount external_recipient

/-- `intentSeed` -/
def seed (now : Int) : Request → JsM String
  | deposit q _ => return (← q.seed) ++ ":" ++ toString (now / 3600000)
  | withdrawal accounts q amount _ => do
    let nonce ← nonceOf accounts q.sl1_address
    return "withdraw:" ++ (← q.seed) ++ ":" ++ (← toStr amount) ++ ":" ++ nonce

/-- The texts between the colons. -/
def texts (now : Int) : Request → JsM (List String)
  | deposit q _ => do
    let sl1_address ← toStr q.sl1_address
    let pubkey ← toStr q.pubkey
    let network ← toStr q.network
    let asset ← toStr q.asset
    return [sl1_address, pubkey, network, asset, toString (now / 3600000)]
  | withdrawal accounts q amount _ => do
    let nonce ← nonceOf accounts q.sl1_address
    let sl1_address ← toStr q.sl1_address
    let pubkey ← toStr q.pubkey
    let network ← toStr q.network
    let asset ← toStr q.asset
    return ["withdraw", sl1_address, pubkey, network, asset, ← toStr amount, nonce]

/-- What is asked for besides the address, the key, the network and the asset. -/
def Terms : Request → IntentResolution.Terms → Prop
  | deposit _ amount, t => ∃ deposit_address, t = .deposit amount deposit_address
  | withdrawal _ _ amount external_recipient, t => t = .withdrawal amount external_recipient

end Request

/-- The intent has the contents that were asked for. -/
def Intent.Answers (intent : Intent) (q : Request) : Prop := intent.params = q.params ∧ q.Terms intent.terms

/-- PENDING, with nothing on record. -/
def Intent.Fresh (intent : Intent) : Prop :=
  intent.state = .PENDING ∧ intent.fulfillment = none ∧ intent.rejection = none ∧ intent.observations = []

variable {p : Platform} {now : Int} {r : Registry} {q : Request} {i : String} {intent : Intent}

/-! ## What a request does -/

/-- A request is refused, gets the intent it meets under its id, or has one registered. -/
inductive Created (p : Platform) (now : Int) (q : Request) (r : Registry) : Registry × JsM Intent → Prop
  | refused (e : Error) : Created p now q r (r, .error e)
  | met {seed : String} {intent : Intent} (hseed : q.seed now = .ok seed)
      (hfind : Assoc.find (intentId p seed) r = some intent) : Created p now q r (r, .ok intent)
  | made {seed : String} {intent : Intent} (hseed : q.seed now = .ok seed)
      (hnone : Assoc.find (intentId p seed) r = none) (hfresh : intent.Fresh) (hanswers : intent.Answers q) :
      Created p now q r (Assoc.insert (intentId p seed) intent r, .ok intent)

theorem newIntent_spec {q : Params} {terms : Terms} (h : newIntent p now i q terms = .ok intent) :
    intent.Fresh ∧ intent.params = q ∧ intent.terms = terms := by
  unfold newIntent at h
  obtain ⟨expires_at, -, h⟩ := bind_eq_ok.mp h
  cases h
  exact ⟨⟨rfl, rfl, rfl, rfl⟩, rfl, rfl⟩

theorem created_deposit (q : Params) (amount : Option Json) :
    Created p now (.deposit q amount) r (createDepositIntent p now q amount r) := by
  unfold createDepositIntent
  cases hseed : q.seed with
  | error e => exact .refused e
  | ok text =>
    have hrequest : (Request.deposit q amount).seed now = .ok (text ++ ":" ++ toString (now / 3600000)) := by
      dsimp only [Request.seed]
      rw [hseed]
      rfl
    dsimp only [bind, Except.bind, pure, Except.pure]
    split
    · rename_i hfind
      exact .met hrequest hfind
    · rename_i hnone
      split
      · rename_i e _
        exact .refused e
      · rename_i hintent
        obtain ⟨pubkey, -, hintent⟩ := bind_eq_ok.mp hintent
        obtain ⟨network, -, hintent⟩ := bind_eq_ok.mp hintent
        obtain ⟨asset, -, hintent⟩ := bind_eq_ok.mp hintent
        obtain ⟨deposit_address, -, hintent⟩ := bind_eq_ok.mp hintent
        obtain ⟨hfresh, hparams, hterms⟩ := newIntent_spec hintent
        exact .made hrequest hnone hfresh ⟨hparams, deposit_address, hterms⟩

theorem created_withdrawal (accounts : Fields) (q : Params) (amount external_recipient : Option Json) :
    Created p now (.withdrawal accounts q amount external_recipient) r
      (createWithdrawalIntent p now accounts q amount external_recipient r) := by
  unfold createWithdrawalIntent
  dsimp only
  split
  · rename_i e _
    exact .refused e
  · rename_i hmade
    obtain ⟨nonce, hnonce, hmade⟩ := bind_eq_ok.mp hmade
    obtain ⟨text, htext, hmade⟩ := bind_eq_ok.mp hmade
    obtain ⟨spelled, hspelled, hmade⟩ := bind_eq_ok.mp hmade
    cases hmade
    have hrequest : (Request.withdrawal accounts q amount external_recipient).seed now =
        .ok ("withdraw:" ++ text ++ ":" ++ spelled ++ ":" ++ nonce) := by
      dsimp only [Request.seed]
      rw [hnonce, htext, hspelled]
      rfl
    split
    · rename_i hfind
      exact .met hrequest hfind
    · rename_i hnone
      split
      · rename_i e _
        exact .refused e
      · rename_i hintent
        obtain ⟨hfresh, hparams, hterms⟩ := newIntent_spec hintent
        exact .made hrequest hnone hfresh ⟨hparams, hterms⟩

theorem created (p : Platform) (now : Int) (q : Request) (r : Registry) :
    Created p now q r (q.create p now r) := by
  cases q with
  | deposit q amount => exact created_deposit q amount
  | withdrawal accounts q amount external_recipient =>
    exact created_withdrawal accounts q amount external_recipient

/-! ## What a text says -/

theorem intercalate_injective {ts us : List String} (hts : ∀ t ∈ ts, ':' ∉ t.toList)
    (hus : ∀ u ∈ us, ':' ∉ u.toList) (hts0 : ts ≠ []) (hus0 : us ≠ [])
    (h : ":".intercalate ts = ":".intercalate us) : ts = us := by
  have hchars := congrArg String.toList h
  rw [String.toList_intercalate, String.toList_intercalate] at hchars
  have hsplit := congrArg (List.splitOn ':') hchars
  have hread : ∀ xs : List String, (∀ x ∈ xs, ':' ∉ x.toList) → xs ≠ [] →
      ([':'].intercalate (xs.map String.toList)).splitOn ':' = xs.map String.toList := by
    intro xs hxs hne
    refine List.splitOn_intercalate ':' ?_ (by simpa using hne)
    intro cs hcs
    obtain ⟨x, hx, rfl⟩ := List.mem_map.mp hcs
    exact hxs x hx
  rw [show ":".toList = [':'] from rfl, hread ts hts hts0, hread us hus hus0] at hsplit
  exact List.map_injective_iff.mpr (fun _ _ h => String.toList_injective h) hsplit

/-- No text of the request has a colon of its own. -/
def Request.ColonFree (q : Request) (now : Int) : Prop :=
  ∀ ts, q.texts now = .ok ts → ∀ t ∈ ts, ':' ∉ t.toList

theorem Request.seed_eq_ok {seed : String} (h : q.seed now = .ok seed) :
    ∃ ts, q.texts now = .ok ts ∧ ts ≠ [] ∧ seed = ":".intercalate ts := by
  cases q with
  | deposit q amount =>
    obtain ⟨joined, hjoined, h⟩ := bind_eq_ok.mp h
    cases h
    unfold Params.seed at hjoined
    obtain ⟨sl1_address, hsl1, hjoined⟩ := bind_eq_ok.mp hjoined
    obtain ⟨pubkey, hpubkey, hjoined⟩ := bind_eq_ok.mp hjoined
    obtain ⟨network, hnetwork, hjoined⟩ := bind_eq_ok.mp hjoined
    obtain ⟨asset, hasset, hjoined⟩ := bind_eq_ok.mp hjoined
    cases hjoined
    refine ⟨[sl1_address, pubkey, network, asset, toString (now / 3600000)], ?_, by simp, ?_⟩
    · dsimp only [Request.texts]
      rw [hsl1, hpubkey, hnetwork, hasset]
      rfl
    · apply String.toList_injective
      simp [String.toList_intercalate, List.intercalate]
  | withdrawal accounts q amount external_recipient =>
    obtain ⟨nonce, hnonce, h⟩ := bind_eq_ok.mp h
    obtain ⟨joined, hjoined, h⟩ := bind_eq_ok.mp h
    obtain ⟨spelled, hspelled, h⟩ := bind_eq_ok.mp h
    cases h
    unfold Params.seed at hjoined
    obtain ⟨sl1_address, hsl1, hjoined⟩ := bind_eq_ok.mp hjoined
    obtain ⟨pubkey, hpubkey, hjoined⟩ := bind_eq_ok.mp hjoined
    obtain ⟨network, hnetwork, hjoined⟩ := bind_eq_ok.mp hjoined
    obtain ⟨asset, hasset, hjoined⟩ := bind_eq_ok.mp hjoined
    cases hjoined
    refine ⟨["withdraw", sl1_address, pubkey, network, asset, spelled, nonce], ?_, by simp, ?_⟩
    · dsimp only [Request.texts]
      rw [hnonce, hsl1, hpubkey, hnetwork, hasset, hspelled]
      rfl
    · apply String.toList_injective
      simp [String.toList_intercalate, List.intercalate]

/-- Two requests of one text, neither with a colon of its own, have the same texts. -/
theorem texts_eq_of_seed {q' : Request} {now' : Int} {seed : String} (h : q.seed now = .ok seed)
    (h' : q'.seed now' = .ok seed) (hfree : q.ColonFree now) (hfree' : q'.ColonFree now') :
    q'.texts now' = q.texts now := by
  obtain ⟨ts, hts, hne, hjoin⟩ := Request.seed_eq_ok h
  obtain ⟨us, hus, hne', hjoin'⟩ := Request.seed_eq_ok h'
  rw [hts, hus, intercalate_injective (hfree' us hus) (hfree ts hts) hne' hne (hjoin'.symm.trans hjoin)]

/-! ## What the other calls leave -/

/-- Every intent was there before, with the same contents. -/
def SameContents (r r' : Registry) : Prop :=
  ∀ j intent', Assoc.find j r' = some intent' →
    ∃ intent, Assoc.find j r = some intent ∧ intent'.params = intent.params ∧ intent'.terms = intent.terms

theorem SameContents.refl (r : Registry) : SameContents r r := fun _ intent h => ⟨intent, h, rfl, rfl⟩

theorem sameContents_insert {old : Intent} (hold : Assoc.find i r = some old)
    (hparams : intent.params = old.params) (hterms : intent.terms = old.terms) :
    SameContents r (Assoc.insert i intent r) := by
  intro j intent' hfind
  rw [Assoc.find_insert] at hfind
  split at hfind
  · rename_i hij
    subst hij
    cases hfind
    exact ⟨old, hold, hparams, hterms⟩
  · exact ⟨intent', hfind, rfl, rfl⟩

theorem sameContents_observe {event : Option Json} : SameContents r (observe p now i event r).1 := by
  unfold observe
  split
  · exact .refl r
  · rename_i old hold
    dsimp only
    split
    · exact .refl r
    · exact sameContents_insert hold rfl rfl

theorem sameContents_fulfill {proof : Option Json} : SameContents r (fulfill p now i proof r).1 := by
  unfold fulfill
  split
  · exact .refl r
  · rename_i old hold
    split
    · exact .refl r
    · split
      · exact .refl r
      · split
        · exact sameContents_insert hold rfl rfl
        · split
          · exact sameContents_insert hold rfl rfl
          · exact sameContents_insert hold rfl rfl

theorem sameContents_reject {reason evidence : Option Json} :
    SameContents r (reject p now i reason evidence r).1 := by
  unfold reject
  split
  · exact .refl r
  · rename_i old hold
    split
    · exact .refl r
    · exact sameContents_insert hold rfl rfl

theorem sameContents_expireStale : SameContents r (expireStale p now r) := by
  intro j intent' hfind
  rw [find_expireStale] at hfind
  obtain ⟨intent, hold, rfl⟩ := Option.map_eq_some_iff.mp hfind
  refine ⟨intent, hold, ?_⟩
  unfold expire
  split <;> exact ⟨rfl, rfl⟩

/-! ## Where an intent comes from -/

/-- The request was made at its time. -/
def Made (calls : List (Int × Call)) (a : Int × Request) : Prop := (a.1, a.2.call) ∈ calls

/-- Every intent has the contents of a request of the run, and stands under its id. -/
def Traced (p : Platform) (calls : List (Int × Call)) (r : Registry) : Prop :=
  ∀ i intent, Assoc.find i r = some intent → ∃ a seed, Made calls a ∧ a.2.seed a.1 = .ok seed ∧
    i = intentId p seed ∧ intent.Answers a.2

theorem Traced.mono {calls : List (Int × Call)} (h : Traced p calls r) (c : Int × Call) :
    Traced p (calls ++ [c]) r := by
  intro i intent hfind
  obtain ⟨a, seed, hmade, hrest⟩ := h i intent hfind
  exact ⟨a, seed, List.mem_append_left _ hmade, hrest⟩

theorem Traced.contents {calls : List (Int × Call)} {r' : Registry} (h : Traced p calls r)
    (hsame : SameContents r r') : Traced p calls r' := by
  intro i intent' hfind
  obtain ⟨intent, hold, hparams, hterms⟩ := hsame i intent' hfind
  obtain ⟨a, seed, hmade, hseed, hid, hanswers⟩ := h i intent hold
  refine ⟨a, seed, hmade, hseed, hid, ?_⟩
  unfold Intent.Answers
  rwa [hparams, hterms]

theorem Traced.create {calls : List (Int × Call)} (h : Traced p calls r) (now : Int) (q : Request) :
    Traced p (calls ++ [(now, q.call)]) (q.create p now r).1 := by
  have hcreated := created p now q r
  cases hout : q.create p now r with
  | mk r' result =>
    rw [hout] at hcreated
    cases hcreated with
    | refused e => exact h.mono _
    | met hseed hfind => exact h.mono _
    | @made seed intent hseed hnone hfresh hanswers =>
      intro i old hfind
      rw [Assoc.find_insert] at hfind
      split at hfind
      · rename_i hid
        cases hfind
        exact ⟨(now, q), seed, List.mem_append_right _ (List.mem_singleton_self _), hseed, hid.symm, hanswers⟩
      · exact h.mono _ i old hfind

theorem Traced.step {calls : List (Int × Call)} (h : Traced p calls r) (c : Int × Call) :
    Traced p (calls ++ [c]) (step p r c) := by
  obtain ⟨now, call⟩ := c
  cases call with
  | createDepositIntent q amount => exact h.create now (.deposit q amount)
  | createWithdrawalIntent accounts q amount external_recipient =>
    exact h.create now (.withdrawal accounts q amount external_recipient)
  | observe intent_id settlementEvent => exact (h.mono _).contents sameContents_observe
  | fulfill intent_id proof => exact (h.mono _).contents sameContents_fulfill
  | reject intent_id reason evidence => exact (h.mono _).contents sameContents_reject
  | expireStale => exact (h.mono _).contents sameContents_expireStale

theorem traced_run (p : Platform) (calls : List (Int × Call)) : Traced p calls (calls.foldl (step p) []) := by
  induction calls using List.reverseRecOn with
  | nil => exact fun i intent hfind => nomatch hfind
  | append_singleton calls c ih =>
    rw [List.foldl_append, List.foldl_cons, List.foldl_nil]
    exact ih.step c

/-! ## What a request gets -/

/-- No two texts of the run have one id. -/
def Separates (p : Platform) (calls : List (Int × Call)) : Prop :=
  ∀ a b s t, Made calls a → Made calls b → a.2.seed a.1 = .ok s → b.2.seed b.1 = .ok t →
    intentId p s = intentId p t → s = t

/-- The intent is a new one, open and with what was asked for, or the one that an earlier request
of the same text was registered under, as it stands. -/
inductive Gets (p : Platform) (calls : List (Int × Call)) (now : Int) (q : Request) (r : Registry)
    (intent : Intent) : Registry → Prop
  | new {seed : String} (hseed : q.seed now = .ok seed) (hnone : Assoc.find (intentId p seed) r = none)
      (hfresh : intent.Fresh) (hanswers : intent.Answers q) :
      Gets p calls now q r intent (Assoc.insert (intentId p seed) intent r)
  | known {seed : String} {a : Int × Request} (hseed : q.seed now = .ok seed)
      (hfind : Assoc.find (intentId p seed) r = some intent) (hmade : Made calls a)
      (hsame : a.2.seed a.1 = .ok seed) (hanswers : intent.Answers a.2)
      (htexts : a.2.ColonFree a.1 → q.ColonFree now → a.2.texts a.1 = q.texts now) :
      Gets p calls now q r intent r

theorem request_gets (p : Platform) (calls : List (Int × Call)) (now : Int) (q : Request) (intent : Intent)
    (hfree : Separates p (calls ++ [(now, q.call)]))
    (h : (q.create p now (calls.foldl (step p) [])).2 = .ok intent) :
    Gets p calls now q (calls.foldl (step p) []) intent (q.create p now (calls.foldl (step p) [])).1 := by
  have hcreated := created p now q (calls.foldl (step p) [])
  cases hout : q.create p now (calls.foldl (step p) []) with
  | mk r' result =>
    rw [hout] at hcreated h
    cases hcreated with
    | refused e => cases h
    | @met seed intent hseed hfind =>
      cases h
      obtain ⟨a, text, hmade, hsame, hid, hanswers⟩ := traced_run p calls _ _ hfind
      obtain rfl : seed = text := hfree (now, q) a seed text
        (List.mem_append_right _ (List.mem_singleton_self _)) (List.mem_append_left _ hmade) hseed hsame hid
      exact .known hseed hfind hmade hsame hanswers fun hcolon hcolon' =>
        texts_eq_of_seed hseed hsame hcolon' hcolon
    | made hseed hnone hfresh hanswers =>
      cases h
      exact .new hseed hnone hfresh hanswers

section Example

/-- The deposit once more, now of 5. -/
def depositOfFive : Request :=
  .deposit ⟨some (.str "sl1e_alice"), some (.str "key"), some (.str "base"), some (.str "USDC")⟩
    (some (.str "5"))

def rejection : Call := .reject "~sl1e_alice:key:base:USDC:0" none none

theorem Separates.subset {calls calls' : List (Int × Call)} (h : Separates p calls') (hsub : calls ⊆ calls') :
    Separates p calls := fun a b s t ha hb => h a b s t (hsub ha) (hsub hb)

theorem made_deposit {a : Int × Request} {seed : String}
    (h : Made [(0, depositOf "USDC"), (0, rejection), (0, depositOfFive.call)] a)
    (hseed : a.2.seed a.1 = .ok seed) : seed = "sl1e_alice:key:base:USDC:0" := by
  obtain ⟨now, q⟩ := a
  cases q with
  | deposit q amount =>
    simp only [Made, depositOf, rejection, depositOfFive, Request.call, List.mem_cons, Prod.mk.injEq,
      Call.createDepositIntent.injEq, reduceCtorEq, and_false, false_or, List.not_mem_nil, or_false] at h
    obtain ⟨rfl, rfl, -⟩ | ⟨rfl, rfl, -⟩ := h
    · exact (Except.ok.inj hseed).symm
    · exact (Except.ok.inj hseed).symm
  | withdrawal accounts q amount external_recipient =>
    simp [Made, depositOf, rejection, depositOfFive, Request.call] at h

theorem separates_deposit :
    Separates plain [(0, depositOf "USDC"), (0, rejection), (0, depositOfFive.call)] := by
  intro a b s t ha hb hs ht _
  rw [made_deposit ha hs, made_deposit hb ht]

theorem deposit_gets_known :
    ∃ intent, Gets plain [(0, depositOf "USDC")] 0 depositOfFive
      ([(0, depositOf "USDC")].foldl (step plain) []) intent
      (depositOfFive.create plain 0 ([(0, depositOf "USDC")].foldl (step plain) [])).1 :=
  ⟨_, request_gets plain [(0, depositOf "USDC")] 0 depositOfFive _
    (separates_deposit.subset (by simp)) rfl⟩

/-- `P` of every request and the intent it gets, in any run. -/
def EveryRequest (P : Request → Intent → Prop) : Prop :=
  ∀ (p : Platform) (calls : List (Int × Call)) (now : Int) (q : Request) (intent : Intent),
    Separates p (calls ++ [(now, q.call)]) →
    (q.create p now (calls.foldl (step p) [])).2 = .ok intent → P q intent

/-- Within the hour a deposit of 5 gets the intent without an amount, also when it is rejected. -/
theorem deposit_gets_another :
    ¬ EveryRequest (fun q intent => intent.Answers q) ∧
      ¬ EveryRequest fun _ intent => intent.state ≠ .REJECTED := by
  constructor
  · intro h
    obtain ⟨-, deposit_address, hterms⟩ :=
      h plain [(0, depositOf "USDC")] 0 depositOfFive _ (separates_deposit.subset (by simp)) rfl
    cases hterms
  · intro h
    exact h plain [(0, depositOf "USDC"), (0, rejection)] 0 depositOfFive _
      (separates_deposit.subset (by simp)) rfl rfl

end Example

end SimpleL1.Settlement.IntentResolution
