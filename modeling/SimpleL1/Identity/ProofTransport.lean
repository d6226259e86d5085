import SimpleL1.Identity.ProofEnvelope
import Mathlib.Data.List.TakeWhile

/-!
# Proof envelopes at the relying party

The digest of an envelope covers everything but its signature, and no field of an envelope can be
`undefined`: the text that is authenticated arrives. What the verifier asks beyond the digest is
what an envelope can fail: no credential field at any depth, and an expiry other than the epoch.
An application that expects the intent it asked for, and not the one it reads in the envelope, has
it normalised once where the node's intent is normalised twice, and `null` reads as a text then.
-/

namespace SimpleL1.Identity

open SimpleL1.Js
open Node (bodyField stableStringify)

variable {p : Node.Platform} {hmac : String → String → String}

theorem reason_eq_nil {c : Bool} {code : String} : reason c code = [] ↔ c = false := by
  cases c <;> simp [reason]

/-! ## Credential fields -/

mutual

theorem leaks_nil_of_nil : ∀ {parts : List String} (parts' : List String) {v : Json},
    leaks parts v = [] → leaks parts' v = []
  | _, _, .arr _, h => leaksItems_nil_of_nil _ h
  | _, _, .obj _, h => leaksFields_nil_of_nil _ h
  | _, _, .null, _ | _, _, .bool _, _ | _, _, .num _, _ | _, _, .str _, _ => rfl

theorem leaksItems_nil_of_nil : ∀ {parts : List String} (parts' : List String) {i : Nat} {xs : List Json},
    leaksItems parts i xs = [] → leaksItems parts' i xs = []
  | _, _, _, [], _ => rfl
  | _, _, _, _ :: _, h => by
    obtain ⟨hx, hxs⟩ := List.append_eq_nil_iff.mp h
    exact List.append_eq_nil_iff.mpr ⟨leaks_nil_of_nil _ hx, leaksItems_nil_of_nil _ hxs⟩

theorem leaksFields_nil_of_nil : ∀ {parts : List String} (parts' : List String) {fs : List (String × Json)},
    leaksFields parts fs = [] → leaksFields parts' fs = []
  | _, _, [], _ => rfl
  | _, _, (k, v) :: fs, h => by
    rw [leaksFields, List.append_eq_nil_iff, List.append_eq_nil_iff, reason_eq_nil] at h ⊢
    exact ⟨⟨h.1.1, leaks_nil_of_nil _ h.1.2⟩, leaksFields_nil_of_nil _ h.2⟩

end

/-- No credential field anywhere in it. -/
def Plain (v : Json) : Prop := (assertNoCredentialLeak v).ok = true

theorem leaks_eq_nil_iff {parts : List String} {v : Json} : leaks parts v = [] ↔ Plain v := by
  unfold Plain assertNoCredentialLeak
  rw [List.isEmpty_iff]
  exact ⟨leaks_nil_of_nil [], leaks_nil_of_nil parts⟩

mutual

/-- The names are all sent. -/
theorem leaks_written : ∀ (parts : List String) (v : Json), leaks parts v.written = leaks parts v
  | _, .null | _, .bool _ | _, .str _ => rfl
  | _, .num n => by unfold Json.written; split <;> rfl
  | parts, .arr xs => leaksItems_written parts 0 xs
  | parts, .obj fs => leaksFields_written parts fs

theorem leaksItems_written : ∀ (parts : List String) (i : Nat) (xs : List Json),
    leaksItems parts i (Json.writtenList xs) = leaksItems parts i xs
  | _, _, [] => rfl
  | parts, i, x :: xs => by
    rw [Json.writtenList, leaksItems, leaks_written _ x, leaksItems_written parts (i + 1) xs, leaksItems]

theorem leaksFields_written : ∀ (parts : List String) (fs : List (String × Json)),
    leaksFields parts (Json.writtenFields fs) = leaksFields parts fs
  | _, [] => rfl
  | parts, (k, v) :: fs => by
    rw [Json.writtenFields, leaksFields, leaks_written _ v, leaksFields_written parts fs, leaksFields]

end

theorem leaksFields_append (parts : List String) (fs gs : Fields) :
    leaksFields parts (fs ++ gs) = leaksFields parts fs ++ leaksFields parts gs := by
  induction fs with
  | nil => rfl
  | cons f fs ih => rw [List.cons_append, leaksFields, leaksFields, ih, List.append_assoc _ (leaksFields parts fs)]

theorem leaksFields_eq_nil_iff {parts : List String} {fs : Fields} :
    leaksFields parts fs = [] ↔ ∀ f ∈ fs, f.1 ∉ forbiddenCredentialFields ∧ Plain f.2 := by
  induction fs with
  | nil => simp [leaksFields]
  | cons f fs ih =>
    rw [leaksFields, List.append_eq_nil_iff, List.append_eq_nil_iff, reason_eq_nil, decide_eq_false_iff_not,
      leaks_eq_nil_iff, ih, List.forall_mem_cons]

theorem plain_obj {fs : Fields} :
    Plain (.obj fs) ↔ ∀ f ∈ fs, f.1 ∉ forbiddenCredentialFields ∧ Plain f.2 :=
  (@leaks_eq_nil_iff [] (.obj fs)).symm.trans leaksFields_eq_nil_iff

theorem plain_str (s : String) : Plain (.str s) := rfl

theorem plain_text (s : Option String) : Plain (s.elim .null .str) := by
  cases s <;> rfl

/-! ## Acceptance -/

def Accepts (p : Node.Platform) (hmac : String → String → String) (envelope : Json) (options : VerifyOptions) :
    Prop :=
  ∃ verdict, verifyIdentityProofEnvelope p hmac envelope options = .ok verdict ∧ verdict.ok = true

/-- An envelope passes all the checks. -/
structure Passes (p : Node.Platform) (hmac : String → String → String) (envelope : Json) (options : VerifyOptions) :
    Prop where
  plain : Plain envelope
  version : strictEq (envelope.prop "schema_version") (some (.str IDENTITY_PROOF_ENVELOPE_VERSION)) = true
  shape : options.validateEnvelope.any (fun validate => validate envelope) = true
  client : mismatches (envelope.prop "client_id") options.expectedClientId = .ok false
  redirect : mismatches (envelope.prop "redirect_uri") options.expectedRedirectUri = .ok false
  intent : intentMatches (envelope.prop "intent") options.expectedIntent = .ok true
  fresh : ∃ text, toStr (or (envelope.prop "expires_at") (some (.str ""))) = .ok text ∧
    (p.parseDate text).truthy = true ∧ Number.le (p.parseDate text) (Node.timeClip options.now) = false
  signature : ∃ secret value, trustedIssuerSecret envelope options.issuerTrust = .ok (some secret) ∧
    signIdentityProofEnvelope hmac (some envelope) (some secret) = .ok value ∧ value ≠ "" ∧
    bodyField (envelope.prop "signature") "value" = some (.str value)

theorem signed_iff {v : Option Json} {value : String} :
    (!(truthy v) || !(strictEq v (some (.str value)))) = false ↔ value ≠ "" ∧ v = some (.str value) := by
  rw [Bool.or_eq_false_iff, Bool.not_eq_false', Bool.not_eq_false', strictEq_str_iff]
  constructor
  · rintro ⟨htruthy, rfl⟩
    exact ⟨by simpa [truthy, Json.truthy] using htruthy, rfl⟩
  · rintro ⟨hne, rfl⟩
    exact ⟨by simpa [truthy, Json.truthy] using hne, rfl⟩

theorem accepts_iff {envelope : Json} {options : VerifyOptions} :
    Accepts p hmac envelope options ↔ Passes p hmac envelope options := by
  have hreason : (reason (!(assertNoCredentialLeak envelope).paths.isEmpty) "NO_RAW_CREDENTIAL_LEAK") =
      (assertNoCredentialLeak envelope).reason_codes := rfl
  unfold Accepts verifyIdentityProofEnvelope
  dsimp only
  constructor
  · rintro ⟨verdict, hverdict, hok⟩
    obtain ⟨client, hclient, hverdict⟩ := bind_eq_ok.mp hverdict
    obtain ⟨redirect, hredirect, hverdict⟩ := bind_eq_ok.mp hverdict
    obtain ⟨intent, hintent, hverdict⟩ := bind_eq_ok.mp hverdict
    obtain ⟨text, htext, hverdict⟩ := bind_eq_ok.mp hverdict
    obtain ⟨secret, hsecret, hverdict⟩ := bind_eq_ok.mp hverdict
    obtain ⟨secretCodes, hcodes, hverdict⟩ := bind_eq_ok.mp hverdict
    cases hverdict
    have hnil := List.isEmpty_iff.mp hok
    rw [← hreason] at hnil
    simp only [List.append_eq_nil_iff, reason_eq_nil, Bool.not_eq_false', Bool.or_eq_false_iff] at hnil
    obtain ⟨⟨⟨⟨⟨⟨⟨hplain, hversion⟩, hshape⟩, rfl⟩, rfl⟩, rfl⟩, hdated, hfresh⟩, rfl⟩ := hnil
    cases secret with
    | none => cases hcodes
    | some secret =>
      obtain ⟨value, hvalue, hcodes⟩ := bind_eq_ok.mp hcodes
      obtain ⟨hne, hsigned⟩ := signed_iff.mp (reason_eq_nil.mp (Except.ok.inj hcodes))
      exact ⟨hplain, hversion, hshape, hclient, hredirect, hintent, ⟨text, htext, hdated, hfresh⟩,
        ⟨secret, value, hsecret, hvalue, hne, hsigned⟩⟩
  · intro h
    obtain ⟨text, htext, hdated, hfresh⟩ := h.fresh
    obtain ⟨secret, value, hsecret, hvalue, hne, hsigned⟩ := h.signature
    have hcodes := (@reason_eq_nil _ "PROOF_VERIFICATION_FAILED").mpr (signed_iff.mpr ⟨hne, hsigned⟩)
    have hsecretCodes : signatureReasons hmac envelope (some secret) = .ok [] := by
      show (signIdentityProofEnvelope hmac (some envelope) (some secret) >>= fun expectedSignature => _) = _
      rw [hvalue]
      exact congrArg Except.ok hcodes
    rw [h.client, h.redirect, h.intent, htext, hsecret]
    simp only [ok_bind]
    rw [hsecretCodes]
    refine ⟨_, rfl, List.isEmpty_iff.mpr ?_⟩
    rw [← hreason]
    simp only [List.append_eq_nil_iff, reason_eq_nil, Bool.not_eq_false', Bool.or_eq_false_iff]
    exact ⟨⟨⟨⟨⟨⟨⟨h.plain, h.version⟩, h.shape⟩, trivial⟩, trivial⟩, trivial⟩, hdated, hfresh⟩, trivial⟩

/-- The application trusts the issuer's key with the secret. -/
def Trusted (trust : Fields) (issuerId keyId secret : String) : Prop :=
  ∃ (issuer : Fields) (s : Json), trust.get issuerId = some (.obj issuer) ∧ issuer.get "key_id" = some (.str keyId) ∧
    issuer.get "secret" = some s ∧ s.truthy = true ∧ s.toStr = .ok secret

theorem secretText_of_truthy {v : Json} (h : v.truthy = true) : secretText (some v) = v.toStr := by
  unfold secretText Js.or
  rw [if_pos (show truthy (some v) = true from h)]
  rfl

theorem otherKey_self (keyId : String) : otherKey (some (.str keyId)) (some (.str keyId)) = .ok false := by
  unfold otherKey
  split
  · exact congrArg Except.ok (bne_self_eq_false keyId)
  · rfl

theorem or_self_str {s : String} : or (some (Json.str s)) (some (.str s)) = some (.str s) := by
  unfold Js.or
  split <;> rfl

theorem trustedIssuerSecret_of_trusted {envelope : Json} {trust : Fields} {issuerId keyId secret : String}
    (htrusted : Trusted trust issuerId keyId secret)
    (hissuer : bodyField (envelope.prop "issuer") "issuer_id" = some (.str issuerId))
    (hkey : or (bodyField (envelope.prop "signature") "key_id") (bodyField (envelope.prop "issuer") "key_id") =
      some (.str keyId)) :
    ∃ s, trustedIssuerSecret envelope trust = .ok (some s) ∧ secretText (some s) = .ok secret := by
  obtain ⟨issuer, s, hget, hkeyId, hs, htruthy, hsecret⟩ := htrusted
  refine ⟨s, ?_, (secretText_of_truthy htruthy).trans hsecret⟩
  have hfilter : (some (Json.obj issuer)).filter Json.truthy = some (.obj issuer) := rfl
  have hsome : (some s).filter Json.truthy = some s := Option.filter_eq_some_iff.mpr ⟨rfl, htruthy⟩
  unfold trustedIssuerSecret
  rw [hissuer, hkey]
  simp only [toStr_str, ok_bind, hget, hfilter]
  show (otherKey (issuer.get "key_id") (some (.str keyId)) >>= fun other =>
    .ok (if other then none else (issuer.get "secret").filter Json.truthy)) = _
  rw [hkeyId, hs, hsome, otherKey_self]
  rfl

/-! ## Intents, normalised twice -/

theorem textOrNull_eq_some {v : Option Json} {t : String} (h : textOrNull v = .ok (some t)) :
    ∃ v', v = some v' ∧ v'.toStr = .ok t := by
  unfold textOrNull at h
  split at h
  · cases h
  · cases h
  · next v' _ =>
    obtain ⟨t', ht', heq⟩ := map_eq_ok.mp h
    cases heq
    exact ⟨v', rfl, ht'⟩

theorem Intent.value_inj {a b : Intent} (h : stableStringify a.value = stableStringify b.value) : a = b := by
  have hsame := Json.canonText_eq_iff_written.mp (String.ofList_inj.mp h)
  have hread : ∀ k, ((a.value.prop k).map Json.written).map Json.canon =
      ((b.value.prop k).map Json.written).map Json.canon := by
    intro k
    rw [← Json.prop_written, ← Json.prop_written, ← Json.prop_canon, ← Json.prop_canon, hsame]
  have htext : ∀ {s t : Option String}, some ((s.elim Json.null .str).written.canon) =
      some ((t.elim Json.null .str).written.canon) → s = t := by
    intro s t hst
    cases s <;> cases t <;> simp_all [Json.written, Json.canon]
  have htype : some a.type = some b.type := htext (congrArg some (Option.some.inj (hread "type")))
  have hresource : a.resource = b.resource := htext (hread "resource")
  have hnonce : a.nonce = b.nonce := htext (hread "nonce")
  obtain ⟨type, resource, nonce⟩ := a
  cases htype
  exact congrArg₂ (Intent.mk b.type) hresource hnonce

/-- What an intent's field reads as, once it is a field of an envelope. -/
def reread : Option String → Option String
  | none => some "null"
  | some "" => none
  | some s => some s

theorem reread_eq_self {s : Option String} : reread s = s ↔ ∃ t, s = some t ∧ t ≠ "" := by
  unfold reread
  split <;> simp_all

theorem textOrNull_reread (s : Option String) : textOrNull (some (s.elim .null .str)) = .ok (reread s) := by
  cases s with
  | none => rfl
  | some s =>
    by_cases hs : s = ""
    · rw [hs]
      rfl
    · simp [textOrNull, reread, hs, Json.toStr]

/-- The text `String(v)` of a value that is there, where it is not empty. -/
def HasText (v : Option Json) : Prop := ∃ v' t, v = some v' ∧ v'.toStr = .ok t ∧ t ≠ ""

theorem hasText_iff {v : Option Json} {s : Option String} (h : textOrNull v = .ok s) :
    HasText v ↔ reread s = s := by
  rw [reread_eq_self]
  constructor
  · rintro ⟨v', t, rfl, ht, hne⟩
    refine ⟨t, ?_, hne⟩
    unfold textOrNull at h
    split at h
    · next heq => cases heq
    · next heq =>
      cases heq
      cases ht
      exact absurd rfl hne
    · next heq =>
      cases heq
      rw [ht] at h
      exact (Except.ok.inj h).symm
  · rintro ⟨t, rfl, hne⟩
    obtain ⟨v', rfl, ht⟩ := textOrNull_eq_some h
    exact ⟨v', t, rfl, ht, hne⟩

def loginMode : Option Json := some (.str "login")

theorem normalizeIntent_value (intent : Intent) : normalizeIntent (some intent.value) loginMode =
    .ok ⟨if intent.type = "" then "sl1e.login" else trim intent.type, reread intent.resource, reread intent.nonce⟩ := by
  have htype : intentType intent.value loginMode =
      .ok (if intent.type = "" then "sl1e.login" else trim intent.type) := by
    have hprop : intent.value.prop "type" = some (.str intent.type) := rfl
    unfold intentType
    rw [hprop]
    by_cases hempty : intent.type = ""
    · rw [hempty]
      decide +kernel
    · rw [if_pos (by simpa [truthy, Json.truthy] using hempty), if_neg hempty]
      rfl
  have hfields : intentFields (some intent.value) = intent.value := rfl
  have hresource := textOrNull_reread intent.resource
  have hnonce := textOrNull_reread intent.nonce
  unfold normalizeIntent
  rw [if_neg (by simp [intentName, Intent.value])]
  dsimp only
  rw [hfields, htype]
  show (textOrNull (some (intent.resource.elim .null .str)) >>= fun resource =>
    textOrNull (some (intent.nonce.elim .null .str)) >>= fun nonce => _) = _
  rw [hresource, hnonce]
  rfl

theorem trim_sl1e_ne_empty (m : String) : trim ("sl1e." ++ m) ≠ "" := by
  intro h
  have hchars : trimChars ("sl1e." ++ m).toList = [] := String.ofList_inj.mp (h : trim ("sl1e." ++ m) = String.ofList [])
  unfold trimChars at hchars
  have hcons : ("sl1e." ++ m).toList = 's' :: ("l1e.".toList ++ m.toList) := by
    rw [String.toList_append]
    rfl
  have hself : ("sl1e." ++ m).toList.dropWhile isWhite = ("sl1e." ++ m).toList := by
    refine dropWhile_eq_self fun a ha => ?_
    rw [hcons] at ha
    cases ha
    decide
  have hwhite := List.dropWhile_eq_nil_iff.mp (List.reverse_eq_nil_iff.mp hchars) 's' (by
    rw [List.mem_reverse, hself, hcons]
    exact List.mem_cons_self)
  exact absurd hwhite (by decide)

/-- The type is a text that is not blank, or it is left to the mode and the mode is the login. -/
def TypeRestated (type mode : Option Json) : Prop :=
  if truthy type then ∃ t, toStr type = .ok t ∧ trim t ≠ ""
  else ∃ m, toStr (or mode loginMode) = .ok m ∧ trim ("sl1e." ++ m) = "sl1e.login"

/-- Nothing was asked for, or the intent names a resource and a nonce, and its type. -/
def Restated (asked mode : Option Json) : Prop :=
  truthy asked = true → HasText ((intentFields asked).prop "resource") ∧
    HasText ((intentFields asked).prop "nonce") ∧ TypeRestated ((intentFields asked).prop "type") mode

theorem intentType_login {input : Json} {mode : Option Json} {type : String} (h : intentType input mode = .ok type) :
    ∃ type', intentType input loginMode = .ok type' ∧
      ((if type = "" then "sl1e.login" else trim type) = type' ↔ TypeRestated (input.prop "type") mode) := by
  unfold intentType at h ⊢
  unfold TypeRestated
  by_cases htype : truthy (input.prop "type") = true
  · rw [if_pos htype] at h ⊢
    obtain ⟨t, ht, rfl⟩ := map_eq_ok.mp h
    refine ⟨trim t, h, ?_⟩
    rw [if_pos htype, trim_trim, ht]
    by_cases hempty : trim t = ""
    · rw [hempty]
      simpa using hempty
    · simp [hempty]
  · rw [if_neg htype] at h ⊢
    obtain ⟨m, hm, h⟩ := bind_eq_ok.mp h
    cases h
    refine ⟨"sl1e.login", by decide +kernel, ?_⟩
    rw [if_neg htype, if_neg (trim_sl1e_ne_empty m), trim_trim]
    constructor
    · intro heq
      exact ⟨m, hm, heq⟩
    · rintro ⟨m', hm', heq⟩
      have hsame : Except.ok m = Except.ok m' := hm.symm.trans hm'
      cases hsame
      exact heq

/-- An application that expects what it asked for finds it where the intent reads the same twice. -/
theorem intentMatches_asked_iff {asked mode : Option Json} {intent : Intent}
    (h : normalizeIntent asked mode = .ok intent) :
    intentMatches (some intent.value) asked = .ok true ↔ Restated asked mode := by
  unfold intentMatches Restated
  by_cases hasked : truthy asked = true
  · have hmatch : ∀ {expected : Intent}, normalizeIntent asked loginMode = .ok expected →
        ((normalizeIntent (some intent.value) loginMode >>= fun actual =>
          normalizeIntent asked loginMode >>= fun expected =>
            .ok (decide (stableStringify actual.value = stableStringify expected.value)) : JsM Bool) = .ok true ↔
          (if intent.type = "" then "sl1e.login" else trim intent.type) = expected.type ∧
            reread intent.resource = expected.resource ∧ reread intent.nonce = expected.nonce) := by
      intro expected hexpected
      rw [normalizeIntent_value, hexpected]
      show Except.ok (decide _) = Except.ok true ↔ _
      rw [Except.ok.injEq, decide_eq_true_eq]
      constructor
      · intro htext
        have heq := Intent.value_inj htext
        exact ⟨congrArg Intent.type heq, congrArg Intent.resource heq, congrArg Intent.nonce heq⟩
      · rintro ⟨htype, hresource, hnonce⟩
        rw [htype, hresource, hnonce]
    rw [if_pos hasked]
    by_cases hname : intentName asked = ""
    · unfold normalizeIntent at h
      rw [if_neg (not_not.mpr hname)] at h
      obtain ⟨type, htype, h⟩ := bind_eq_ok.mp h
      obtain ⟨resource, hresource, h⟩ := bind_eq_ok.mp h
      obtain ⟨nonce, hnonce, h⟩ := bind_eq_ok.mp h
      cases h
      obtain ⟨type', htype', hiff⟩ := intentType_login htype
      have hexpected : normalizeIntent asked loginMode = .ok ⟨type', resource, nonce⟩ := by
        unfold normalizeIntent
        rw [if_neg (not_not.mpr hname)]
        dsimp only
        rw [htype', hresource, hnonce]
        rfl
      refine (hmatch hexpected).trans ?_
      rw [hiff, ← hasText_iff hresource, ← hasText_iff hnonce]
      exact ⟨fun ⟨ht, hr, hn⟩ _ => ⟨hr, hn, ht⟩, fun hall => ⟨(hall hasked).2.2, (hall hasked).1, (hall hasked).2.1⟩⟩
    · -- A name carries neither a resource nor a nonce, and `null` is not read back.
      have hnamed : ∀ mode, normalizeIntent asked mode = .ok ⟨intentName asked, none, none⟩ := fun mode => if_pos hname
      rw [hnamed] at h
      cases h
      refine (hmatch (hnamed _)).trans ⟨fun hall => absurd hall.2.1 (by simp [reread]), fun hall => ?_⟩
      obtain ⟨v, t, hv, -⟩ := (hall hasked).1
      have hfields : intentFields asked = .obj [] := by
        unfold intentName at hname
        split at hname
        · rfl
        · exact absurd rfl hname
      rw [hfields] at hv
      cases hv
  · rw [if_neg hasked]
    exact ⟨fun _ h' => absurd h' hasked, fun _ => rfl⟩

theorem intentMatches_self (intent : Intent) : intentMatches (some intent.value) (some intent.value) = .ok true := by
  unfold intentMatches
  rw [if_pos (show truthy (some intent.value) = true from rfl)]
  show (normalizeIntent (some intent.value) loginMode >>= fun actual =>
    normalizeIntent (some intent.value) loginMode >>= fun expected => _) = _
  rw [normalizeIntent_value]
  show Except.ok (decide _) = Except.ok true
  rw [decide_eq_true rfl]

/-! ## What is created -/

/-- The values an envelope takes over as they are. -/
def NoCredentials (input : EnvelopeInput) : Prop :=
  Plain input.keyAddress ∧ Plain input.claimAlias ∧ Plain input.displayAlias

def payloadNames : List String :=
  ["schema_version", "proof_type", "issuer", "subject", "client_id", "redirect_uri", "intent", "state", "nonce",
    "issued_at", "expires_at", "assurance_level", "claims"]

structure Payload (p : Node.Platform) (input : EnvelopeInput) (issuer : Issuer) (payload : Fields) : Prop where
  names : payload.map Prod.fst = payloadNames
  version : Fields.get payload "schema_version" = some (.str IDENTITY_PROOF_ENVELOPE_VERSION)
  issuer : Fields.get payload "issuer" = some issuer.value
  client : ∃ c, Fields.get payload "client_id" = some (.str c)
  redirect : ∃ r, Fields.get payload "redirect_uri" = some (.str r)
  intent : ∃ intent, normalizeIntent input.asked input.mode = .ok intent ∧
    Fields.get payload "intent" = some intent.value
  expires : ∃ t text, input.expires p = .ok t ∧ Node.toISOString p t = .ok text ∧
    Fields.get payload "expires_at" = some (.str text)
  plain : Plain (.obj payload) ↔ NoCredentials input

theorem displayAlias_eq (v : Json) : (nullish (nullish (some v) (some .null)) none).getD .null = v := by
  cases v <;> rfl

theorem claims_of_ok {input : EnvelopeInput} {claims : Json}
    (h : buildIdentityProofClaims p input.claimsInput = .ok (.ok claims)) :
    ∃ email email_hash, claims = claimsOf input.claimAlias input.displayAlias email email_hash := by
  unfold buildIdentityProofClaims at h
  obtain ⟨emailClaims, -, h⟩ := bind_eq_ok.mp h
  split at h
  · cases h
  · obtain ⟨reason_codes, -, h⟩ := bind_eq_ok.mp h
    have hclaims := Except.ok.inj h
    split at hclaims
    · cases hclaims
      refine ⟨emailClaims.email, emailClaims.email_hash, ?_⟩
      rw [show input.claimsInput.displayAlias = some input.displayAlias from rfl,
        show input.claimsInput.display_alias = some .null from rfl, displayAlias_eq]
      rfl
    · cases hclaims

theorem payload_of_ok {input : EnvelopeInput} {issuer : Issuer} {payload : Fields}
    (h : envelopePayload p input issuer = .ok payload) : Payload p input issuer payload := by
  unfold envelopePayload at h
  obtain ⟨entity_l1_address, -, h⟩ := bind_eq_ok.mp h
  obtain ⟨intent, hintent, h⟩ := bind_eq_ok.mp h
  obtain ⟨built, hbuilt, h⟩ := bind_eq_ok.mp h
  split at h
  · next claims =>
    obtain ⟨claims', hclaims', h⟩ := bind_eq_ok.mp h
    cases hclaims'
    obtain ⟨client_id, -, h⟩ := bind_eq_ok.mp h
    obtain ⟨redirect_uri, -, h⟩ := bind_eq_ok.mp h
    obtain ⟨state, -, h⟩ := bind_eq_ok.mp h
    obtain ⟨nonce, -, h⟩ := bind_eq_ok.mp h
    obtain ⟨issued, -, h⟩ := bind_eq_ok.mp h
    obtain ⟨issued_at, -, h⟩ := bind_eq_ok.mp h
    obtain ⟨expires, hexpires, h⟩ := bind_eq_ok.mp h
    obtain ⟨expires_at, hiso, h⟩ := bind_eq_ok.mp h
    obtain ⟨assurance_level, -, h⟩ := bind_eq_ok.mp h
    cases h
    obtain ⟨email, email_hash, rfl⟩ := claims_of_ok hbuilt
    exact {
      names := rfl
      version := rfl
      issuer := rfl
      client := ⟨client_id, rfl⟩
      redirect := ⟨redirect_uri, rfl⟩
      intent := ⟨intent, hintent, rfl⟩
      expires := ⟨expires, expires_at, hexpires, hiso, rfl⟩
      plain := by
        simp [plain_obj, plain_str, plain_text, forbiddenCredentialFields, NoCredentials, Issuer.value, Intent.value,
          claimsOf] }
  · cases h

/-- The fields of an envelope that its signature covers. -/
def body (p : Node.Platform) (payload : Fields) : Fields :=
  payload ++ [("envelope_id", .str (identityProofEnvelopeId p (.obj payload)))]

def sealed (p : Node.Platform) (hmac : String → String → String) (payload : Fields) (keyId secret : String) : Fields :=
  body p payload ++ [("signature", signatureOf keyId (hmac secret (stableStringify (.obj (body p payload)))))]

section
variable {input : EnvelopeInput} {issuer : Issuer} {payload : Fields} {keyId secret : String}

theorem names_body (h : Payload p input issuer payload) :
    (body p payload).map Prod.fst = payloadNames ++ ["envelope_id"] := by
  rw [body, List.map_append, h.names]
  rfl

theorem filter_body (h : Payload p input issuer payload) :
    (body p payload).filter (fun f => f.1 ∉ ["signature"]) = body p payload := by
  rw [List.filter_eq_self]
  intro f hf
  have hname : f.1 ∈ payloadNames ++ ["envelope_id"] := names_body h ▸ List.mem_map_of_mem hf
  have hfresh : ∀ k ∈ payloadNames ++ ["envelope_id"], k ∉ ["signature"] := by decide
  exact decide_eq_true (hfresh _ hname)

theorem signingPayload_obj (fs : Fields) :
    signingPayload (some (.obj fs)) = .obj (fs.filter fun f => f.1 ∉ ["signature"]) := rfl

theorem create_eq_ok {envelope : Fields} (h : createIdentityProofEnvelope p hmac input = .ok envelope) :
    ∃ issuer payload secret, normalizedIssuer input.issuer = .ok issuer ∧ Payload p input issuer payload ∧
      secretText input.secret = .ok secret ∧ envelope = sealed p hmac payload issuer.key_id secret := by
  unfold createIdentityProofEnvelope at h
  obtain ⟨issuer, hissuer, h⟩ := bind_eq_ok.mp h
  obtain ⟨payload, hpayload, h⟩ := bind_eq_ok.mp h
  obtain ⟨value, hvalue, h⟩ := bind_eq_ok.mp h
  have hspec := payload_of_ok hpayload
  have hcovered : signingPayload (some (.obj (body p payload ++ [("signature", signatureOf issuer.key_id "")]))) =
      .obj (body p payload) := by
    rw [signingPayload_obj, List.filter_append, filter_body hspec]
    exact congrArg Json.obj (List.append_nil _)
  unfold signIdentityProofEnvelope at hvalue
  obtain ⟨secret, hsecret, hvalue⟩ := bind_eq_ok.mp hvalue
  have hvalue : hmac secret (stableStringify (signingPayload (some (.obj (body p payload ++
      [("signature", signatureOf issuer.key_id "")]))))) = value := Except.ok.inj hvalue
  rw [hcovered] at hvalue
  cases h
  rw [← hvalue]
  exact ⟨issuer, payload, secret, hissuer, hspec, hsecret, rfl⟩

theorem prop_sealed {k : String} {v : Json} (h : Fields.get payload k = some v) :
    (Json.obj (sealed p hmac payload keyId secret)).written.prop k = some v.written := by
  rw [Json.prop_written]
  show (Fields.get (payload ++ _ ++ _) k).map Json.written = _
  rw [Fields.get, List.lookup_append, List.lookup_append, show payload.lookup k = some v from h]
  rfl

theorem signature_sealed (h : Payload p input issuer payload) :
    (Json.obj (sealed p hmac payload keyId secret)).written.prop "signature" =
      some (signatureOf keyId (hmac secret (stableStringify (.obj (body p payload))))) := by
  have hnone : (body p payload).lookup "signature" = none := by
    rw [List.lookup_eq_none_iff]
    intro f hf
    have hname : f.1 ∈ payloadNames ++ ["envelope_id"] := names_body h ▸ List.mem_map_of_mem hf
    have hfresh : ∀ k ∈ payloadNames ++ ["envelope_id"], "signature" ≠ k := by decide
    exact bne_iff_ne.mpr (hfresh _ hname)
  rw [Json.prop_written]
  show (Fields.get (body p payload ++ _) "signature").map Json.written = _
  rw [Fields.get, List.lookup_append, hnone]
  rfl

/-- What is authenticated of the envelope that arrives is the text that was authenticated. -/
theorem covered_sealed (h : Payload p input issuer payload) :
    (signingPayload (some (Json.obj (sealed p hmac payload keyId secret)).written)).canonText =
      (Json.obj (body p payload)).canonText := by
  rw [← canonText_written (.obj (body p payload))]
  congr 1
  rw [Json.written, Json.written, Json.writtenFields_eq_map, Json.writtenFields_eq_map, signingPayload_obj,
    List.filter_map, sealed, List.filter_append]
  show Json.obj (((body p payload).filter (fun f : String × Json => f.1 ∉ ["signature"]) ++ []).map _) = _
  rw [filter_body h, List.append_nil]

theorem plain_sealed (h : Payload p input issuer payload) :
    Plain (Json.obj (sealed p hmac payload keyId secret)).written ↔ NoCredentials input := by
  rw [← @leaks_eq_nil_iff [], leaks_written, leaks_eq_nil_iff, ← h.plain, plain_obj, plain_obj, sealed, body,
    List.append_assoc]
  simp only [List.forall_mem_append, and_iff_left_iff_imp]
  intro _
  simp [signatureOf, plain_obj, plain_str, forbiddenCredentialFields]

end

/-! ## At the relying party -/

/-- The envelope is accepted until it expires, by whoever expects this intent and its own client. -/
def Verifies (p : Node.Platform) (hmac : String → String → String) (trust : Fields) (expiresAt : Int)
    (envelope : Fields) (expectedIntent : Option Json) : Prop :=
  ∀ validate : Json → Bool, validate (Json.obj envelope).written = true → ∀ now : Int, now < expiresAt →
    Accepts p hmac (Json.obj envelope).written
      { validateEnvelope := some validate, expectedClientId := envelope.get "client_id",
        expectedRedirectUri := envelope.get "redirect_uri", expectedIntent, now := .int now, issuerTrust := trust }

/-- Under the signature of the envelope no other object is accepted. -/
def Unalterable (p : Node.Platform) (hmac : String → String → String) (trust envelope : Fields) : Prop :=
  ∀ (other : Fields) (options : VerifyOptions), (other.map Prod.fst).Nodup → options.issuerTrust = trust →
    (other.get "signature").map Json.canon = ((Json.obj envelope).written.prop "signature").map Json.canon →
    ¬ Json.Same (Json.obj other).written (Json.obj envelope).written → ¬ Accepts p hmac (.obj other) options

theorem mismatches_self (s : String) : mismatches (some (.str s)) (some (.str s)) = .ok false := by
  unfold mismatches
  split
  · exact congrArg (fun b => Except.ok (!b)) (strictEq_str_iff.mpr rfl)
  · rfl

theorem written_intent (intent : Intent) : intent.value.written = intent.value := by
  obtain ⟨type, _ | resource, _ | nonce⟩ := intent <;> rfl

section
variable {input : EnvelopeInput} {issuer : Issuer} {payload trust : Fields} {secret : String} {e : Int}

theorem verifies_iff (h : Payload p input issuer payload) (hdigest : ∀ k t, hmac k t ≠ "")
    (htrusted : Trusted trust issuer.issuer_id issuer.key_id secret) (he : input.expires p = .ok (.int e))
    (hdate : p.parseDate (p.isoDate e) = .int e) {intent : Intent}
    (hintent : Fields.get payload "intent" = some intent.value) (expectedIntent : Option Json) :
    Verifies p hmac trust e (sealed p hmac payload issuer.key_id secret) expectedIntent ↔
      NoCredentials input ∧ e ≠ 0 ∧ intentMatches (some intent.value) expectedIntent = .ok true := by
  obtain ⟨c, hc⟩ := h.client
  obtain ⟨r, hr⟩ := h.redirect
  obtain ⟨t, text, ht, hiso, hexpires⟩ := h.expires
  rw [he] at ht
  cases ht
  obtain rfl : p.isoDate e = text := Except.ok.inj hiso
  have hown : ∀ {k : String} {v : Json}, Fields.get payload k = some v →
      Fields.get (sealed p hmac payload issuer.key_id secret) k = some v := by
    intro k v hk
    unfold sealed body
    rw [Fields.get, List.lookup_append, List.lookup_append, show payload.lookup k = some v from hk]
    rfl
  have hprop : ∀ {k : String} {v : Json}, Fields.get payload k = some v →
      (Json.obj (sealed p hmac payload issuer.key_id secret)).written.prop k = some v.written := prop_sealed
  have hsigned : ∃ s value, trustedIssuerSecret (Json.obj (sealed p hmac payload issuer.key_id secret)).written trust =
      .ok (some s) ∧ signIdentityProofEnvelope hmac
        (some (Json.obj (sealed p hmac payload issuer.key_id secret)).written) (some s) = .ok value ∧ value ≠ "" ∧
      bodyField ((Json.obj (sealed p hmac payload issuer.key_id secret)).written.prop "signature") "value" =
        some (.str value) := by
    have hkey : or (bodyField ((Json.obj (sealed p hmac payload issuer.key_id secret)).written.prop "signature") "key_id")
        (bodyField ((Json.obj (sealed p hmac payload issuer.key_id secret)).written.prop "issuer") "key_id") =
        some (.str issuer.key_id) := by
      rw [signature_sealed h, hprop h.issuer]
      exact or_self_str
    obtain ⟨s, hs, hsecret⟩ := trustedIssuerSecret_of_trusted htrusted (by rw [hprop h.issuer]; rfl) hkey
    refine ⟨s, hmac secret (stableStringify (.obj (body p payload))), hs, ?_, hdigest _ _, ?_⟩
    · unfold signIdentityProofEnvelope stableStringify
      rw [hsecret, covered_sealed h]
      rfl
    · rw [signature_sealed h]
      rfl
  constructor
  · intro hverifies
    have hpasses := accepts_iff.mp (hverifies (fun _ => true) rfl (e - 1) (by omega))
    refine ⟨(plain_sealed h).mp hpasses.plain, ?_, ?_⟩
    · rintro rfl
      obtain ⟨text, htext, hdated, -⟩ := hpasses.fresh
      rw [hprop hexpires, show (Json.str (p.isoDate 0)).written = .str (p.isoDate 0) from rfl, toStr_or_empty] at htext
      cases htext
      rw [hdate] at hdated
      cases hdated
    · have hmatches := hpasses.intent
      rwa [hprop hintent, written_intent] at hmatches
  · rintro ⟨hplain, he0, hmatches⟩ validate hvalid now hnow
    refine accepts_iff.mpr {
      plain := (plain_sealed h).mpr hplain
      version := by
        rw [hprop h.version]
        exact strictEq_str_iff.mpr rfl
      shape := hvalid
      client := by
        rw [hprop hc, hown hc]
        exact mismatches_self c
      redirect := by
        rw [hprop hr, hown hr]
        exact mismatches_self r
      intent := by rwa [hprop hintent, written_intent]
      fresh := ⟨p.isoDate e, ?_, ?_, ?_⟩
      signature := hsigned }
    · rw [hprop hexpires]
      exact toStr_or_empty _
    · rw [hdate]
      exact bne_iff_ne.mpr he0
    · rw [hdate]
      show Number.le (.int e) (Node.timeClip (.int now)) = false
      unfold Node.timeClip
      dsimp only
      split
      · rw [Number.int_le_int]
        exact decide_eq_false (by omega)
      · simp [Number.le]

theorem unalterable (h : Payload p input issuer payload)
    (hinj : ∀ k t k' t', hmac k t = hmac k' t' → k = k' ∧ t = t') :
    Unalterable p hmac trust (sealed p hmac payload issuer.key_id secret) := by
  intro other options hnodup _ hsignature hother haccepted
  obtain ⟨s, value, -, hvalue, -, hsigned⟩ := (accepts_iff.mp haccepted).signature
  rw [signature_sealed h] at hsignature
  obtain ⟨signature, hget, hcanon⟩ := Option.map_eq_some_iff.mp hsignature
  have hother' : bodyField ((Json.obj other).prop "signature") "value" =
      some (.str (hmac secret (stableStringify (.obj (body p payload))))) := by
    show bodyField (Fields.get other "signature") "value" = _
    rw [hget]
    exact prop_str_of_canon hcanon rfl
  obtain rfl : hmac secret (stableStringify (.obj (body p payload))) = value :=
    Json.str.inj (Option.some.inj (hother'.symm.trans hsigned))
  unfold signIdentityProofEnvelope at hvalue
  obtain ⟨secret', -, hvalue⟩ := bind_eq_ok.mp hvalue
  have htext := (hinj _ _ _ _ (Except.ok.inj hvalue)).2
  have hnames : (sealed p hmac payload issuer.key_id secret).map Prod.fst =
      payloadNames ++ ["envelope_id"] ++ ["signature"] := by
    rw [sealed, List.map_append, names_body h]
    rfl
  refine hother (same_of_without (k := "signature") hnodup (hnames ▸ by decide) ?_ ?_)
  · have hsealed : (Fields.get (sealed p hmac payload issuer.key_id secret) "signature").map Json.written =
        some (signatureOf issuer.key_id (hmac secret (stableStringify (.obj (body p payload))))) := by
      rw [← signature_sealed h, Json.prop_written]
      rfl
    rw [hget, ← Option.map_map, ← Option.map_map, hsealed]
    show some signature.written.canon = _
    rw [← Json.written_canon, hcanon, Json.written_canon]
    rfl
  · rw [sealed, List.filter_append, filter_body h]
    show _ = (Json.obj (body p payload ++ [])).canonText
    rw [List.append_nil]
    exact String.ofList_inj.mp htext

theorem verifies_both {envelope : Fields} (hcreate : createIdentityProofEnvelope p hmac input = .ok envelope)
    (hinj : ∀ k t k' t', hmac k t = hmac k' t' → k = k' ∧ t = t') (hdigest : ∀ k t, hmac k t ≠ "")
    (hissuer : normalizedIssuer input.issuer = .ok issuer) (hsecret : secretText input.secret = .ok secret)
    (htrusted : Trusted trust issuer.issuer_id issuer.key_id secret) (he : input.expires p = .ok (.int e))
    (hdate : p.parseDate (p.isoDate e) = .int e) :
    ((Verifies p hmac trust e envelope (Fields.get envelope "intent") ∧ Unalterable p hmac trust envelope) ↔
      NoCredentials input ∧ e ≠ 0) ∧
    ((Verifies p hmac trust e envelope input.asked ∧ Unalterable p hmac trust envelope) ↔
      NoCredentials input ∧ e ≠ 0 ∧ Restated input.asked input.mode) := by
  obtain ⟨issuer', payload, secret', hissuer', h, hsecret', rfl⟩ := create_eq_ok hcreate
  obtain rfl : issuer = issuer' := Except.ok.inj (hissuer.symm.trans hissuer')
  obtain rfl : secret = secret' := Except.ok.inj (hsecret.symm.trans hsecret')
  obtain ⟨intent, hnormalized, hintent⟩ := h.intent
  have hown : Fields.get (sealed p hmac payload issuer.key_id secret) "intent" = some intent.value := by
    unfold sealed body
    rw [Fields.get, List.lookup_append, List.lookup_append, show payload.lookup "intent" = _ from hintent]
    rfl
  have hfixed : Unalterable p hmac trust (sealed p hmac payload issuer.key_id secret) := unalterable h hinj
  rw [and_iff_left hfixed, and_iff_left hfixed, verifies_iff h hdigest htrusted he hdate hintent,
    verifies_iff h hdigest htrusted he hdate hintent, hown, intentMatches_self, intentMatches_asked_iff hnormalized]
  exact ⟨⟨fun hall => ⟨hall.1, hall.2.1⟩, fun hall => ⟨hall.1, hall.2, rfl⟩⟩, Iff.rfl⟩

end

/-- An envelope verifies at the relying party just when it carries no credential field and does not expire at
the epoch itself; for a party that expects the intent as it asked for it, the intent must read the same twice. -/
theorem envelope_verifies_iff (p : Node.Platform) (hmac : String → String → String) (input : EnvelopeInput)
    (trust envelope : Fields) (issuer : Issuer) (secret : String) (e : Int)
    (hcreate : createIdentityProofEnvelope p hmac input = .ok envelope)
    (hinj : ∀ k t k' t', hmac k t = hmac k' t' → k = k' ∧ t = t') (hdigest : ∀ k t, hmac k t ≠ "")
    (hissuer : normalizedIssuer input.issuer = .ok issuer) (hsecret : secretText input.secret = .ok secret)
    (htrusted : Trusted trust issuer.issuer_id issuer.key_id secret) (he : input.expires p = .ok (.int e))
    (hdate : p.parseDate (p.isoDate e) = .int e) :
    ((Verifies p hmac trust e envelope (Fields.get envelope "intent") ∧ Unalterable p hmac trust envelope) ↔
      NoCredentials input ∧ e ≠ 0) ∧
    ((Verifies p hmac trust e envelope input.asked ∧ Unalterable p hmac trust envelope) ↔
      NoCredentials input ∧ e ≠ 0 ∧ Restated input.asked input.mode) :=
  verifies_both hcreate hinj hdigest hissuer hsecret htrusted he hdate

section Example

/-- A time in the first hour. -/
def dateText (minutes : String) : String := "1970-01-01T00:" ++ minutes ++ ":00.000Z"

theorem dateText_ne_empty (minutes : String) : dateText minutes ≠ "" := by
  intro h
  have hlength := congrArg String.length h
  simp [dateText] at hlength

/-- A platform that knows one date. -/
def datedAt (t : Int) (minutes : String) : Node.Platform where
  toHost := Realm.Host.ofTable [] [] Realm.Host.no_digests
  lower := id
  upper := id
  nfc := id
  parseDate := fun _ => .int t
  isoDate := fun _ => dateText minutes
  lower_lower := Eq.refl
  isoDate_ne_empty := fun _ => dateText_ne_empty minutes

/-- A digest that shows its key and its text. -/
def openHmac (key text : String) : String := stableStringify (.arr [.str key, .str text])

theorem openHmac_inj (k t k' t' : String) (h : openHmac k t = openHmac k' t') : k = k' ∧ t = t' := by
  have hsame := Json.canonText_eq_iff_written.mp (String.ofList_inj.mp h)
  have harr : Json.arr [.str k, .str t] = .arr [.str k', .str t'] := hsame
  simpa using harr

theorem openHmac_ne_empty (k t : String) : openHmac k t ≠ "" := by
  intro h
  have hchars : (Json.arr [.str k, .str t]).canonText = [] :=
    String.ofList_inj.mp (h : openHmac k t = String.ofList [])
  rw [canonText_arr] at hchars
  cases hchars

/-- An intent asked for by its name. -/
def loginInput (minutes : String) : EnvelopeInput :=
  { intent := some (.str "meanly.login"), issuedAt := some (.str (dateText minutes)),
    expiresAt := some (.str (dateText minutes)), secret := some (.str "secret"), issuedNow := 0, expiresNow := 0 }

def localTrust : Fields :=
  [("simplel1.local", .obj [("key_id", .str "sl1-connect-hmac-v1"), ("secret", .str "secret")])]

theorem localTrust_trusted : Trusted localTrust DEFAULT_ISSUER.issuer_id DEFAULT_ISSUER.key_id "secret" :=
  ⟨_, .str "secret", rfl, rfl, rfl, rfl, rfl⟩

theorem created_of_isSome {t : Int} {minutes : String}
    (h : (createIdentityProofEnvelope (datedAt t minutes) openHmac (loginInput minutes)).toOption.isSome = true) :
    ∃ envelope, createIdentityProofEnvelope (datedAt t minutes) openHmac (loginInput minutes) = .ok envelope := by
  cases hcreate : createIdentityProofEnvelope (datedAt t minutes) openHmac (loginInput minutes) with
  | ok envelope => exact ⟨envelope, rfl⟩
  | error e =>
    rw [hcreate] at h
    cases h

theorem created_at_epoch : ∃ envelope, createIdentityProofEnvelope (datedAt 0 "00") openHmac (loginInput "00") = .ok envelope :=
  created_of_isSome (by decide +kernel)

theorem created_later : ∃ envelope, createIdentityProofEnvelope (datedAt 600000 "10") openHmac (loginInput "10") = .ok envelope :=
  created_of_isSome (by decide +kernel)

theorem login_not_restated : ¬ Restated (loginInput "10").asked (loginInput "10").mode := by
  intro h
  obtain ⟨⟨v, t, hv, -⟩, -⟩ := h rfl
  cases hv

/-- An envelope that expires at the epoch is refused before, and so is one whose intent was asked for by name. -/
theorem own_envelope_refused :
    (¬ ∀ (p : Node.Platform) (hmac : String → String → String) (input : EnvelopeInput) (trust envelope : Fields)
      (issuer : Issuer) (secret : String) (e : Int), createIdentityProofEnvelope p hmac input = .ok envelope →
      (∀ k t k' t', hmac k t = hmac k' t' → k = k' ∧ t = t') → (∀ k t, hmac k t ≠ "") →
      normalizedIssuer input.issuer = .ok issuer → secretText input.secret = .ok secret →
      Trusted trust issuer.issuer_id issuer.key_id secret → input.expires p = .ok (.int e) →
      p.parseDate (p.isoDate e) = .int e →
        Verifies p hmac trust e envelope (Fields.get envelope "intent") ∧ Unalterable p hmac trust envelope) ∧
    (¬ ∀ (p : Node.Platform) (hmac : String → String → String) (input : EnvelopeInput) (trust envelope : Fields)
      (issuer : Issuer) (secret : String) (e : Int), createIdentityProofEnvelope p hmac input = .ok envelope →
      (∀ k t k' t', hmac k t = hmac k' t' → k = k' ∧ t = t') → (∀ k t, hmac k t ≠ "") →
      normalizedIssuer input.issuer = .ok issuer → secretText input.secret = .ok secret →
      Trusted trust issuer.issuer_id issuer.key_id secret → input.expires p = .ok (.int e) →
      p.parseDate (p.isoDate e) = .int e →
        Verifies p hmac trust e envelope input.asked ∧ Unalterable p hmac trust envelope) := by
  constructor
  · intro hall
    obtain ⟨envelope, hcreate⟩ := created_at_epoch
    have hverified := hall (datedAt 0 "00") openHmac (loginInput "00") localTrust envelope DEFAULT_ISSUER "secret" 0 hcreate
      openHmac_inj openHmac_ne_empty rfl rfl localTrust_trusted rfl rfl
    exact ((verifies_both hcreate openHmac_inj openHmac_ne_empty rfl rfl localTrust_trusted rfl rfl).1.mp hverified).2 rfl
  · intro hall
    obtain ⟨envelope, hcreate⟩ := created_later
    have hverified := hall (datedAt 600000 "10") openHmac (loginInput "10") localTrust envelope DEFAULT_ISSUER "secret" 600000 hcreate
      openHmac_inj openHmac_ne_empty rfl rfl localTrust_trusted rfl rfl
    exact login_not_restated
      ((verifies_both hcreate openHmac_inj openHmac_ne_empty rfl rfl localTrust_trusted rfl rfl).2.mp hverified).2.2

theorem login_envelope_verifies : ∃ envelope,
    createIdentityProofEnvelope (datedAt 600000 "10") openHmac (loginInput "10") = .ok envelope ∧
    ((Verifies (datedAt 600000 "10") openHmac localTrust 600000 envelope (Fields.get envelope "intent") ∧
      Unalterable (datedAt 600000 "10") openHmac localTrust envelope) ↔ NoCredentials (loginInput "10") ∧ (600000 : Int) ≠ 0) := by
  obtain ⟨envelope, hcreate⟩ := created_later
  exact ⟨envelope, hcreate, (envelope_verifies_iff _ _ _ localTrust _ DEFAULT_ISSUER "secret" 600000 hcreate
    openHmac_inj openHmac_ne_empty rfl rfl localTrust_trusted rfl rfl).1⟩

end Example

end SimpleL1.Identity
