import SimpleL1.Subject.ClaimHistory
import Mathlib.Data.List.SplitOn

/-!
# Email claims

An email address is a claim of a subject and leaves the node only under a scope that asks
for it. `emailDisclosureFromClaimHistory` takes the first active claim of the subject's
projection and hands its stored value and its stored hash to `buildConsentedEmailClaims`,
which computes the hash anew wherever the value is an address.
-/

namespace SimpleL1.Subject

open SimpleL1.Js

def EMAIL_HASH_PREFIX : String := "sha256:"

/-! ## Addresses and scopes -/

/-- Neither `undefined` nor `null` nor `''`. -/
def isGiven : Option Json → Bool
  | none | some .null => false
  | some (.str s) => s ≠ ""
  | some _ => true

/-- `/^[^\s@]+@[^\s@]+\.[^\s@]+$/` -/
def isEmail (s : String) : Bool :=
  let user := s.toList.takeWhile (· ≠ '@')
  let domain := s.toList.drop (user.length + 1)
  s.toList.all (fun c => !isWhite c) && !user.isEmpty && domain.all (· ≠ '@') &&
    (domain.drop 1).dropLast.contains '.'

def normalizeEmail (p : Node.Platform) (value : Option Json) : JsM (Option String) :=
  if isGiven value then do
    let normalized := p.lower (trim (← toStr value))
    return if isEmail normalized then some normalized else none
  else
    return none

def hashEmail (p : Node.Platform) (value : Option Json) : JsM (Option String) := do
  return (← normalizeEmail p value).map fun normalized => EMAIL_HASH_PREFIX ++ p.sha256 normalized

/-- `s.split(/\s+/).filter(Boolean)` -/
def tokens (s : String) : List String :=
  ((s.toList.splitOnP isWhite).filter (· ≠ [])).map String.ofList

def scopeIncludesEmail (p : Node.Platform) (scope : Option Json) : JsM Bool :=
  if isGiven scope then do
    return (tokens (p.lower (trim (← toStr scope)))).contains "email"
  else
    return false

/-! ## Claims that leave -/

/-- The claims, and the reasons if they were rejected. -/
structure ConsentedEmail where
  email : Option String
  email_hash : Option String
  rejected : Option (List String)
  deriving DecidableEq, Repr

def buildConsentedEmailClaims (p : Node.Platform) (email scope emailHash : Option Json) :
    JsM ConsentedEmail := do
  if !(← scopeIncludesEmail p scope) then
    return ⟨none, none, if isGiven email then some ["EMAIL_SCOPE_REQUIRED"] else none⟩
  match ← normalizeEmail p email with
  | none =>
    if isGiven email then
      return ⟨none, none, some ["EMAIL_INVALID"]⟩
    else if truthy emailHash then
      return ⟨none, some (← toStr emailHash), none⟩
    else
      return ⟨none, none, none⟩
  | some normalized => return ⟨some normalized, ← hashEmail p (some (.str normalized)), none⟩

/-! ## Disclosure from the claim history -/

namespace ClaimHistory

/-- The first active claim of the type. -/
def activeClaimForType (projection : Projection) (claimType : String) : Option PublicClaim :=
  projection.active_claims.find? fun claim => claim.claim_type = trim claimType

structure EmailDisclosure where
  email : Option String
  email_hash : Option String
  active_claim_projection : Projection

/-- The projection an address is taken from. -/
def emailProjection (claimHistory subject : Option Json) : JsM Projection :=
  deriveActiveClaimProjection claimHistory
    (.obj (Fields.ofOptions [("subject", subject), ("claim_type", some (.str "controls_email"))]))

def emailDisclosureFromClaimHistory (p : Node.Platform) (claimHistory subject scope : Option Json) :
    JsM EmailDisclosure := do
  let projection ← emailProjection claimHistory subject
  match activeClaimForType projection "controls_email" with
  | none => return ⟨none, none, projection⟩
  | some activeEmailClaim =>
    let disclosureValue ← normalizeEmail p activeEmailClaim.disclosure_value
    let emailHash ←
      if activeEmailClaim.value_hash ≠ "" then pure (some activeEmailClaim.value_hash)
      else hashEmail p (disclosureValue.map Json.str)
    let disclosure ← buildConsentedEmailClaims p (disclosureValue.map Json.str) scope (emailHash.map Json.str)
    return ⟨disclosure.email, disclosure.email_hash, projection⟩

end ClaimHistory

/-! ## What is normalised stays normalised -/

variable {p : Node.Platform} {v scope emailHash : Option Json} {n : String}

/-- What an address that was let through is. -/
structure PlainEmail (p : Node.Platform) (n : String) : Prop where
  email : isEmail n = true
  lower : p.lower n = n

theorem normalizeEmail_eq_some (h : normalizeEmail p v = .ok (some n)) : PlainEmail p n := by
  unfold normalizeEmail at h
  split at h
  · obtain ⟨s, -, h⟩ := bind_eq_ok.mp h
    simp only [pure, Except.pure, Except.ok.injEq] at h
    split at h
    · rename_i hemail
      cases h
      exact ⟨hemail, p.lower_lower _⟩
    · cases h
  · cases h

theorem PlainEmail.ne_empty (h : PlainEmail p n) : n ≠ "" := by
  rintro rfl
  exact absurd h.email (by decide)

theorem PlainEmail.trim_eq (h : PlainEmail p n) : trim n = n := by
  refine trim_of_none fun c hc => ?_
  have hemail := h.email
  unfold isEmail at hemail
  simp only [Bool.and_eq_true, List.all_eq_true] at hemail
  simpa using hemail.1.1.1 c hc

theorem PlainEmail.normalizeEmail_eq (h : PlainEmail p n) :
    normalizeEmail p (some (.str n)) = .ok (some n) := by
  have hgiven : isGiven (some (.str n)) = true := by simpa [isGiven] using h.ne_empty
  unfold normalizeEmail
  rw [if_pos hgiven]
  show (Except.ok (if isEmail (p.lower (trim n)) then some (p.lower (trim n)) else none) : JsM _) = _
  rw [h.trim_eq, h.lower, if_pos h.email]

theorem PlainEmail.hashEmail_eq (h : PlainEmail p n) :
    hashEmail p (some (.str n)) = .ok (some (EMAIL_HASH_PREFIX ++ p.sha256 n)) := by
  unfold hashEmail
  rw [h.normalizeEmail_eq]
  rfl

theorem buildConsentedEmailClaims_unasked (hscope : scopeIncludesEmail p scope = .ok false) (email : Option Json) :
    buildConsentedEmailClaims p email scope emailHash =
      .ok ⟨none, none, if isGiven email then some ["EMAIL_SCOPE_REQUIRED"] else none⟩ := by
  unfold buildConsentedEmailClaims
  rw [hscope]
  rfl

/-- What leaves under a scope that asks for it: an address with its own hash, or the hash
that was handed over. -/
theorem buildConsentedEmailClaims_asked (hscope : scopeIncludesEmail p scope = .ok true)
    {email : Option String} (hemail : ∀ n, email = some n → PlainEmail p n) {hash : String} (hhash : hash ≠ "") :
    buildConsentedEmailClaims p (email.map Json.str) scope (some (.str hash)) =
      .ok ⟨email, some ((email.map fun n => EMAIL_HASH_PREFIX ++ p.sha256 n).getD hash), none⟩ := by
  unfold buildConsentedEmailClaims
  rw [hscope]
  cases email with
  | none =>
    have htruthy : truthy (some (.str hash)) = true := by simpa using hhash
    show (if truthy (some (.str hash)) then _ else _ : JsM ConsentedEmail) = _
    rw [if_pos htruthy]
    rfl
  | some n =>
    have hn := hemail n rfl
    show (normalizeEmail p (some (.str n)) >>= _ : JsM ConsentedEmail) = _
    rw [hn.normalizeEmail_eq]
    show (hashEmail p (some (.str n)) >>= _ : JsM ConsentedEmail) = _
    rw [hn.hashEmail_eq]
    rfl

end SimpleL1.Subject
