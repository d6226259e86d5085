import SimpleL1.Node.Ledger

/-!
# Capabilities, grants and authorizations

The authority runtime: a control grant is written to three stores, its
revocation marks it in two, and an authorization records what the grants, a
policy decision and an approval of the intent allow. Every function computes
what it writes before it writes.
-/

namespace SimpleL1.Node

open SimpleL1.Js SimpleL1.Lib.Effect

/-- `xs.find(p)` on artifacts, and what the caller does to the entry it gets. -/
def updateFirst (p : Fields → Bool) (f : Fields → Fields) : List Fields → List Fields
  | [] => []
  | x :: xs => if p x then f x :: xs else x :: updateFirst p f xs

/-! ## Grants -/

def assertCapabilityInput (input : Fields) : JsM (String × String) := do
  let capability ← strOrEmpty (input.get "capability")
  let scope ← strOrEmpty (input.get "scope")
  throwUnless (capability ≠ "" && scope ≠ "") (.error "capability and scope are required")
  throwUnless (!includes capability '*' && !includes scope '*')
    (.error "wildcard capabilities are not part of Authority Runtime v1")
  return (capability, scope)

def capabilityId (p : Platform) (input : Fields) (capability scope : String) : Json :=
  orArtifactId p (input.get "id") "cap"
    (.obj [("capability", .str capability), ("scope", .str scope)]) 20

def buildCapability (p : Platform) (input : Fields) (now : Number) : JsM Fields := do
  let (capability, scope) ← assertCapabilityInput input
  let created_at ← orNow p (input.get "created_at") now
  return [("id", capabilityId p input capability scope), ("object_type", .str "Capability"),
    ("capability", .str capability), ("scope", .str scope), ("created_at", created_at),
    ("metadata", orElse (input.get "metadata") (.obj []))]

def registerCapability (p : Platform) (input : Fields) (now : Number) : LedgerM Fields := do
  let capability ← buildCapability p input now
  upsertById .capabilities capability
  return capability

def buildControlGrant (p : Platform) (input : Fields) (now : Number) : JsM Fields := do
  let (capability, scope) ← assertCapabilityInput input
  let entityAddress ← assertEntityAddress p (input.get "entity_l1_address")
  let keyAddress ← keyAddressOrNull p (input.get "key_l1_address")
  let status ← lowerOf p (input.get "status") "active"
  let policy ← lowerOf p (input.get "policy") "allow"
  throwUnless (["active", "revoked", "expired"].contains status) (.error "Unsupported grant status")
  throwUnless (["deny", "require_quorum", "require_approval", "allow"].contains policy)
    (.error "Unsupported grant policy")
  let granted_at ← orNow p (input.get "granted_at") now
  let basis : Json := .obj [("entity_l1_address", .str entityAddress), ("key_l1_address", keyAddress),
    ("capability", .str capability), ("scope", .str scope), ("policy", .str policy),
    ("granted_by_entity_l1_address", orNull (input.get "granted_by_entity_l1_address")),
    ("granted_at", granted_at)]
  let granted_by ← entityAddressOrNull p (input.get "granted_by_entity_l1_address")
  return [("id", orArtifactId p (input.get "id") "grant" basis 24),
    ("object_type", .str "ControlGrant"),
    ("capability_id", orElse (input.get "capability_id") (capabilityId p [] capability scope)),
    ("entity_l1_address", .str entityAddress), ("key_l1_address", keyAddress),
    ("capability", .str capability), ("scope", .str scope), ("policy", .str policy),
    ("status", .str status), ("granted_by_entity_l1_address", granted_by),
    ("granted_at", granted_at), ("expires_at", orNull (input.get "expires_at")),
    ("revoked_at", orNull (input.get "revoked_at")),
    ("metadata", orElse (input.get "metadata") (.obj []))]

def grantToCreGrant (grant : Fields) : Fields :=
  Fields.ofOptions (["id", "entity_l1_address", "key_l1_address", "capability", "scope", "policy",
    "status", "expires_at"].map fun k => (k, grant.get k))

def createControlGrant (p : Platform) (input : Fields) (now : Number) : LedgerM Fields := do
  let grant ← buildControlGrant p input now
  let _ ← registerCapability p (Fields.ofOptions [("id", grant.get "capability_id"),
    ("capability", grant.get "capability"), ("scope", grant.get "scope"),
    ("created_at", grant.get "granted_at")]) now
  upsertById .control_grants grant
  upsertById .capability_grants (grantToCreGrant grant)
  return grant

/-- The revocation of `revokeControlGrant`, after the grant it names was found. -/
def revocationOf (p : Platform) (ledger : Ledger) (input : Fields) (now : Number) :
    JsM (String × Fields) := do
  let grantId ← strOrEmpty (or (input.get "grant_id") (input.get "id"))
  throwUnless (grantId ≠ "") (.error "grant_id is required")
  let found := (findById (ledger.stores .control_grants) (some (.str grantId))).isSome
    || (findById (ledger.stores .capability_grants) (some (.str grantId))).isSome
  throwUnless found (.error "ControlGrant not found")
  let revokedAt ← orNow p (input.get "revoked_at") now
  let revoked_by ← entityAddressOrNull p (input.get "revoked_by_entity_l1_address")
  return (grantId, [("id", orArtifactId p (input.get "revocation_id") "revoke"
      (.obj [("grant_id", .str grantId), ("revoked_at", revokedAt)]) 20),
    ("object_type", .str "Revocation"), ("grant_id", .str grantId),
    ("reason", orElse (input.get "reason") (.str "revoked")), ("revoked_at", revokedAt),
    ("revoked_by_entity_l1_address", revoked_by)])

/-- The grant with the id `grantId` is revoked at the time of `revocation`. -/
def markRevoked (grantId : String) (revocation : Fields) (grants : List Fields) : List Fields :=
  updateFirst (fun g => strictEq (g.get "id") (some (.str grantId)))
    (fun g => assign (g.set "status" (.str "revoked")) "revoked_at" (revocation.get "revoked_at"))
    grants

def revokeControlGrant (p : Platform) (input : Fields) (now : Number) : LedgerM Fields := do
  let (grantId, revocation) ← reading fun ledger => revocationOf p ledger input now
  writeStore .control_grants (markRevoked grantId revocation (← readStore .control_grants))
  writeStore .capability_grants (markRevoked grantId revocation (← readStore .capability_grants))
  upsertById .revocations revocation
  return revocation

/-- The control grants, and the grants that only the older table has. -/
def activeControlGrants (ledger : Ledger) : List Fields :=
  let controlGrants := ledger.stores .control_grants
  let legacyOnly := (ledger.stores .capability_grants).filter fun g =>
    !controlGrants.any fun c => sameRef (c.get "id") (g.get "id")
  (controlGrants ++ legacyOnly).map grantToCreGrant

/-! ## Capability resolution -/

structure CapabilityDecision where
  decision : String
  matched_grants : List Json
  reason_codes : List String

def POLICY_PRECEDENCE : List (String × String) :=
  [("deny", "deny"), ("require_quorum", "quorum"), ("require_approval", "approval"),
    ("allow", "allow")]

def normalizeGrant (p : Platform) (grant : Fields) : JsM Fields := do
  let entity ← lowerOf p (grant.get "entity_l1_address") ""
  let key ← if truthy (grant.get "key_l1_address") then
      Json.str <$> lowerOf p (grant.get "key_l1_address") "" else pure .null
  let capability ← strOrEmpty (grant.get "capability")
  let scope ← strOrEmpty (grant.get "scope")
  let policy ← lowerOf p (grant.get "policy") "deny"
  let status ← lowerOf p (grant.get "status") "active"
  return merge grant [("entity_l1_address", .str entity), ("key_l1_address", key),
    ("capability", .str capability), ("scope", .str scope), ("policy", .str policy),
    ("status", .str status)]

def isActiveGrant (p : Platform) (now : Number) (grant : Fields) : JsM Bool := do
  if !strictEq (grant.get "status") (some (.str "active")) then return false
  else if !truthy (grant.get "expires_at") then return true
  else return now.lt (← newDate p (grant.get "expires_at"))

/-- `grants.map((grant) => grant.id).filter(Boolean)`. -/
def grantIds (grants : List Fields) : List Json :=
  (grants.filterMap (·.get "id")).filter Json.truthy

def decideCapability (p : Platform) (grants : List Fields) (entity : String) (proofKey : Json)
    (capability scope : String) (now : Number) : JsM CapabilityDecision := do
  let entityAddress ← assertEntityAddress p (some (.str entity))
  let proofKeyAddress ← keyAddressOrNull p (some proofKey)
  throwUnless (capability ≠ "" && scope ≠ "") (.error "capability and scope are required")
  throwUnless (!includes capability '*' && !includes scope '*')
    (.error "wildcard capability or scope resolution is not part of CRE v1")
  let normalized ← grants.mapM (normalizeGrant p)
  let active ← Js.filter (isActiveGrant p now) normalized
  let matchedGrants := active.filter fun grant =>
    strictEq (grant.get "entity_l1_address") (some (.str entityAddress))
      && strictEq (grant.get "capability") (some (.str capability))
      && strictEq (grant.get "scope") (some (.str scope))
      && match normalizeKeyAddress p (grant.get "key_l1_address") with
        | none => true
        | some key => strictEq (some proofKeyAddress) (some (.str key))
  if matchedGrants.isEmpty then return ⟨"deny", [], ["NO_MATCHING_GRANT"]⟩
  else
    match POLICY_PRECEDENCE.find? fun policy =>
        matchedGrants.any fun grant => strictEq (grant.get "policy") (some (.str policy.1)) with
    | some (policy, decision) =>
      return ⟨decision,
        grantIds (matchedGrants.filter fun g => strictEq (g.get "policy") (some (.str policy))),
        ["MATCHED_" ++ p.upper policy ++ "_GRANT"]⟩
    | none => return ⟨"deny", grantIds matchedGrants, ["NO_SUPPORTED_POLICY"]⟩

def policyDecisionAllows (ledger : Ledger) (policyDecisionId : Option Json) : Bool :=
  truthy policyDecisionId
    && match findById (ledger.stores .policy_decisions) policyDecisionId with
      | some decision => strictEq (decision.get "decision") (some (.str "allow"))
      | none => false

/-! ## Intent approvals -/

/-- What a check says: whether it passed, and why not. -/
structure Checked where
  ok : Bool
  reason_codes : List String

/-- How the compared field of an approval is read. -/
abbrev Reading := Option Json → JsM (Option String)

def readText : Reading := fun v => some <$> toStr v

def approvalComparisons (p : Platform) : List (String × String × Reading) :=
  [("entity_l1_address", "INTENT_APPROVAL_ENTITY_MISMATCH", fun v => pure (normalizeEntityAddress p v)),
    ("controller_l1_address", "INTENT_APPROVAL_CONTROLLER_MISMATCH",
      fun v => pure (normalizeKeyAddress p v)),
    ("intent_id", "INTENT_APPROVAL_INTENT_MISMATCH", readText),
    ("intent_hash", "INTENT_APPROVAL_INTENT_HASH_MISMATCH", readText),
    ("audience", "INTENT_APPROVAL_AUDIENCE_MISMATCH", readText),
    ("nonce", "INTENT_APPROVAL_NONCE_MISMATCH", readText),
    ("expires_at", "INTENT_APPROVAL_EXPIRY_MISMATCH", readText),
    ("credential_id", "INTENT_APPROVAL_CREDENTIAL_MISMATCH", readText),
    ("rp_id", "INTENT_APPROVAL_RP_ID_MISMATCH", readText)]

/-- The context leaves the field open: `undefined`, `null` or the empty string. -/
def isOpen : Option Json → Bool
  | none | some .null => true
  | some (.str s) => s == ""
  | _ => false

def comparisonReasons (approval : Json) (context : Fields) :
    List (String × String × Reading) → JsM (List String)
  | [] => return []
  | (key, reasonCode, normalize) :: rest => do
    if isOpen (context.get key) then comparisonReasons approval context rest
    else
      let stored ← normalize (approval.prop key)
      let expected ← normalize (context.get key)
      let codes ← comparisonReasons approval context rest
      return if stored == expected then codes else reasonCode :: codes

/-- `verifyIntentApproval` on an approval object. -/
def verifyIntentApproval (p : Platform) (approval : Json) (context : Fields) (now : Number) :
    JsM Checked := do
  let status ← lowerOf p (approval.prop "status") ""
  let statusCodes := if status == "pending" then []
    else ["INTENT_APPROVAL_" ++ if status ≠ "" then p.upper status else "STATUS_UNKNOWN"]
  let expired ← if truthy (approval.prop "expires_at") then
      (·.le now) <$> newDate p (approval.prop "expires_at") else pure false
  let codes ← comparisonReasons approval context (approvalComparisons p)
  let reasonCodes := statusCodes ++ (if expired then ["INTENT_APPROVAL_EXPIRED"] else []) ++ codes
  return ⟨reasonCodes.isEmpty,
    if reasonCodes.isEmpty then ["INTENT_APPROVAL_VALID"] else reasonCodes⟩

def resolveIntentApproval (ledger : Ledger) (input : Fields) : Option Json :=
  match input.get "intent_approval" with
  | some (.obj fs) => some (.obj fs)
  | some (.arr xs) => some (.arr xs)
  | _ =>
    if truthy (input.get "intent_approval_id") then
      (findById (ledger.stores .intent_approvals) (input.get "intent_approval_id")).map .obj
    else none

def verifyIntentApprovalBinding (p : Platform) (ledger : Ledger) (input : Fields)
    (entityAddress : String) (proofKeyAddress : Json) (now : Number) : JsM Checked := do
  let intentApprovalId := or (input.get "intent_approval_id")
    ((input.get "intent_approval").bind (·.prop "id"))
  let hasApprovalStore := !(ledger.stores .intent_approvals).isEmpty
  match resolveIntentApproval ledger input with
  | none =>
    if !truthy intentApprovalId then return ⟨true, []⟩
    else return ⟨!hasApprovalStore, if hasApprovalStore then ["INTENT_APPROVAL_NOT_FOUND"] else []⟩
  | some approval =>
    let approvalEntity := normalizeEntityAddress p (approval.prop "entity_l1_address")
    let approvalController := normalizeKeyAddress p (or (approval.prop "controller_l1_address")
      (or (approval.prop "proof_key_l1_address") (approval.prop "key_l1_address")))
    let entityCodes := if approvalEntity == some entityAddress then []
      else ["INTENT_APPROVAL_ENTITY_MISMATCH"]
    let controllerCodes :=
      if proofKeyAddress.truthy && strictEq (approvalController.map Json.str) (some proofKeyAddress)
      then [] else ["INTENT_APPROVAL_CONTROLLER_MISMATCH"]
    let intentDiffers ←
      if truthy (input.get "intent_id") && truthy (approval.prop "intent_id") then do
        let mine ← toStr (input.get "intent_id")
        let theirs ← toStr (approval.prop "intent_id")
        pure (mine != theirs)
      else pure false
    let reasonCodes := entityCodes ++ controllerCodes
      ++ if intentDiffers then ["INTENT_APPROVAL_INTENT_MISMATCH"] else []
    let approvalStatus ← verifyIntentApproval p approval (Fields.ofOptions [
      ("entity_l1_address", some (.str entityAddress)),
      ("controller_l1_address", some proofKeyAddress),
      ("intent_id", or (input.get "intent_id") (approval.prop "intent_id")),
      ("audience", or (input.get "audience") none), ("nonce", or (input.get "nonce") none),
      ("expires_at", or (input.get "expires_at") none),
      ("credential_id", or (input.get "credential_id") none),
      ("rp_id", or (input.get "rp_id") none)]) now
    return ⟨reasonCodes.isEmpty && approvalStatus.ok,
      reasonCodes ++ if approvalStatus.ok then [] else approvalStatus.reason_codes⟩

/-! ## Authorizations -/

/-- `new Date(now.getTime() + 5 * 60 * 1000).toISOString()` unless the input says otherwise. -/
def authorizationExpiry (p : Platform) (input : Fields) (now : Number) : JsM Json :=
  orNow p (input.get "expires_at") (laterBy 300000 now)

/-- The authorization `buildAuthorization` records. -/
def authorizationOf (p : Platform) (ledger : Ledger) (input : Fields) (now : Number) : JsM Fields := do
  let entityAddress ← assertEntityAddress p (input.get "entity_l1_address")
  let proofKeyAddress ← keyAddressOrNull p (input.get "proof_key_l1_address")
  let (capability, scope) ← assertCapabilityInput input
  let creDecision ← decideCapability p (activeControlGrants ledger) entityAddress proofKeyAddress
    capability scope now
  let policyDecisionId := input.get "policy_decision_id"
  let policyAllows := policyDecisionAllows ledger policyDecisionId
  let approvalBinding ← verifyIntentApprovalBinding p ledger input entityAddress proofKeyAddress now
  let isAllow := creDecision.decision == "allow" && policyAllows && approvalBinding.ok
  let authorizedAt ← orNow p (input.get "authorized_at") now
  let expiresAt ← authorizationExpiry p input now
  let reasonCodes := creDecision.reason_codes
    ++ (if truthy policyDecisionId then [] else ["POLICY_DECISION_REQUIRED"])
    ++ (if policyAllows then [] else ["POLICY_DECISION_NOT_ALLOW"])
    ++ approvalBinding.reason_codes
  let basis : Fields := [("entity_l1_address", .str entityAddress),
    ("proof_key_l1_address", proofKeyAddress), ("capability", .str capability),
    ("scope", .str scope), ("intent_approval_id", orNull (input.get "intent_approval_id")),
    ("intent_id", orNull (input.get "intent_id")), ("policy_decision_id", orNull policyDecisionId),
    ("matched_grants", .arr creDecision.matched_grants), ("authorized_at", authorizedAt)]
  return [("id", orArtifactId p (input.get "id") "authz" (.obj basis) 24),
    ("object_type", .str "Authorization"),
    ("status", .str (if isAllow then "authorized" else "denied")), ("can_execute", .bool isAllow),
    ("entity_l1_address", .str entityAddress), ("proof_key_l1_address", proofKeyAddress),
    ("capability_id", capabilityId p [] capability scope), ("capability", .str capability),
    ("scope", .str scope), ("intent_approval_id", orNull (input.get "intent_approval_id")),
    ("intent_id", orNull (input.get "intent_id")), ("policy_decision_id", orNull policyDecisionId),
    ("matched_grants", .arr creDecision.matched_grants), ("decision", .str creDecision.decision),
    ("reason_codes", .arr (reasonCodes.map .str)), ("input_hash", .str (hashObject p (.obj basis))),
    ("authorized_at", authorizedAt), ("expires_at", expiresAt)]

def buildAuthorization (p : Platform) (input : Fields) (now : Number) : LedgerM Fields := do
  let authorization ← reading fun ledger => authorizationOf p ledger input now
  upsertById .authorizations authorization
  return authorization

/-- `verifyAuthorization`: the authorization when it is valid, else the reason why not. -/
def verifyAuthorization (p : Platform) (ledger : Ledger) (authorizationOrId : Option Json)
    (now : Number) : JsM (Except String Json) := do
  let authorization := match authorizationOrId with
    | some (.str id) => (findById (ledger.stores .authorizations) (some (.str id))).map Json.obj
    | v => if truthy v then v else none
  match authorization with
  | none => return .error "AUTHORIZATION_NOT_FOUND"
  | some authorization =>
    if !strictEq (authorization.prop "status") (some (.str "authorized"))
        || !strictEq (authorization.prop "can_execute") (some (.bool true)) then
      return .error "AUTHORIZATION_NOT_EXECUTABLE"
    else
      let expired ← if truthy (authorization.prop "expires_at") then
          (·.le now) <$> newDate p (authorization.prop "expires_at") else pure false
      if expired then return .error "AUTHORIZATION_EXPIRED"
      else
        let matched ← arrayOrEmpty (authorization.prop "matched_grants")
          "(authorization.matched_grants || []).some"
        let inactive := matched.any fun grantId =>
          match (findByRef (ledger.stores .control_grants) (some grantId)).or
              (findByRef (ledger.stores .capability_grants) (some grantId)) with
          | none => true
          | some grant => !strictEq (grant.get "status") (some (.str "active"))
        return if inactive then .error "AUTHORIZATION_GRANT_NOT_ACTIVE" else .ok authorization

end SimpleL1.Node
