import SimpleL1.Mesh.Envelope

/-!
# Envelopes in transport

The hash and the signature of an envelope are taken of the object in memory. A binding whose
controller key is missing has it there as `undefined`, which the text shows and JSON leaves out:
the receiver computes another text and refuses. Where every published binding names its controller
key, what arrives is accepted until it expires, and nothing else is under its signature.
-/

namespace SimpleL1.Mesh

open SimpleL1.Js

variable {p : Node.Platform} {scheme : SignatureScheme}

/-! ## What is sent -/

theorem withoutKeys_sent (d : Draft) (keys : List String) :
    withoutKeys (sent d) keys = sent (d.without keys) := by
  unfold sent Draft.value Draft.without withoutKeys
  rw [Json.written, Json.written, Json.writtenFields_eq_map, Json.writtenFields_eq_map]
  dsimp only
  rw [List.filter_map, List.filter_map]
  rfl

theorem stableStringify_sent (d : Draft) :
    Node.stableStringify (sent d) = String.ofList d.value.canonText := by
  unfold Node.stableStringify sent
  rw [canonText_written]

theorem stableStringify_of_whole {d : Draft} (h : d.Whole) : stableStringify d = Node.stableStringify (sent d) := by
  rw [stableStringify_sent, stableStringify, Draft.stableChars_of_whole h]

/-- What is `undefined` in memory makes another text. -/
theorem stableStringify_ne {d : Draft} (h : ¬ d.Whole) : stableStringify d ≠ Node.stableStringify (sent d) := by
  rw [stableStringify_sent, stableStringify]
  intro heq
  exact Draft.stableChars_ne h (String.ofList_inj.mp heq)

theorem prop_sent (d : Draft) (k : String) :
    (sent d).prop k = ((d.lookup k).map fun part => part.value.written) := by
  unfold sent Draft.value
  rw [Json.prop_written, Json.prop_obj]
  induction d with
  | nil => rfl
  | cons f d ih =>
    obtain ⟨k', part⟩ := f
    rw [List.map_cons, Fields.get_cons, List.lookup_cons]
    by_cases hk : k = k'
    · rw [if_pos hk, beq_iff_eq.mpr hk]
      rfl
    · rw [if_neg hk, beq_eq_false_iff_ne.mpr hk]
      exact ih

/-! ## What verification checks -/

def Accepts (p : Node.Platform) (scheme : SignatureScheme) (envelope : Json) (options : VerifyOptions) : Prop :=
  ∃ verdict, verifyIdentityStateEnvelope p scheme envelope options = .ok verdict ∧ verdict.ok = true

/-- An object passes all the checks, with the key that is trusted. -/
structure Passes (p : Node.Platform) (scheme : SignatureScheme) (envelope : Json) (options : VerifyOptions)
    (expiresAt : String) (publicKey : Json) : Prop where
  version : strictEq (envelope.prop "schema_version") (some (.str IDENTITY_STATE_ENVELOPE_VERSION)) = true
  shape : options.validateEnvelope.any (fun validate => !(validate envelope)) = false
  hash : strictEq (envelope.prop "state_hash") (some (.str (sha256Ref p
    (Node.stableStringify (withoutKeys envelope ["state_hash", "signature"]))))) = true
  dated : (p.parseDate expiresAt).truthy = true
  fresh : Number.le (p.parseDate expiresAt) (Node.timeClip options.now) = false
  device : strictEq ((envelope.prop "signature").bind (·.prop "signed_by_key_l1_address"))
    (envelope.prop "device_key_l1_address") = true
  signature : verifyBytes scheme ((envelope.prop "signature").bind (·.prop "algorithm")) publicKey
    (Node.stableStringify (withoutKeys envelope ["signature"]))
    ((envelope.prop "signature").bind (·.prop "value")) = true

theorem when_eq_nil {c : Bool} {code : String} : when c code = [] ↔ c = false := by
  cases c <;> simp [when]

theorem accepts_iff {fs : Fields} {options : VerifyOptions} {publicKey : Json} (htruthy : publicKey.truthy = true)
    (htrusted : trustedPublicKeyFor (.obj fs) options.trustedDeviceKeys = .ok (some publicKey)) :
    Accepts p scheme (.obj fs) options ↔ ∃ expiresAt,
      toStr (or ((Json.obj fs).prop "expires_at") (some (.str ""))) = .ok expiresAt ∧
      Passes p scheme (.obj fs) options expiresAt publicKey := by
  have hfilter : (some publicKey).filter Json.truthy = some publicKey := Option.filter_eq_some_iff.mpr ⟨rfl, htruthy⟩
  have hmember : Node.member (some (.obj fs)) "signature" = .ok ((Json.obj fs).prop "signature") := rfl
  have hobject : (if (Json.obj fs).truthy = true then Json.obj fs else .obj []) = .obj fs := rfl
  unfold Accepts verifyIdentityStateEnvelope
  dsimp only
  rw [hobject, htrusted]
  cases hexpires : toStr (or ((Json.obj fs).prop "expires_at") (some (.str ""))) with
  | error e =>
    constructor
    · rintro ⟨verdict, hverdict, -⟩
      cases hverdict
    · rintro ⟨_, hok, -⟩
      cases hok
  | ok expiresAt =>
    rw [ok_bind, ok_bind, hfilter]
    dsimp only
    rw [hmember]
    simp only [ok_bind, pure_eq_ok]
    constructor
    · rintro ⟨verdict, hverdict, hok⟩
      cases hverdict
      have hnil := List.isEmpty_iff.mp hok
      simp only [List.append_eq_nil_iff, when_eq_nil, Bool.not_eq_false', Bool.or_eq_false_iff] at hnil
      obtain ⟨⟨⟨⟨⟨hversion, hshape⟩, hhash⟩, hdated, hfresh⟩, hdevice⟩, hsignature⟩ := hnil
      exact ⟨expiresAt, rfl, hversion, hshape, hhash, hdated, hfresh, hdevice, hsignature⟩
    · rintro ⟨_, heq, h⟩
      cases heq
      refine ⟨_, rfl, List.isEmpty_iff.mpr ?_⟩
      simp only [List.append_eq_nil_iff, when_eq_nil, Bool.not_eq_false', Bool.or_eq_false_iff]
      exact ⟨⟨⟨⟨⟨h.version, h.shape⟩, h.hash⟩, h.dated, h.fresh⟩, h.device⟩, h.signature⟩

/-! ## What the ledger leaves out -/

/-- The binding is published in the envelopes of the entity. -/
def Published (entityAddress : String) (binding : Json) : Prop :=
  strictEq (or (binding.prop "entity_l1_address") (some (.str entityAddress))) (some (.str entityAddress)) = true ∧
    ∃ status ∈ ["active", "revoked", "unknown"], statusText binding = .ok status

/-- Every binding that is published names its controller key. -/
def KeysNamed (input : EnvelopeInput) : Prop :=
  ∀ bindings, ledgerList input.ledger "controller_bindings" "map" = .ok bindings →
    ∀ binding ∈ bindings, Published input.entityAddress binding → (controllerKey binding).isSome = true

theorem isSome_or {a b : Option Json} (h : b.isSome = true) : (or a b).isSome = true := by
  unfold Js.or
  split
  · next ha =>
    cases a with
    | none => cases ha
    | some v => rfl
  · exact h

theorem isSome_of_truthy {a : Option Json} (h : truthy a = true) : a.isSome = true := by
  cases a with
  | none => cases h
  | some v => rfl

/-- What the published form of a binding is. -/
structure Normalized (p : Node.Platform) (entityAddress : String) (binding : Json) (r : Record) : Prop where
  whole : r.Whole ↔ (controllerKey binding).isSome = true
  published : Mesh.published entityAddress r = true ↔ Published entityAddress binding

theorem normalized_of_ok {entityAddress : String} {binding : Json} {r : Record}
    (h : normalizeControllerBinding p binding entityAddress = .ok r) : Normalized p entityAddress binding r := by
  unfold normalizeControllerBinding at h
  obtain ⟨own, hown, h⟩ := bind_eq_ok.mp h
  obtain ⟨binding_id, -, h⟩ := bind_eq_ok.mp h
  obtain ⟨status, hstatus, h⟩ := bind_eq_ok.mp h
  obtain ⟨-, rfl⟩ := Node.member_eq_ok.mp hown
  have hentity : r.get "entity_l1_address" = or (binding.prop "entity_l1_address") (some (.str entityAddress)) := by
    rw [← Except.ok.inj h]
    simp
  have hshown : r.get "status" = some (.str status) := by
    rw [← Except.ok.inj h]
    simp
  constructor
  · cases h
    constructor
    · intro hwhole
      exact hwhole ("controller_key_l1_address", controllerKey binding) (by simp)
    · intro hkey f hf
      simp only [List.mem_cons, List.not_mem_nil, or_false] at hf
      rcases hf with rfl | rfl | rfl | rfl | rfl | rfl
      · rfl
      · exact isSome_or rfl
      · exact hkey
      · rfl
      · exact isSome_or rfl
      · rfl
  · unfold published Published
    rw [hentity, hshown, Bool.and_eq_true, List.any_eq_true]
    refine and_congr_right fun _ => ⟨?_, ?_⟩
    · rintro ⟨name, hname, heq⟩
      have heq : status = name := by simpa using strictEq_str_iff.mp heq
      exact ⟨name, hname, heq ▸ hstatus⟩
    · rintro ⟨name, hname, heq⟩
      rw [hstatus] at heq
      cases heq
      exact ⟨status, hname, strictEq_str_iff.mpr rfl⟩

/-- The bindings that are published have no gap just when their keys are named. -/
theorem whole_bindings_iff {input : EnvelopeInput} {rs : List Record}
    (h : controllerBindingsForLedger p input.ledger input.entityAddress = .ok rs) :
    (∀ r ∈ rs, r.Whole) ↔ KeysNamed input := by
  unfold controllerBindingsForLedger at h
  obtain ⟨bindings, hbindings, h⟩ := bind_eq_ok.mp h
  obtain ⟨normalized, hnormalized, h⟩ := bind_eq_ok.mp h
  cases h
  constructor
  · intro hall bindings' hbindings' binding hmem hpublished
    rw [hbindings] at hbindings'
    cases hbindings'
    obtain ⟨r, hr⟩ := exists_mapM.mp ⟨normalized, hnormalized⟩ binding hmem
    have hspec := normalized_of_ok hr
    refine hspec.whole.mp (hall r (List.mem_filter.mpr ⟨?_, hspec.published.mpr hpublished⟩))
    exact (mem_mapM hnormalized).mpr ⟨binding, hmem, hr⟩
  · intro hkeys r hr
    obtain ⟨hr, hpublished⟩ := List.mem_filter.mp hr
    obtain ⟨binding, hmem, hr⟩ := (mem_mapM hnormalized).mp hr
    have hspec := normalized_of_ok hr
    exact hspec.whole.mpr (hkeys bindings hbindings binding hmem (hspec.published.mp hpublished))

/-- A proposal that is published has a key. -/
theorem whole_proposals {ledger : Option Json} {entityAddress : String} {rs : List Record}
    (h : controllerBindingProposalsForLedger p ledger entityAddress = .ok rs) : ∀ r ∈ rs, r.Whole := by
  unfold controllerBindingProposalsForLedger at h
  obtain ⟨proposals, -, h⟩ := bind_eq_ok.mp h
  obtain ⟨own, -, h⟩ := bind_eq_ok.mp h
  obtain ⟨normalized, hnormalized, h⟩ := bind_eq_ok.mp h
  cases h
  intro r hr
  obtain ⟨hr, hkey⟩ := List.mem_filter.mp hr
  obtain ⟨proposal, -, hr⟩ := (mem_mapM hnormalized).mp hr
  unfold normalizeProposal at hr
  obtain ⟨proposal_id, -, hr⟩ := bind_eq_ok.mp hr
  obtain ⟨controller_type, -, hr⟩ := bind_eq_ok.mp hr
  obtain ⟨status, -, hr⟩ := bind_eq_ok.mp hr
  have hproposed : r.get "proposed_controller_key_l1_address" =
      or (or (proposal.prop "proposed_controller_key_l1_address") (proposal.prop "key_l1_address"))
        (proposal.prop "controller_l1_address") := by
    rw [← Except.ok.inj hr]
    simp
  rw [hproposed] at hkey
  cases hr
  intro f hf
  simp only [List.mem_cons, List.not_mem_nil, or_false] at hf
  rcases hf with rfl | rfl | rfl | rfl | rfl | rfl | rfl | rfl | rfl
  · rfl
  · exact isSome_or rfl
  · exact isSome_of_truthy hkey
  · rfl
  · rfl
  · exact isSome_or rfl
  · rfl
  · rfl
  · exact isSome_or rfl

theorem isSome_get_of_whole {r : Record} {k : String} (h : r.Whole) (hk : k ∈ r.names) : (r.get k).isSome = true := by
  induction r with
  | nil => cases hk
  | cons f r ih =>
    obtain ⟨k', v⟩ := f
    obtain ⟨hv, hr⟩ := List.forall_mem_cons.mp h
    rw [Record.get_cons]
    split
    · obtain ⟨v, rfl⟩ := Option.isSome_iff_exists.mp hv
      rfl
    · next hne => exact ih hr ((List.mem_cons.mp hk).resolve_left hne)

/-- A revocation copies the binding. -/
theorem whole_revocations {bindings rs : List Record} (h : revocationObservationsForBindings p bindings = .ok rs)
    (hbindings : ∀ r ∈ bindings, r.Whole ∧ ∀ k ∈ ["binding_id", "controller_key_l1_address", "observed_at"], k ∈ r.names) :
    ∀ r ∈ rs, r.Whole := by
  intro r hr
  obtain ⟨binding, hmem, hr⟩ := (mem_mapM h).mp hr
  obtain ⟨hwhole, hnames⟩ := hbindings binding (List.mem_filter.mp hmem).1
  unfold revocationObservation at hr
  obtain ⟨revocation_id, -, hr⟩ := bind_eq_ok.mp hr
  cases hr
  intro f hf
  simp only [List.mem_cons, List.not_mem_nil, or_false] at hf
  rcases hf with rfl | rfl | rfl | rfl | rfl
  · rfl
  · exact isSome_get_of_whole hwhole (hnames _ (by simp))
  · exact isSome_get_of_whole hwhole (hnames _ (by simp))
  · exact isSome_get_of_whole hwhole (hnames _ (by simp))
  · rfl

/-! ## What is created -/

def payloadNames : List String :=
  ["schema_version", "envelope_id", "entity_l1_address", "device_key_l1_address", "sequence",
    "previous_state_hash", "issued_at", "expires_at", "observed_epoch", "controller_bindings",
    "controller_binding_proposals", "revocation_observations", "provider_state_proof"]

structure Payload (p : Node.Platform) (input : EnvelopeInput) (payload : Draft) : Prop where
  names : payload.map Prod.fst = payloadNames
  version : payload.lookup "schema_version" = some (.json (.str IDENTITY_STATE_ENVELOPE_VERSION))
  device : payload.lookup "device_key_l1_address" = some (.json (.str input.deviceKeyAddress))
  expires : ∃ expiresAt, Node.toISOString p input.expiresAt = .ok expiresAt ∧
    payload.lookup "expires_at" = some (.json (.str expiresAt))
  whole : payload.Whole ↔ KeysNamed input

/-- The bindings that a revocation copies have the fields it copies. -/
theorem names_of_binding {input : EnvelopeInput} {bindings : List Record}
    (h : controllerBindingsForLedger p input.ledger input.entityAddress = .ok bindings) :
    ∀ r ∈ bindings, ∀ k ∈ ["binding_id", "controller_key_l1_address", "observed_at"], k ∈ r.names := by
  unfold controllerBindingsForLedger at h
  obtain ⟨listed, -, h⟩ := bind_eq_ok.mp h
  obtain ⟨normalized, hnormalized, h⟩ := bind_eq_ok.mp h
  cases h
  intro r hr k hk
  obtain ⟨binding, -, hr⟩ := (mem_mapM hnormalized).mp (List.mem_filter.mp hr).1
  unfold normalizeControllerBinding at hr
  obtain ⟨own, -, hr⟩ := bind_eq_ok.mp hr
  obtain ⟨binding_id, -, hr⟩ := bind_eq_ok.mp hr
  obtain ⟨status, -, hr⟩ := bind_eq_ok.mp hr
  cases hr
  simp only [List.mem_cons, List.not_mem_nil, or_false] at hk
  rcases hk with rfl | rfl | rfl <;> simp [Record.names]

theorem payload_of_ok {input : EnvelopeInput} {payload : Draft} (h : statePayload p input = .ok payload) :
    Payload p input payload := by
  unfold statePayload at h
  obtain ⟨bindings, hbindings, h⟩ := bind_eq_ok.mp h
  obtain ⟨proposals, hproposals, h⟩ := bind_eq_ok.mp h
  obtain ⟨issued_at, -, h⟩ := bind_eq_ok.mp h
  obtain ⟨sequenceText, -, h⟩ := bind_eq_ok.mp h
  obtain ⟨sequence, -, h⟩ := bind_eq_ok.mp h
  obtain ⟨expires_at, hexpires, h⟩ := bind_eq_ok.mp h
  obtain ⟨observed_epoch, -, h⟩ := bind_eq_ok.mp h
  obtain ⟨revocations, hrevocations, h⟩ := bind_eq_ok.mp h
  cases h
  refine ⟨rfl, rfl, rfl, ⟨expires_at, hexpires, rfl⟩, ?_⟩
  rw [← whole_bindings_iff hbindings]
  constructor
  · intro hwhole
    exact hwhole ("controller_bindings", .records bindings) (by simp)
  · intro hwhole f hf
    have hrevoked := whole_revocations hrevocations fun r hr => ⟨hwhole r hr, names_of_binding hbindings r hr⟩
    simp only [List.mem_cons, List.not_mem_nil, or_false] at hf
    rcases hf with rfl | rfl | rfl | rfl | rfl | rfl | rfl | rfl | rfl | rfl | rfl | rfl | rfl
    all_goals first
      | exact trivial
      | exact hwhole
      | exact whole_proposals hproposals
      | exact hrevoked

theorem without_eq_self {d : Draft} {hidden : List String} (h : ∀ k ∈ d.map Prod.fst, k ∉ hidden) :
    d.without hidden = d :=
  List.filter_eq_self.mpr fun f hf => decide_eq_true (h f.1 (List.mem_map_of_mem hf))

/-- The text that is signed. -/
def signedText (p : Node.Platform) (payload : Draft) : String :=
  stableStringify (payload ++ [("state_hash", .json (.str (sha256Ref p (stableStringify payload))))])

/-- The envelope over the payload, with the value of its signature. -/
def sealed (p : Node.Platform) (input : EnvelopeInput) (payload : Draft) (value : String) : Draft :=
  payload ++ [("signature", .json (signatureOf input.signatureAlgorithm input.deviceKeyAddress value)),
    ("state_hash", .json (.str (sha256Ref p (stableStringify payload))))]

theorem create_eq_ok {input : EnvelopeInput} {privateKey : String} {salt : Nat} {envelope : Draft}
    (hkey : privateKey ≠ "")
    (h : createIdentityStateEnvelope p scheme input (some privateKey) salt = .ok envelope) :
    ∃ payload, Payload p input payload ∧ supported input.signatureAlgorithm = true ∧
      envelope = sealed p input payload
        (scheme.sign input.signatureAlgorithm privateKey (signedText p payload) salt) := by
  have hpresent : (some privateKey).filter (· ≠ "") = some privateKey :=
    Option.filter_eq_some_iff.mpr ⟨rfl, decide_eq_true hkey⟩
  unfold createIdentityStateEnvelope at h
  rw [hpresent] at h
  obtain ⟨payload, hpayload, h⟩ := bind_eq_ok.mp h
  dsimp only at h
  have hspec := payload_of_ok hpayload
  have hfresh : ∀ hidden : List String, (∀ k ∈ payloadNames, k ∉ hidden) → payload.without hidden = payload :=
    fun hidden hdisjoint => without_eq_self (hspec.names ▸ hdisjoint)
  have hhash : ∀ v, stateHashForEnvelope p (payload ++ [("signature", .json v)]) =
      sha256Ref p (stableStringify payload) := by
    intro v
    have hstate : (payload ++ [("signature", Part.json v)] : Draft).without ["state_hash", "signature"] = payload := by
      unfold Draft.without
      rw [List.filter_append]
      exact (congrArg (· ++ []) (hfresh ["state_hash", "signature"] (by decide))).trans (List.append_nil _)
    unfold stateHashForEnvelope
    rw [hstate]
  rw [hhash] at h
  have hsigned : ∀ v w, ((payload ++ [("signature", Part.json v)]) ++ [("state_hash", Part.json w)] : Draft).without
      ["signature"] = payload ++ [("state_hash", Part.json w)] := by
    intro v w
    unfold Draft.without
    rw [List.filter_append, List.filter_append]
    exact congrArg (· ++ [] ++ [("state_hash", Part.json w)]) (hfresh ["signature"] (by decide)) |>.trans
      (by rw [List.append_nil])
  obtain ⟨signature, hsignature, h⟩ := bind_eq_ok.mp h
  unfold signIdentityStateEnvelope at hsignature
  obtain ⟨value, hvalue, hsignature⟩ := bind_eq_ok.mp hsignature
  cases hsignature
  rw [hsigned] at hvalue
  unfold signBytes at hvalue
  split at hvalue
  · next hsupported =>
    cases hvalue
    refine ⟨payload, hspec, hsupported, ?_⟩
    cases h
    unfold withField sealed
    rw [List.map_append, List.map_append, List.append_assoc]
    congr 1
    refine (List.map_congr_left fun f hf => ?_).trans (List.map_id payload)
    have hname : f.1 ∈ payloadNames := hspec.names ▸ List.mem_map_of_mem hf
    rw [if_neg]
    · rfl
    · intro heq
      rw [heq] at hname
      exact absurd hname (by decide)
  · cases hvalue

/-! ## Under one signature -/

/-- With the key pair a signature verifies exactly on the text that was signed. -/
def Exact (scheme : SignatureScheme) (algorithm privateKey : String) (publicKey : Json) : Prop :=
  ∀ text salt text', scheme.verify algorithm publicKey text' (scheme.sign algorithm privateKey text salt) =
    decide (text' = text)

/-- The object carries the signature, its keys in any order. -/
def Carries (fs : Fields) (algorithm signedBy value : String) : Prop :=
  (fs.get "signature").map Json.canon = some (signatureOf algorithm signedBy value).canon

theorem prop_of_carries {fs : Fields} {algorithm signedBy value : String} (h : Carries fs algorithm signedBy value) :
    (fs.get "signature").bind (·.prop "algorithm") = some (.str algorithm) ∧
    (fs.get "signature").bind (·.prop "signed_by_key_l1_address") = some (.str signedBy) ∧
    (fs.get "signature").bind (·.prop "value") = some (.str value) := by
  obtain ⟨signature, hsignature, hcanon⟩ := Option.map_eq_some_iff.mp h
  rw [hsignature]
  exact ⟨prop_str_of_canon hcanon rfl, prop_str_of_canon hcanon rfl, prop_str_of_canon hcanon rfl⟩

section
variable {fs : Fields} {input : EnvelopeInput} {privateKey text : String} {publicKey : Json} {salt : Nat}
  {trusted : Fields}

theorem trusted_of_carries {algorithm value : String} (hcarries : Carries fs algorithm input.deviceKeyAddress value)
    (htrusted : trusted.get input.deviceKeyAddress = some publicKey) (htruthy : publicKey.truthy = true) :
    trustedPublicKeyFor (.obj fs) trusted = .ok (some publicKey) := by
  have hkey : trustedKey trusted (some (.str input.deviceKeyAddress)) = .ok (some publicKey) := by
    unfold trustedKey
    simp only [toStr_str, ok_bind, htrusted]
    rfl
  have hsigned : ((Json.obj fs).prop "signature").bind (·.prop "signed_by_key_l1_address") =
      some (.str input.deviceKeyAddress) := (prop_of_carries hcarries).2.1
  unfold trustedPublicKeyFor
  rw [hsigned, hkey, ok_bind]
  exact if_pos htruthy

/-- The signature that is carried verifies on the text that was signed, and on no other. -/
theorem verifyBytes_iff (hexact : Exact scheme input.signatureAlgorithm privateKey publicKey)
    (hsupported : supported input.signatureAlgorithm = true)
    (hcarries : Carries fs input.signatureAlgorithm input.deviceKeyAddress
      (scheme.sign input.signatureAlgorithm privateKey text salt)) {text' : String} :
    verifyBytes scheme (((Json.obj fs).prop "signature").bind (·.prop "algorithm")) publicKey text'
      (((Json.obj fs).prop "signature").bind (·.prop "value")) = true ↔ text' = text := by
  obtain ⟨halgorithm, -, hvalue⟩ := prop_of_carries hcarries
  have halgorithm : ((Json.obj fs).prop "signature").bind (·.prop "algorithm") =
      some (.str input.signatureAlgorithm) := halgorithm
  have hvalue : ((Json.obj fs).prop "signature").bind (·.prop "value") =
      some (.str (scheme.sign input.signatureAlgorithm privateKey text salt)) := hvalue
  rw [halgorithm, hvalue]
  unfold verifyBytes
  rw [toStr_or_empty]
  dsimp only
  rw [hsupported, Bool.true_and, hexact, decide_eq_true_iff]

end

/-- The envelope as it arrives. -/
theorem prop_sealed {input : EnvelopeInput} {payload : Draft} (value : String) (h : Payload p input payload) :
    (sent (sealed p input payload value)).prop "schema_version" = some (.str IDENTITY_STATE_ENVELOPE_VERSION) ∧
    (sent (sealed p input payload value)).prop "device_key_l1_address" = some (.str input.deviceKeyAddress) ∧
    (sent (sealed p input payload value)).prop "signature" =
      some (signatureOf input.signatureAlgorithm input.deviceKeyAddress value) ∧
    (sent (sealed p input payload value)).prop "state_hash" =
      some (.str (sha256Ref p (stableStringify payload))) ∧
    ∃ expiresAt, Node.toISOString p input.expiresAt = .ok expiresAt ∧
      (sent (sealed p input payload value)).prop "expires_at" = some (.str expiresAt) := by
  have hnone : ∀ k, k ∉ payloadNames → payload.lookup k = none := by
    intro k hk
    rw [List.lookup_eq_none_iff]
    intro f hf
    have hne : k ≠ f.1 := fun heq => hk (heq ▸ h.names ▸ List.mem_map_of_mem hf)
    exact bne_iff_ne.mpr hne
  obtain ⟨expiresAt, hiso, hexpires⟩ := h.expires
  refine ⟨?_, ?_, ?_, ?_, expiresAt, hiso, ?_⟩ <;> rw [prop_sent, sealed, List.lookup_append]
  · rw [h.version]
    rfl
  · rw [h.device]
    rfl
  · rw [hnone _ (by decide)]
    rfl
  · rw [hnone _ (by decide)]
    rfl
  · rw [hexpires]
    rfl

theorem without_sealed {input : EnvelopeInput} {payload : Draft} {value : String} (h : Payload p input payload) :
    (sealed p input payload value).without ["signature"] =
      payload ++ [("state_hash", .json (.str (sha256Ref p (stableStringify payload))))] ∧
    (sealed p input payload value).without ["state_hash", "signature"] = payload := by
  have hfresh : ∀ hidden : List String, (∀ k ∈ payloadNames, k ∉ hidden) →
      payload.filter (fun f => f.1 ∉ hidden) = payload :=
    fun hidden hdisjoint => without_eq_self (h.names ▸ hdisjoint)
  unfold sealed Draft.without
  constructor
  · rw [List.filter_append, hfresh ["signature"] (by decide)]
    rfl
  · rw [List.filter_append, hfresh ["state_hash", "signature"] (by decide)]
    exact List.append_nil payload

theorem whole_append {payload : Draft} {k : String} {v : Json} :
    Draft.Whole (payload ++ [(k, .json v)]) ↔ payload.Whole := by
  constructor
  · intro h f hf
    exact h f (List.mem_append_left _ hf)
  · intro h f hf
    rcases List.mem_append.mp hf with hf | hf
    · exact h f hf
    · rw [List.mem_singleton.mp hf]
      exact trivial

theorem names_of_sent {d : Draft} {fs : Fields} (h : sent d = .obj fs) : fs.map Prod.fst = d.map Prod.fst := by
  unfold sent Draft.value at h
  rw [Json.written, Json.writtenFields_eq_map] at h
  obtain rfl := Json.obj.inj h
  rw [List.map_map, List.map_map]
  rfl

theorem names_sealed {input : EnvelopeInput} {payload : Draft} {value : String} (h : Payload p input payload) :
    (sealed p input payload value).map Prod.fst = payloadNames ++ ["signature", "state_hash"] := by
  rw [sealed, List.map_append, h.names]
  rfl

/-- What arrives has the text that was signed, where nothing was left out on the way. -/
theorem signedText_iff {input : EnvelopeInput} {payload : Draft} (value : String) (h : Payload p input payload) :
    Node.stableStringify (withoutKeys (sent (sealed p input payload value)) ["signature"]) = signedText p payload ↔
      KeysNamed input := by
  rw [withoutKeys_sent, (without_sealed h).1, ← h.whole]
  constructor
  · intro heq
    by_contra hwhole
    exact stableStringify_ne (fun hall => hwhole (whole_append.mp hall)) heq.symm
  · intro hwhole
    exact (stableStringify_of_whole (whole_append.mpr hwhole)).symm

/-- The envelope is accepted until it expires, and under its signature no other object ever is. -/
def Survives (p : Node.Platform) (scheme : SignatureScheme) (trusted : Fields) (expiresAt : Int) (envelope : Draft) :
    Prop :=
  (∀ now : Int, now < expiresAt →
    Accepts p scheme (sent envelope) { trustedDeviceKeys := trusted, now := .int now }) ∧
  ∀ (other : Fields) (options : VerifyOptions), (other.map Prod.fst).Nodup → options.trustedDeviceKeys = trusted →
    (other.get "signature").map Json.canon = ((sent envelope).prop "signature").map Json.canon →
    ¬ Json.Same (Json.obj other).written (sent envelope) → ¬ Accepts p scheme (.obj other) options

theorem survives_iff {input : EnvelopeInput} {privateKey : String} {publicKey : Json} {salt : Nat}
    {trusted : Fields} {envelope : Draft} {e : Int} (hkey : privateKey ≠ "")
    (hcreate : createIdentityStateEnvelope p scheme input (some privateKey) salt = .ok envelope)
    (hexact : Exact scheme input.signatureAlgorithm privateKey publicKey)
    (htrusted : trusted.get input.deviceKeyAddress = some publicKey) (htruthy : publicKey.truthy = true)
    (he : input.expiresAt = .int e) (hdate : p.parseDate (p.isoDate e) = .int e) :
    Survives p scheme trusted e envelope ↔ KeysNamed input ∧ e ≠ 0 := by
  obtain ⟨payload, hpayload, hsupported, rfl⟩ := create_eq_ok hkey hcreate
  obtain ⟨hversion, hdevice, hsignature, hhash, expiresAt, hiso, hexpires⟩ := prop_sealed
    (scheme.sign input.signatureAlgorithm privateKey (signedText p payload) salt) hpayload
  rw [he] at hiso
  obtain rfl : p.isoDate e = expiresAt := Except.ok.inj hiso
  obtain ⟨fs, hfs⟩ : ∃ fs, sent (sealed p input payload
      (scheme.sign input.signatureAlgorithm privateKey (signedText p payload) salt)) = .obj fs := ⟨_, rfl⟩
  have hcarries : Carries fs input.signatureAlgorithm input.deviceKeyAddress
      (scheme.sign input.signatureAlgorithm privateKey (signedText p payload) salt) := by
    rw [hfs] at hsignature
    exact congrArg (Option.map Json.canon) hsignature
  have haccepts : ∀ options : VerifyOptions, options.trustedDeviceKeys = trusted →
      (Accepts p scheme (.obj fs) options ↔ Passes p scheme (.obj fs) options (p.isoDate e) publicKey) := by
    rintro options rfl
    rw [accepts_iff htruthy (trusted_of_carries hcarries htrusted htruthy), ← hfs, hexpires, toStr_or_empty]
    simp
  have hsigned := signedText_iff
    (scheme.sign input.signatureAlgorithm privateKey (signedText p payload) salt) hpayload
  unfold Survives
  rw [hfs] at hversion hdevice hsignature hhash hsigned ⊢
  constructor
  · rintro ⟨hfresh, -⟩
    have hpasses := (haccepts _ rfl).mp (hfresh (e - 1) (by omega))
    refine ⟨hsigned.mp ((verifyBytes_iff hexact hsupported hcarries).mp hpasses.signature), ?_⟩
    rintro rfl
    have hdated := hpasses.dated
    rw [hdate] at hdated
    cases hdated
  · rintro ⟨hkeys, he0⟩
    refine ⟨fun now hnow => (haccepts _ rfl).mpr ?_, fun other options hnodup hoptions hsame hother haccepted => ?_⟩
    · constructor
      · rw [hversion]
        exact strictEq_str_iff.mpr rfl
      · rfl
      · rw [hhash, ← hfs, withoutKeys_sent, (without_sealed hpayload).2,
          ← stableStringify_of_whole (hpayload.whole.mpr hkeys)]
        exact strictEq_str_iff.mpr rfl
      · rw [hdate]
        exact bne_iff_ne.mpr he0
      · rw [hdate]
        show Number.le (.int e) (Node.timeClip (.int now)) = false
        unfold Node.timeClip
        dsimp only
        split
        · rw [Number.int_le_int]
          exact decide_eq_false (by omega)
        · simp [Number.le]
      · rw [hsignature, hdevice]
        exact strictEq_str_iff.mpr rfl
      · exact (verifyBytes_iff hexact hsupported hcarries).mpr (hsigned.mpr hkeys)
    · rw [hsignature] at hsame
      have hcarriesOther : Carries other input.signatureAlgorithm input.deviceKeyAddress
          (scheme.sign input.signatureAlgorithm privateKey (signedText p payload) salt) := hsame
      have htrustedOther : trustedPublicKeyFor (.obj other) options.trustedDeviceKeys = .ok (some publicKey) := by
        rw [hoptions]
        exact trusted_of_carries hcarriesOther htrusted htruthy
      obtain ⟨_, -, hpasses⟩ := (accepts_iff htruthy htrustedOther).mp haccepted
      have htext := (verifyBytes_iff hexact hsupported hcarriesOther).mp hpasses.signature
      have hsameText : Node.stableStringify (withoutKeys (.obj other) ["signature"]) =
          Node.stableStringify (withoutKeys (.obj fs) ["signature"]) := htext.trans (hsigned.mpr hkeys).symm
      have hnames : (fs.map Prod.fst).Nodup := by
        rw [names_of_sent hfs, names_sealed hpayload]
        decide
      have hsigned' : (other.get "signature").map (Json.canon ∘ Json.written) =
          (Fields.get fs "signature").map (Json.canon ∘ Json.written) := by
        have hboth := congrArg (Option.map Json.written) (hsame.trans (congrArg (Option.map Json.canon) hsignature).symm)
        simpa only [Option.map_map, Function.comp_def, Json.written_canon, Json.prop_obj] using hboth
      refine hother ?_
      have hresult := same_of_without hnodup hnames hsigned' (String.ofList_inj.mp hsameText)
      have hwritten : (Json.obj fs).written = .obj fs := by
        rw [← hfs]
        exact Json.written_of_finite (Json.finite_written _)
      rwa [hwritten] at hresult

/-- An envelope survives transport just when the bindings it publishes name their controller keys, and it
does not expire at the epoch itself. -/
theorem envelope_survives_iff (p : Node.Platform) (scheme : SignatureScheme) (input : EnvelopeInput)
    (privateKey : String) (publicKey : Json) (salt : Nat) (trusted : Fields) (envelope : Draft) (e : Int)
    (hkey : privateKey ≠ "")
    (hcreate : createIdentityStateEnvelope p scheme input (some privateKey) salt = .ok envelope)
    (hexact : Exact scheme input.signatureAlgorithm privateKey publicKey)
    (htrusted : trusted.get input.deviceKeyAddress = some publicKey) (htruthy : publicKey.truthy = true)
    (he : input.expiresAt = .int e) (hdate : p.parseDate (p.isoDate e) = .int e) :
    Survives p scheme trusted e envelope ↔ KeysNamed input ∧ e ≠ 0 :=
  survives_iff hkey hcreate hexact htrusted htruthy he hdate

section Example

theorem tenMinutesText_ne_empty (_ : Int) : "1970-01-01T00:10:00.000Z" ≠ "" := by decide

/-- A platform whose only date is ten minutes after the epoch. -/
def tenMinutes : Node.Platform where
  toHost := Realm.Host.ofTable [] [] Realm.Host.no_digests
  lower := id
  upper := id
  nfc := id
  parseDate := fun _ => .int 600000
  isoDate := fun _ => "1970-01-01T00:10:00.000Z"
  lower_lower := Eq.refl
  isoDate_ne_empty := tenMinutesText_ne_empty

/-- Signs a text with the text itself. -/
def textScheme : SignatureScheme where
  sign _ _ payload _ := payload
  verify _ _ payload signature := decide (payload = signature)

theorem textScheme_exact (algorithm privateKey : String) (publicKey : Json) :
    Exact textScheme algorithm privateKey publicKey := fun _ _ _ => rfl

/-- The envelope of an entity, at the epoch. -/
def epochInput (ledger : Option Json) : EnvelopeInput :=
  { ledger, entityAddress := "sl1_entity", deviceKeyAddress := "sl1_device", sequence := none,
    previousStateHash := none, observedEpoch := none, providerStateProof := none, now := .int 0,
    ttlMs := .int 600000, signatureAlgorithm := "ed25519" }

/-- A ledger with an active binding that has no controller key. -/
def keylessLedger : Json := .obj [("controller_bindings", .arr [.obj []])]

theorem created_of_isSome {input : EnvelopeInput}
    (h : (createIdentityStateEnvelope tenMinutes textScheme input (some "key") 0).toOption.isSome = true) :
    ∃ envelope, createIdentityStateEnvelope tenMinutes textScheme input (some "key") 0 = .ok envelope := by
  cases hcreate : createIdentityStateEnvelope tenMinutes textScheme input (some "key") 0 with
  | ok envelope => exact ⟨envelope, rfl⟩
  | error e =>
    rw [hcreate] at h
    cases h

theorem created_without_ledger :
    ∃ envelope, createIdentityStateEnvelope tenMinutes textScheme (epochInput none) (some "key") 0 = .ok envelope :=
  created_of_isSome (by decide +kernel)

theorem created_with_keyless : ∃ envelope,
    createIdentityStateEnvelope tenMinutes textScheme (epochInput (some keylessLedger)) (some "key") 0 = .ok envelope :=
  created_of_isSome (by decide +kernel)

def deviceKeys : Fields := [("sl1_device", .str "pub")]

theorem keyless_not_named : ¬ KeysNamed (epochInput (some keylessLedger)) := by
  intro h
  have hsome := h [.obj []] rfl (.obj []) (List.mem_singleton_self _) ⟨by decide +kernel, "active", by simp, rfl⟩
  cases hsome

/-- An envelope that its own receiver refuses: a binding is published without a controller key. -/
theorem keyless_envelope_refused : ¬ ∀ (p : Node.Platform) (scheme : SignatureScheme) (input : EnvelopeInput)
    (privateKey : String) (publicKey : Json) (salt : Nat) (trusted : Fields) (envelope : Draft) (e : Int),
    privateKey ≠ "" → createIdentityStateEnvelope p scheme input (some privateKey) salt = .ok envelope →
    Exact scheme input.signatureAlgorithm privateKey publicKey →
    trusted.get input.deviceKeyAddress = some publicKey → publicKey.truthy = true →
    input.expiresAt = .int e → p.parseDate (p.isoDate e) = .int e → Survives p scheme trusted e envelope := by
  intro hall
  obtain ⟨envelope, hcreate⟩ := created_with_keyless
  have hsurvives := hall tenMinutes textScheme _ "key" (.str "pub") 0 deviceKeys envelope 600000 (by decide) hcreate
    (textScheme_exact _ _ _) rfl rfl rfl rfl
  exact keyless_not_named ((survives_iff (by decide) hcreate (textScheme_exact _ _ _) rfl rfl rfl rfl).mp hsurvives).1

theorem plain_envelope_survives : ∃ envelope,
    createIdentityStateEnvelope tenMinutes textScheme (epochInput none) (some "key") 0 = .ok envelope ∧
    (Survives tenMinutes textScheme deviceKeys 600000 envelope ↔ KeysNamed (epochInput none) ∧ (600000 : Int) ≠ 0) := by
  obtain ⟨envelope, hcreate⟩ := created_without_ledger
  exact ⟨envelope, hcreate, envelope_survives_iff _ _ _ "key" (.str "pub") 0 _ _ _ (by decide) hcreate
    (textScheme_exact _ _ _) rfl rfl rfl rfl⟩

end Example

end SimpleL1.Mesh
