import SimpleL1.Interpreter.Value
import SimpleL1.Realm.Acceptance
import SimpleL1.Realm.Encoding
import SimpleL1.Realm.Founding

/-!
# The interpreter's proposal check

`validateRealmEventProposal` of the second implementation reads a projection as
JSON and a proposal as it is: no string is trimmed before it is compared, and an
active device may issue what a root may. `Misjudged` lists the proposals it
accepts and the registry's rules refuse: `accepts_as_registered_iff`.
-/

namespace SimpleL1.Interpreter

open SimpleL1.Js SimpleL1.Realm

def knownEventTypes : List String :=
  ["ROOT_AUTHORITY_CREATED", "DEVICE_KEY_ISSUED", "SESSION_AUTHORITY_ISSUED"]

structure ValidationResult where
  ok : Bool
  reason_codes : List String

def normalizeProposal (proposal : Json) : Json :=
  .obj [("envelope", readEnvelope proposal),
    ("payload", ((proposal.prop "payload").filter isObject).getD (.obj []))]

def isNonEmptyString (value : Option Json) : Bool :=
  ((value.bind asStr).map fun text => strTrim text != "").getD false

/-- `value >= 1.0 && value.fract() == 0.0`. -/
def isSequence (value : Number) : Bool := Number.le (.int 1) value && value.isInteger

def validateEnvelope (envelope : Json) : List String :=
  let eventType := ((envelope.prop "type").bind asStr).getD ""
  let typeCodes := if isNonEmptyString (envelope.prop "type") then [] else ["ENVELOPE_TYPE_REQUIRED"]
  if !knownEventTypes.contains eventType then typeCodes ++ ["UNKNOWN_REALM_EVENT_TYPE"]
  else
    typeCodes
      ++ (if isNonEmptyString (envelope.prop "signer") then [] else ["ENVELOPE_SIGNER_REQUIRED"])
      ++ (if isNonEmptyString (envelope.prop "authority_reference") then []
        else ["ENVELOPE_AUTHORITY_REFERENCE_REQUIRED"])
      ++ (if ((envelope.prop "sequence").bind asF64).map isSequence = some true then []
        else ["ENVELOPE_SEQUENCE_INVALID"])
      ++ (if isNonEmptyString (envelope.prop "timestamp") then [] else ["ENVELOPE_TIMESTAMP_REQUIRED"])

section
variable (state : Json)

def statePointerStatus (pointer : String) : String :=
  (((state.prop pointer).bind (·.prop "status")).bind asStr).getD "active"

def isActiveRoot (signerRef : String) : Bool :=
  ((((state.prop "rootAuthority").filter (!isNull ·)).bind fun root =>
      ((root.prop "authorityRef").or (root.prop "id")).bind asStr).map fun authorityRef =>
    authorityRef == signerRef && statePointerStatus state "rootAuthority" == "active").getD false

/-- The name a device is compared by. -/
def deviceAuthorityRef (device : Json) : String :=
  ((((device.prop "authorityRef").or (device.prop "authority")).or (device.prop "id")).bind
    asStr).getD ""

def isActiveDevice (signerRef : String) : Bool :=
  (((state.prop "devices").bind asArray).map fun devices => devices.any fun device =>
    deviceAuthorityRef device == signerRef
      && (device.prop "status").bind asStr == some "active").getD false

def canSignerIssueEvent (signerRef eventType : String) : Bool :=
  match eventType with
  | "ROOT_AUTHORITY_CREATED" =>
    ((state.prop "rootAuthority").map isNull).getD false && signerRef != ""
  | "DEVICE_KEY_ISSUED" | "SESSION_AUTHORITY_ISSUED" =>
    isActiveRoot state signerRef || isActiveDevice state signerRef
  | _ => false

def validateAuthorityTransition (envelope : Json) : List String :=
  let eventType := ((envelope.prop "type").bind asStr).getD ""
  if !knownEventTypes.contains eventType then ["UNKNOWN_REALM_EVENT_TYPE"]
  else
    let signer := ((envelope.prop "signer").bind asStr).getD ""
    if !canSignerIssueEvent state signer eventType then ["AUTHORITY_TRANSITION_DENIED"] else []

def validateRealmEventProposal (proposal : Json) : ValidationResult :=
  let envelope := ((normalizeProposal proposal).prop "envelope").getD (.obj [])
  let envelopeCodes := validateEnvelope envelope
  let reasonCodes :=
    if envelopeCodes.isEmpty then envelopeCodes ++ validateAuthorityTransition state envelope
    else envelopeCodes
  ⟨reasonCodes.isEmpty, reasonCodes⟩

end

/-! ## What it accepts -/

/-- The types of `knownEventTypes`. -/
def checkedTypes : List EventType := [.rootAuthorityCreated, .deviceKeyIssued, .sessionAuthorityIssued]

theorem contains_knownEventTypes {type : String} :
    knownEventTypes.contains type = true ↔ ∃ t ∈ checkedTypes, type = t.name := by
  simp [knownEventTypes, checkedTypes, EventType.name]

theorem isNonEmptyString_iff {value : Option Json} :
    isNonEmptyString value = true ↔ ∃ s, value = some (.str s) ∧ strTrim s ≠ "" := by
  unfold isNonEmptyString
  cases h : value.bind asStr with
  | none =>
    constructor
    · intro hno; cases hno
    · rintro ⟨s, rfl, -⟩; cases h
  | some s =>
    cases bind_asStr_eq_some.mp h
    simp

/-- The envelope has the fields the interpreter asks for, and they are in order. -/
structure Stated (envelope : Json) (t : EventType) (signer reference timestamp : String) : Prop where
  known : t ∈ checkedTypes
  hasType : envelope.prop "type" = some (.str t.name)
  hasSigner : envelope.prop "signer" = some (.str signer)
  hasReference : envelope.prop "authority_reference" = some (.str reference)
  hasTimestamp : envelope.prop "timestamp" = some (.str timestamp)
  hasSequence : ∃ n, envelope.prop "sequence" = some (.num n) ∧ isSequence n = true
  visible : strTrim signer ≠ "" ∧ strTrim reference ≠ "" ∧ strTrim timestamp ≠ ""

theorem strTrim_name {t : EventType} (h : t ∈ checkedTypes) : strTrim t.name ≠ "" := by
  revert t
  decide

theorem validateEnvelope_eq_nil {envelope : Json} :
    validateEnvelope envelope = [] ↔
      ∃ t signer reference timestamp, Stated envelope t signer reference timestamp := by
  unfold validateEnvelope
  constructor
  · intro h
    dsimp only at h
    split at h
    · exact absurd h (by simp)
    next hknown =>
    simp only [Bool.not_eq_true', Bool.not_eq_false, contains_knownEventTypes] at hknown
    simp only [List.append_eq_nil_iff, ite_nil, isNonEmptyString_iff] at h
    obtain ⟨⟨⟨⟨⟨_, htype, -⟩, signer, hsigner, hs⟩, reference, href, hr⟩, hseq⟩, time, htime, ht⟩ := h
    obtain ⟨t, hmem, hname⟩ := hknown
    obtain ⟨n, hn, hval⟩ := Option.map_eq_some_iff.mp hseq
    rw [htype] at hname
    cases hname
    exact ⟨t, signer, reference, time, hmem, htype, hsigner, href, htime,
      ⟨n, bind_asF64_eq_some.mp hn, hval⟩, hs, hr, ht⟩
  · rintro ⟨t, signer, reference, time, h⟩
    obtain ⟨n, hn, hval⟩ := h.hasSequence
    obtain ⟨hs, hr, ht⟩ := h.visible
    have hknown : t.name ∈ knownEventTypes :=
      List.contains_iff_mem.mp (contains_knownEventTypes.mpr ⟨t, h.known, rfl⟩)
    simp [h.hasType, h.hasSigner, h.hasReference, h.hasTimestamp, hn, hval, hknown,
      isNonEmptyString, hs, hr, ht, strTrim_name h.known]

/-- The interpreter's rule for a signer, on the projection itself. -/
def Permits (s : AuthorityState) : EventType → String → Prop
  | .rootAuthorityCreated, _ => s.rootAuthority = none
  | _, signer => (∃ r ∈ s.rootAuthority, r.authorityRef = signer)
    ∨ ∃ d ∈ s.devices, d.authorityRef = signer

section
variable {s : AuthorityState}

theorem encode_rootAuthority (s : AuthorityState) :
    (AuthorityState.codec.encode s).prop "rootAuthority" =
      some ((s.rootAuthority.map RootAuthority.codec.encode).getD .null) := by
  cases h : s.rootAuthority <;> simp [AuthorityState.codec, Codec.orNull, h]

theorem encode_devices (s : AuthorityState) :
    (AuthorityState.codec.encode s).prop "devices" = some (.arr (s.devices.map Device.codec.encode)) := by
  simp [AuthorityState.codec, Codec.list]

theorem isActiveRoot_encode (h : Founded s) (signer : String) :
    isActiveRoot (AuthorityState.codec.encode s) signer = true ↔
      ∃ r ∈ s.rootAuthority, r.authorityRef = signer := by
  unfold isActiveRoot statePointerStatus
  rw [encode_rootAuthority]
  cases hroot : s.rootAuthority with
  | none => simp [Option.filter]
  | some r =>
    have hactive := h.root r hroot
    simp [Option.filter, RootAuthority.codec, hactive, Status.text]

theorem isActiveDevice_encode (h : Founded s) (signer : String) :
    isActiveDevice (AuthorityState.codec.encode s) signer = true ↔
      ∃ d ∈ s.devices, d.authorityRef = signer := by
  have hdevice : ∀ d ∈ s.devices, (deviceAuthorityRef (Device.codec.encode d) == signer
      && ((Device.codec.encode d).prop "status").bind asStr == some "active") = true ↔
        d.authorityRef = signer := by
    intro d hd
    simp [deviceAuthorityRef, Device.codec, (h.devices d hd).1, Status.text]
  unfold isActiveDevice
  rw [encode_devices]
  simp only [Option.bind_some, asArray, Option.map_some, Option.getD_some, List.any_eq_true,
    List.mem_map]
  constructor
  · rintro ⟨_, ⟨d, hd, rfl⟩, hok⟩; exact ⟨d, hd, (hdevice d hd).mp hok⟩
  · rintro ⟨d, hd, href⟩; exact ⟨_, ⟨d, hd, rfl⟩, (hdevice d hd).mpr href⟩

theorem canSignerIssueEvent_encode (h : Founded s) {t : EventType} (ht : t ∈ checkedTypes)
    {signer : String} (hne : signer ≠ "") :
    canSignerIssueEvent (AuthorityState.codec.encode s) signer t.name = true ↔ Permits s t signer := by
  have hrefs : (isActiveRoot (AuthorityState.codec.encode s) signer
      || isActiveDevice (AuthorityState.codec.encode s) signer) = true ↔
        (∃ r ∈ s.rootAuthority, r.authorityRef = signer) ∨ ∃ d ∈ s.devices, d.authorityRef = signer := by
    rw [Bool.or_eq_true, isActiveRoot_encode h, isActiveDevice_encode h]
  simp only [checkedTypes, List.mem_cons, List.not_mem_nil, or_false] at ht
  rcases ht with rfl | rfl | rfl
  · show ((((AuthorityState.codec.encode s).prop "rootAuthority").map isNull).getD false
      && signer != "") = true ↔ s.rootAuthority = none
    rw [encode_rootAuthority]
    cases s.rootAuthority <;> simp [hne, RootAuthority.codec]
  · exact hrefs
  · exact hrefs

theorem validateAuthorityTransition_eq_nil {state envelope : Json} {t : EventType}
    {signer reference timestamp : String} (h : Stated envelope t signer reference timestamp) :
    validateAuthorityTransition state envelope = [] ↔
      canSignerIssueEvent state signer t.name = true := by
  have hknown : t.name ∈ knownEventTypes :=
    List.contains_iff_mem.mp (contains_knownEventTypes.mpr ⟨t, h.known, rfl⟩)
  simp [validateAuthorityTransition, h.hasType, h.hasSigner, hknown]

/-- A proposal the interpreter's rules let through in the projection `s`. -/
structure Presented (s : AuthorityState) (proposal : Json) (t : EventType)
    (signer reference timestamp : String) : Prop
    extends Stated (readEnvelope proposal) t signer reference timestamp where
  permitted : Permits s t signer

theorem ne_empty_of_strTrim {x : String} (h : strTrim x ≠ "") : x ≠ "" := by
  rintro rfl
  exact h strTrim_empty

theorem validateRealmEventProposal_ok_iff (h : Founded s) {proposal : Json} :
    (validateRealmEventProposal (AuthorityState.codec.encode s) proposal).ok = true ↔
      ∃ t signer reference timestamp, Presented s proposal t signer reference timestamp := by
  have henv : ((normalizeProposal proposal).prop "envelope").getD (.obj []) = readEnvelope proposal :=
    rfl
  unfold validateRealmEventProposal
  rw [henv]
  constructor
  · intro hok
    dsimp only at hok
    split at hok
    · next hnil =>
      obtain ⟨t, signer, reference, timestamp, hstated⟩ :=
        validateEnvelope_eq_nil.mp (List.isEmpty_iff.mp hnil)
      rw [List.isEmpty_iff, List.append_eq_nil_iff, validateAuthorityTransition_eq_nil hstated,
        canSignerIssueEvent_encode h hstated.known (ne_empty_of_strTrim hstated.visible.1)] at hok
      exact ⟨t, signer, reference, timestamp, { hstated with permitted := hok.2 }⟩
    · next hne => exact absurd hok hne
  · rintro ⟨t, signer, reference, timestamp, hp⟩
    have hnil := validateEnvelope_eq_nil.mpr ⟨t, signer, reference, timestamp, hp.toStated⟩
    have hsign := (canSignerIssueEvent_encode h hp.known (ne_empty_of_strTrim hp.visible.1)).mpr
      hp.permitted
    simp [hnil, (validateAuthorityTransition_eq_nil hp.toStated).mpr hsign]

/-! ## What the registry accepts -/

/-- The envelope check and the signer's policy of the registry, on the same proposal and state. -/
def Registered (now : String) (s : AuthorityState) (proposal : Json) : Prop :=
  ∃ n, normalizeRealmEventProposal now proposal = .ok n
    ∧ Realm.validateEnvelope n.envelope = []
    ∧ canAuthorityIssueEvent s n.envelope.signer n.envelope.type = true

/-- The registry's rule for a signer. -/
def Entitles (s : AuthorityState) : EventType → String → Prop
  | .rootAuthorityCreated, _ => s.rootAuthority = none
  | .deviceKeyIssued, signer => ∃ r ∈ s.rootAuthority, r.named signer = true
  | _, signer => (∃ r ∈ s.rootAuthority, r.named signer = true)
    ∨ ∃ d ∈ s.devices, d.named signer = true

theorem realm_isActiveRoot_iff (h : Founded s) (signer : String) :
    Realm.isActiveRoot s signer = true ↔ ∃ r ∈ s.rootAuthority, r.named signer = true := by
  unfold Realm.isActiveRoot
  cases hroot : s.rootAuthority with
  | none => simp
  | some r => simp [h.root r hroot]

theorem realm_isActiveDevice_iff (h : Founded s) (signer : String) :
    Realm.isActiveDevice s signer = true ↔ ∃ d ∈ s.devices, d.named signer = true := by
  unfold Realm.isActiveDevice findDevice
  constructor
  · intro hactive
    split at hactive
    · cases hactive
    · next d hd => exact ⟨d, List.mem_of_find?_eq_some hd, List.find?_some (p := fun d : Device => d.named signer) hd⟩
  · rintro ⟨d, hd, hnamed⟩
    -- every device is active, so the first one with the name is
    cases hfind : s.devices.find? (·.named signer) with
    | none => exact absurd hnamed (List.find?_eq_none.mp hfind d hd)
    | some d' => simp [(h.devices d' (List.mem_of_find?_eq_some hfind)).1]

theorem canAuthorityIssueEvent_iff (h : Founded s) {t : EventType} (ht : t ∈ checkedTypes)
    {signer : String} (hne : signer ≠ "") :
    canAuthorityIssueEvent s signer t.name = true ↔ Entitles s t signer := by
  have hrecovery : isActiveRecoveryAuthority s signer = false := by
    simp [isActiveRecoveryAuthority, findRecoveryAuthority, h.recovery]
  rw [canAuthorityIssueEvent_name]
  simp only [checkedTypes, List.mem_cons, List.not_mem_nil, or_false] at ht
  rcases ht with rfl | rfl | rfl
  · show (s.rootAuthority.isNone && signer != "") = true ↔ s.rootAuthority = none
    simp [hne]
  · show (Realm.isActiveRoot s signer || isActiveRecoveryAuthority s signer) = true ↔ _
    rw [hrecovery, Bool.or_false, realm_isActiveRoot_iff h]
    rfl
  · show (Realm.isActiveRoot s signer || Realm.isActiveDevice s signer) = true ↔ _
    rw [Bool.or_eq_true, realm_isActiveRoot_iff h, realm_isActiveDevice_iff h]
    rfl

theorem proposalEnvelope_eq {proposal : Json}
    (harr : ∀ xs, proposal.prop "envelope" ≠ some (.arr xs)) :
    proposalEnvelope proposal = readEnvelope proposal := by
  unfold proposalEnvelope readEnvelope
  cases henv : proposal.prop "envelope" with
  | none => rfl
  | some v =>
    cases v with
    | arr xs => exact absurd henv (harr xs)
    | _ => rfl

/-- The normalised envelope of a stated proposal. -/
theorem normalize_stated (now : String) {proposal : Json} {t : EventType}
    {signer reference timestamp : String}
    (h : Stated (proposalEnvelope proposal) t signer reference timestamp) :
    ∃ n, normalizeRealmEventProposal now proposal = .ok n ∧ n.envelope.type = t.name
      ∧ n.envelope.signer = trim signer ∧ n.envelope.authority_reference = trim reference
      ∧ n.envelope.timestamp = .str timestamp ∧ isSequence n.envelope.sequence = true := by
  obtain ⟨k, hk, hseq⟩ := h.hasSequence
  have htrim : trim t.name = t.name := by cases t <;> decide
  have htime : (or (some (.str timestamp)) (some (.str now))).getD .null = .str timestamp := by
    rw [or_str (ne_empty_of_strTrim h.visible.2.2)]
    rfl
  unfold normalizeRealmEventProposal
  split
  · -- `null` has no envelope
    have htype := h.hasType
    cases htype
  · simp only [h.hasType, h.hasSigner, h.hasReference, hk, h.hasTimestamp, strOrEmpty_str,
      toNumber_num, ok_bind, pure_eq_ok, htrim, htime]
    exact ⟨_, rfl, rfl, rfl, rfl, rfl, hseq⟩

/-- An array has none of the fields of an envelope. -/
theorem not_registered_of_array {now : String} {proposal : Json} {xs : List Json}
    (h : proposal.prop "envelope" = some (.arr xs)) : ¬ Registered now s proposal := by
  rintro ⟨n, hn, hcodes, -⟩
  have hread : proposalEnvelope proposal = .arr xs := by
    simp [proposalEnvelope, h, Json.isObject]
  have htype : n.envelope.type = "" := by
    unfold normalizeRealmEventProposal at hn
    split at hn
    · cases hn
    · rw [hread] at hn
      simp only [bind_eq_ok] at hn
      obtain ⟨type, htype, _, -, _, -, _, -, hn⟩ := hn
      cases hn
      cases htype
      show trim "" = ""
      decide
  have hlookup : registryLookup "" = none := by decide
  simp [Realm.validateEnvelope, htype, hlookup] at hcodes

theorem isSequence_iff {n : Number} :
    isSequence n = true ↔ n.isInteger = true ∧ n.ltOne = false := by
  cases n <;> simp [isSequence, Number.isInteger, Number.ltOne]

/-- Of a stated proposal the registry asks more: the envelope is no array, the texts are not blank to
`trim`, and the trimmed signer has the right. -/
theorem registered_iff (h : Founded s) {now : String} {proposal : Json} {t : EventType}
    {signer reference timestamp : String}
    (hstated : Stated (readEnvelope proposal) t signer reference timestamp) :
    Registered now s proposal ↔ (∀ xs, proposal.prop "envelope" ≠ some (.arr xs))
      ∧ trim signer ≠ "" ∧ trim reference ≠ "" ∧ trim timestamp ≠ "" ∧ Entitles s t (trim signer) := by
  constructor
  · intro hreg
    have harr : ∀ xs, proposal.prop "envelope" ≠ some (.arr xs) := fun xs hx =>
      not_registered_of_array hx hreg
    rw [← proposalEnvelope_eq harr] at hstated
    obtain ⟨n, hn, htype, hsigner, href, htime, -⟩ := normalize_stated now hstated
    obtain ⟨n', hn', hcodes, hcan⟩ := hreg
    cases Except.ok.inj (hn.symm.trans hn')
    obtain ⟨hs, hr, -, -, ht⟩ := (Realm.validateEnvelope_eq_nil htype).mp hcodes
    rw [hsigner, trim_trim] at hs
    rw [href, trim_trim] at hr
    rw [htime] at ht
    rw [htype, hsigner, canAuthorityIssueEvent_iff h hstated.known hs] at hcan
    exact ⟨harr, hs, hr, by simpa [Js.isNonEmptyString] using ht, hcan⟩
  · rintro ⟨harr, hs, hr, ht, hent⟩
    rw [← proposalEnvelope_eq harr] at hstated
    obtain ⟨n, hn, htype, hsigner, href, htime, hseq⟩ := normalize_stated now hstated
    obtain ⟨hint, hpos⟩ := isSequence_iff.mp hseq
    refine ⟨n, hn, (Realm.validateEnvelope_eq_nil htype).mpr ⟨?_, ?_, hint, hpos, ?_⟩, ?_⟩
    · rwa [hsigner, trim_trim]
    · rwa [href, trim_trim]
    · rw [htime]
      simpa [Js.isNonEmptyString] using ht
    · rw [htype, hsigner, canAuthorityIssueEvent_iff h hstated.known hs]
      exact hent

/-! ## Where the two part -/

/-- The proposals the interpreter lets through and the registry refuses. -/
inductive Misjudged (s : AuthorityState) (proposal : Json) : Prop
  /-- The envelope is an array, and the interpreter reads the proposal's own fields. -/
  | array {t : EventType} {signer reference timestamp : String} {xs : List Json} :
      Presented s proposal t signer reference timestamp →
      proposal.prop "envelope" = some (.arr xs) → Misjudged s proposal
  /-- A text is blank to `trim` only, which strips U+FEFF. -/
  | blank {t : EventType} {signer reference timestamp : String} :
      Presented s proposal t signer reference timestamp →
      trim signer = "" ∨ trim reference = "" ∨ trim timestamp = "" → Misjudged s proposal
  /-- A device key is issued by a signer who is not the root. -/
  | issuer {signer reference timestamp : String} :
      Presented s proposal .deviceKeyIssued signer reference timestamp →
      (∀ r ∈ s.rootAuthority, r.named (trim signer) = false) → Misjudged s proposal
  /-- A session is issued under a name that is an authority's only before it is trimmed. -/
  | stranger {signer reference timestamp : String} :
      Presented s proposal .sessionAuthorityIssued signer reference timestamp →
      (∀ r ∈ s.rootAuthority, r.named (trim signer) = false) →
      (∀ d ∈ s.devices, d.named (trim signer) = false) → Misjudged s proposal

theorem Misjudged.presented {proposal : Json} (h : Misjudged s proposal) :
    ∃ t signer reference timestamp, Presented s proposal t signer reference timestamp := by
  cases h with
  | array hp _ | blank hp _ | issuer hp _ | stranger hp _ _ => exact ⟨_, _, _, _, hp⟩

theorem Misjudged.not_registered {now : String} {proposal : Json} (hf : Founded s)
    (h : Misjudged s proposal) : ¬ Registered now s proposal := by
  cases h with
  | array hp henv => exact not_registered_of_array henv
  | blank hp hblank =>
    rw [registered_iff hf hp.toStated]
    rintro ⟨-, hs, hr, ht, -⟩
    rcases hblank with h | h | h
    · exact hs h
    · exact hr h
    · exact ht h
  | issuer hp hroot =>
    rw [registered_iff hf hp.toStated]
    rintro ⟨-, -, -, -, r, hr, hnamed⟩
    exact absurd hnamed (by simp [hroot r hr])
  | stranger hp hroot hdevice =>
    rw [registered_iff hf hp.toStated]
    rintro ⟨-, -, -, -, ⟨r, hr, hnamed⟩ | ⟨d, hd, hnamed⟩⟩
    · exact absurd hnamed (by simp [hroot r hr])
    · exact absurd hnamed (by simp [hdevice d hd])

/-- A proposal the interpreter lets through is one of them, or the registry accepts it. -/
theorem Presented.registered {now : String} {proposal : Json} (hf : Founded s) {t : EventType}
    {signer reference timestamp : String} (hp : Presented s proposal t signer reference timestamp)
    (h : ¬ Misjudged s proposal) : Registered now s proposal := by
  rw [registered_iff hf hp.toStated]
  refine ⟨fun xs hx => h (.array hp hx), fun hx => h (.blank hp (.inl hx)),
    fun hx => h (.blank hp (.inr (.inl hx))), fun hx => h (.blank hp (.inr (.inr hx))), ?_⟩
  have ht := hp.known
  simp only [checkedTypes, List.mem_cons, List.not_mem_nil, or_false] at ht
  rcases ht with rfl | rfl | rfl
  · exact hp.permitted
  · by_contra hno
    refine h (.issuer hp fun r hr => ?_)
    rw [← Bool.not_eq_true]
    intro hnamed
    exact hno ⟨r, hr, hnamed⟩
  · by_contra hno
    refine h (.stranger hp (fun r hr => ?_) fun d hd => ?_)
    · rw [← Bool.not_eq_true]
      intro hnamed
      exact hno (.inl ⟨r, hr, hnamed⟩)
    · rw [← Bool.not_eq_true]
      intro hnamed
      exact hno (.inr ⟨d, hd, hnamed⟩)

end

/-- What the interpreter accepts on a history of roots and devices the registry accepts too, unless
the proposal is misjudged. -/
theorem accepts_as_registered_iff {host : Host} {log : List Json} {s : AuthorityState}
    (hlog : FoundingLog log)
    (hs : buildCurrentAuthorityState host log = .ok s) (now : String) (proposal : Json) :
    ((validateRealmEventProposal (AuthorityState.codec.encode s) proposal).ok = true →
      Registered now s proposal) ↔ ¬ Misjudged s proposal := by
  have hf := founded_of_build hlog hs
  constructor
  · intro hagree hmis
    exact hmis.not_registered hf
      (hagree ((validateRealmEventProposal_ok_iff hf).mpr hmis.presented))
  · intro hno hok
    obtain ⟨t, signer, reference, timestamp, hp⟩ := (validateRealmEventProposal_ok_iff hf).mp hok
    exact hp.registered hf hno

/-! ### A session and a device key -/

/-- The laptop opens a session. -/
def laptopSession : Json :=
  ScriptEntry.proposal 4 ⟨"SESSION_AUTHORITY_ISSUED", "device:laptop", "device:laptop",
    [("session_id", .str "s-1")], ""⟩

/-- The laptop issues a key for another device. -/
def laptopIssuesPhone : Json :=
  ScriptEntry.proposal 4 ⟨"DEVICE_KEY_ISSUED", "device:laptop", "device:laptop",
    [("device_id", .str "phone"), ("public_key", .str "key-phone")], ""⟩

theorem accepts_as_registered_iff_session :
    ∃ s, buildCurrentAuthorityState deskHost deskLedger.event_log = .ok s
      ∧ (((validateRealmEventProposal (AuthorityState.codec.encode s) laptopSession).ok = true →
        Registered scriptTime s laptopSession) ↔ ¬ Misjudged s laptopSession) := by
  obtain ⟨s, -, hs⟩ := desk_build
  exact ⟨s, hs, accepts_as_registered_iff desk_founding hs scriptTime laptopSession⟩

theorem device_issues_device_key :
    ¬ ∀ (host : Host) (log : List Json) (s : AuthorityState) (now : String) (proposal : Json),
      FoundingLog log →
      buildCurrentAuthorityState host log = .ok s →
      (validateRealmEventProposal (AuthorityState.codec.encode s) proposal).ok = true →
      Registered now s proposal := by
  intro h
  have hview : stateView (fun s =>
      ((validateRealmEventProposal (AuthorityState.codec.encode s) laptopIssuesPhone).ok,
        canAuthorityIssueEvent s "device:laptop" "DEVICE_KEY_ISSUED")) deskLedger =
      some (true, false) := by decide +kernel
  obtain ⟨s, hstate, hbuild⟩ := desk_build
  obtain ⟨s', hs', hboth⟩ := exists_of_stateView hview
  cases hstate.symm.trans hs'
  obtain ⟨hok, hno⟩ := Prod.mk.inj hboth
  obtain ⟨n, hn, -, hcan⟩ := h deskHost _ s scriptTime laptopIssuesPhone desk_founding hbuild hok
  have hnames : (normalizeRealmEventProposal scriptTime laptopIssuesPhone).map
      (fun n => (n.envelope.signer, n.envelope.type)) =
        .ok ("device:laptop", "DEVICE_KEY_ISSUED") := by decide +kernel
  rw [hn] at hnames
  obtain ⟨hsigner, htype⟩ := Prod.mk.inj (Except.ok.inj hnames)
  rw [hsigner, htype, hno] at hcan
  cases hcan

end SimpleL1.Interpreter
