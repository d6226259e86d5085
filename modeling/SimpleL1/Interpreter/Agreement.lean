import SimpleL1.Interpreter.DeviceNames
import SimpleL1.Realm.Encoding
import SimpleL1.Realm.Founding
import SimpleL1.Realm.Freshness

/-!
# Two interpreters of one history

On the log of a reachable ledger with roots and devices only, the second
implementation verifies the chain and ends with the JSON of the projection, when
every event is `Understood`: its payload's numbers are spelled alike and a device
event names the device in a way both sides read alike. One accepted event keeps
the two sides together (`Agree.accept`), and so does a run.
-/

namespace SimpleL1.Interpreter

open SimpleL1.Js SimpleL1.Lib SimpleL1.Realm

/-! ## Reading an accepted event -/

section
variable {event : Json} {n : NormalizedProposal} (h : Shows event n)
include h

theorem readEnvelope_eq : readEnvelope event = n.envelope.toJson := by
  simp [readEnvelope, h.envelope, Option.filter, Envelope.toJson, isObject]

theorem eventPayload_eq : History.eventPayload event = .obj n.payload := by
  simp [History.eventPayload, h.payload, Option.filter, isObject]

theorem material_eq {k : Int} (hk : n.envelope.sequence = .int k) (h0 : 0 ≤ k) (hlt : k < 2 ^ 63)
    (d : Option String) : realmEventHashMaterial event d = n.hashed.material (digest d) := by
  have hone : asI64 (.int 1) = 1 := by decide
  have hprev : (d.map Json.str).getD .null = digest d := by cases d <;> rfl
  simp [realmEventHashMaterial, chainedText, chainedField, readI64, h.authority_reference, h.signer,
    h.type, h.version, h.sequence, hk, asI64_int h0 hlt, hone, hprev, eventPayload_eq h,
    HashedFields.material, NormalizedProposal.hashed]

theorem chained_of_known {t : EventType} (ht : n.envelope.type = t.name)
    (hknown : t = .rootAuthorityCreated ∨ t = .deviceKeyIssued) :
    isHashChainedRealmEvent event = true := by
  have hcontract : hasRealmEventContract n.envelope.type = true := by
    rw [ht]
    rcases hknown with rfl | rfl <;> decide
  simp [isHashChainedRealmEvent, chainedText, chainedField, h.type, hcontract]

end

/-! ## The chain -/

theorem asciiKeys_material {f : HashedFields} {d : Json}
    (hf : asciiKeys f.authority_reference = true ∧ asciiKeys f.payload = true
      ∧ asciiKeys f.signer = true ∧ asciiKeys f.type = true) (hd : asciiKeys d = true) :
    asciiKeys (f.material d) = true := by
  obtain ⟨href, hpayload, hsigner, htype⟩ := hf
  have hkeys : isAscii "authority_reference" = true ∧ isAscii "payload" = true
      ∧ isAscii "previous_event_hash" = true ∧ isAscii "sequence" = true ∧ isAscii "signer" = true
      ∧ isAscii "type" = true ∧ isAscii "version" = true := by decide
  simp only [asciiKeys] at href hpayload hsigner htype hd ⊢
  simp [HashedFields.material, every, everyField, hkeys, href, hpayload, hsigner, htype, hd]

section
variable {host : Host} {serde : Serde} {clock : Clock} {s : AuthorityState} {fs : List HashedFields}
  {t : EventType} {n : NormalizedProposal} {event : Json}

/-- The texts the two sides hash are the same. -/
theorem canonicalEncode_material (h : Checked host clock s fs t n event)
    (hascii : asciiKeys (.obj n.payload) = true) (hspelled : spelled serde (.obj n.payload) = true)
    (hlen : fs.length + 1 < 2 ^ 63) (d : Option String) :
    canonicalEncode serde (n.hashed.material (digest d)) =
      Realm.canonicalEncode (n.hashed.material (digest d)) := by
  apply canonicalEncode_eq
  · exact asciiKeys_material ⟨rfl, hascii, rfl, rfl⟩ (by cases d <;> rfl)
  · have hseq : serde.number (.int (fs.length + 1)) = Json.numText (.int (fs.length + 1)) := by
      simpa [spelled, every] using spelled_int serde (n := fs.length + 1) (by omega) (by omega)
    have hone : serde.number (.int 1) = Json.numText (.int 1) := by
      simpa [spelled, every] using spelled_int serde (n := 1) (by omega) (by omega)
    have hdigest : every (fun _ => true) (fun n => serde.number n == Json.numText n) (digest d) =
        true := by cases d <;> rfl
    simp only [spelled] at hspelled ⊢
    simp [HashedFields.material, NormalizedProposal.hashed, every, everyField, h.sequence, hseq, hone,
      hdigest]
    simpa [every] using hspelled

theorem Checked.id_fields (h : Checked host clock s fs t n event) :
    event.prop "id" = some (.str (acceptedId host n (digest (headOf host fs))))
      ∧ event.prop "event_id" = some (.str (acceptedId host n (digest (headOf host fs)))) := by
  rw [h.event_eq]
  constructor <;> simp [acceptedEvent, acceptedFields]

theorem verifyEvent_eq (h : Checked host clock s fs t n event)
    (hknown : t = .rootAuthorityCreated ∨ t = .deviceKeyIssued)
    (hascii : asciiKeys (.obj n.payload) = true) (hspelled : spelled serde (.obj n.payload) = true)
    (hlen : fs.length + 1 < 2 ^ 63) :
    verifyEvent host serde (headOf host fs) event = .ok (headOf host (fs ++ [n.hashed])) := by
  have hshows := h.shows
  have hchained := chained_of_known hshows h.type hknown
  have hhash : calculateRealmEventHash host serde event (headOf host fs) =
      acceptedHash host n (digest (headOf host fs)) := by
    rw [calculateRealmEventHash, material_eq hshows h.sequence (by omega) (by omega),
      canonicalEncode_material h hascii hspelled hlen, acceptedHash]
  have hid : ∀ hash, buildRealmEventId event hash = "realm_evt_" ++ n.envelope.sequence.toString ++ "_"
      ++ toLowerCase n.envelope.type ++ "_" ++ slice16 hash := by
    intro hash
    have hseq : readI64 (chainedField event "sequence") 0 = fs.length + 1 := by
      simp [chainedField, readI64, hshows.sequence, h.sequence,
        asI64_int (n := fs.length + 1) (by omega) (by omega)]
    rw [buildRealmEventId, hseq, i64Text_eq (by omega) (by omega), h.sequence]
    simp [chainedText, chainedField, hshows.type]
  have hprevious : event.prop "previous_event_hash" = some (digest (headOf host fs)) :=
    h.attached.previous
  have hbind : (event.prop "previous_event_hash").bind asStr = headOf host fs := by
    rw [hprevious]
    cases headOf host fs <;> rfl
  have hcurrent : event.prop "current_event_hash" =
      some (.str (acceptedHash host n (digest (headOf host fs)))) := by
    rw [h.event_eq]
    simp [acceptedEvent, acceptedFields]
  obtain ⟨hown_id, hevent_id⟩ := Checked.id_fields h
  have hhead : headOf host (fs ++ [n.hashed]) = some (acceptedHash host n (digest (headOf host fs))) := by
    rw [headOf, HashChain.head_snoc]
    rfl
  simp [verifyEvent, hchained, hbind, hhash, hcurrent, hid, hevent_id, hown_id, hhead, acceptedId]

end

/-! ## The projection -/

/-- Six fields: a history of roots and devices never executes a recovery. -/
theorem encode_eq {s : AuthorityState} (h : Founded s) :
    AuthorityState.codec.encode s = .obj [
      ("rootAuthority", (s.rootAuthority.map RootAuthority.codec.encode).getD .null),
      ("recoveryAuthorities", .arr []), ("devices", .arr (s.devices.map Device.codec.encode)),
      ("sessions", .arr []), ("federationTrusts", .arr []), ("lastSequence", .num s.lastSequence)] := by
  have hroot : (RootAuthority.codec.orNull (by intro _ h; cases h)).encode s.rootAuthority =
      (s.rootAuthority.map RootAuthority.codec.encode).getD .null := by
    cases s.rootAuthority <;> rfl
  simp [AuthorityState.codec, Fields.ofOptions, Codec.list, h.recovery, h.sessions, h.trusts,
    h.lastRecovery, hroot]

theorem encode_empty : AuthorityState.codec.encode emptyAuthorityState = emptyProjection := by
  rw [encode_eq founded_empty]
  rfl

section
variable {host : Host} {clock : Clock} {s s' : AuthorityState} {fs : List HashedFields}
  {n : NormalizedProposal} {event : Json}

/-- The time and the id both sides leave on what an accepted event writes. -/
theorem stamp_eq {t : EventType} (h : Checked host clock s fs t n event) :
    ∃ time id, stampOf n.envelope.toJson event = ⟨.str time, .str id⟩
      ∧ issuedAt event n.envelope.toJson = .str time ∧ issuedEvent event = .str id := by
  obtain ⟨hid, -⟩ := Checked.id_fields h
  have hne : acceptedId host n (digest (headOf host fs)) ≠ "" := by
    intro he
    have := congrArg String.toList he
    simp [acceptedId] at this
  obtain ⟨time, htime, hblank⟩ : ∃ time, n.envelope.timestamp = .str time ∧ time ≠ "" := by
    have htext := h.timestamp
    cases htime : n.envelope.timestamp with
    | str time =>
      rw [htime] at htext
      exact ⟨time, rfl, ne_empty_of_trim (by simpa [Js.isNonEmptyString] using htext)⟩
    | _ => rw [htime] at htext; cases htext
  have hstated : n.envelope.toJson.prop "timestamp" = some (.str time) := by
    simp [Envelope.toJson, htime]
  refine ⟨time, acceptedId host n (digest (headOf host fs)), ?_, ?_, ?_⟩
  · simp [stampOf, timestampOf, eventIdOf, hstated, hid, hblank, hne]
  · simp [issuedAt, hstated]
  · simp [issuedEvent, hid]

theorem requireIndependentV1_eq {t : EventType} (h : Checked host clock s fs t n event)
    (envelope : Json) : requireIndependentV1 event envelope = .ok () := by
  have hone : asI64 (.int 1) = 1 := by decide
  simp [requireIndependentV1, readI64, h.shows.version, hone]

theorem interpretEvent_root (h : Checked host clock s fs .rootAuthorityCreated n event)
    (projection : Json) : interpretEvent projection event =
      .ok (applyRootAuthorityCreated projection event n.envelope.toJson (.obj n.payload)) := by
  have htype : (((n.envelope.toJson.prop "type").or (event.prop "type")).bind asStr).getD "" =
      "ROOT_AUTHORITY_CREATED" := by
    simp [Envelope.toJson, h.type, EventType.name]
  have hrealm : (event.prop "realm_event").bind asBool = some true := by
    rw [h.shows.realm_event]
    rfl
  have hpayload : independentPayload event = .obj n.payload := eventPayload_eq h.shows
  simp only [interpretEvent, hrealm, independentEnvelope, readEnvelope_eq h.shows, hpayload, htype,
    requireIndependentV1_eq h]
  rfl

theorem interpretEvent_device (h : Checked host clock s fs .deviceKeyIssued n event)
    (projection : Json) : interpretEvent projection event =
      .ok (applyDeviceKeyIssued projection event n.envelope.toJson (.obj n.payload)) := by
  have htype : (((n.envelope.toJson.prop "type").or (event.prop "type")).bind asStr).getD "" =
      "DEVICE_KEY_ISSUED" := by
    simp [Envelope.toJson, h.type, EventType.name]
  have hrealm : (event.prop "realm_event").bind asBool = some true := by
    rw [h.shows.realm_event]
    rfl
  have hpayload : independentPayload event = .obj n.payload := eventPayload_eq h.shows
  simp only [interpretEvent, hrealm, independentEnvelope, readEnvelope_eq h.shows, hpayload, htype,
    requireIndependentV1_eq h]
  rfl

theorem readI64_sequence {t : EventType} (h : Checked host clock s fs t n event)
    (hlen : fs.length + 1 < 2 ^ 63) :
    readI64 (n.envelope.toJson.prop "sequence") 0 = fs.length + 1 := by
  simp [readI64, Envelope.toJson, h.sequence, asI64_int (n := fs.length + 1) (by omega) (by omega)]

theorem setSequence_eq {t : EventType} (h : Checked host clock s fs t n event) :
    s.setSequence n.envelope.sequence = { s with lastSequence := .int (fs.length + 1) } := by
  rw [h.sequence]
  rfl

/-- The root an accepted creation writes. -/
theorem Accepts.rootChange (h : Accepts host clock s fs .rootAuthorityCreated n event s') :
    ∃ rootId, n.payload.get "root_id" = some (.str rootId)
      ∧ s' = (Change.establishRoot rootId n.envelope.authority_reference).apply
        (stampOf n.envelope.toJson event) { s with lastSequence := .int (fs.length + 1) } := by
  have hc := h.toChecked
  obtain ⟨c, hchange, hs'⟩ := h.change
  obtain ⟨rootId, hroot, hblank⟩ := (validatePayload_eq_nil.mp hc.payload).string "root_id"
    (by decide) (by decide)
  have href : n.envelope.toJson.prop "authority_reference" =
      some (.str n.envelope.authority_reference) := rfl
  have hread : changeOf n.envelope.toJson n.payload .rootAuthorityCreated s.sessions.length =
      .ok (.establishRoot rootId n.envelope.authority_reference) := by
    simp only [changeOf, readEstablishRoot, href, or_str hc.authority_reference, toStr_str, ok_bind,
      hroot, or_str (ne_empty_of_trim hblank)]
    rfl
  cases hread.symm.trans hchange
  exact ⟨rootId, hroot, by rw [hs', setSequence_eq hc]⟩

/-- The device an accepted issue writes. -/
theorem Accepts.deviceChange (h : Accepts host clock s fs .deviceKeyIssued n event s') :
    ∃ deviceId ref key, n.payload.get "device_id" = some (.str deviceId)
      ∧ n.payload.get "public_key" = some (.str key)
      ∧ OptionalString (n.payload.get "authority_ref")
      ∧ refOr (or (n.payload.get "authority_ref") (n.payload.get "device_authority")) "device:"
        (some (.str deviceId)) = .ok ref
      ∧ s' = (Change.issueDevice deviceId ref (.str key)).apply (stampOf n.envelope.toJson event)
        { s with lastSequence := .int (fs.length + 1) } := by
  have hc := h.toChecked
  obtain ⟨c, hchange, hs'⟩ := h.change
  have hok := validatePayload_eq_nil.mp hc.payload
  obtain ⟨deviceId, hdevice, hblank⟩ := hok.string "device_id" (by decide) (by decide)
  obtain ⟨key, hkey, hkeyBlank⟩ := hok.string "public_key" (by decide) (by decide)
  have hne := ne_empty_of_trim hblank
  have hdevice' := get_deviceKeyIssued_migrated hdevice hne (by decide)
  have hkey' := get_deviceKeyIssued_migrated hkey (ne_empty_of_trim hkeyBlank) (by decide)
  change readIssueDevice (deviceKeyIssuedMigrationAdapter (.obj n.payload)) = .ok c at hchange
  obtain ⟨ref, href, hchange⟩ := bind_eq_ok.mp hchange
  rw [or_migrated, hdevice'] at href
  rw [hdevice', or_str hne, toStr_str, ok_bind, hkey', orNull_str (ne_empty_of_trim hkeyBlank)] at hchange
  cases hchange
  exact ⟨deviceId, ref, key, hdevice, hkey, hok.optional "authority_ref" (by decide), href,
    by rw [hs', setSequence_eq hc]⟩

theorem interpret_root (h : Accepts host clock s fs .rootAuthorityCreated n event s')
    (hf : Founded s) (hlen : fs.length + 1 < 2 ^ 63) :
    interpretEvent (AuthorityState.codec.encode s) event =
      .ok (AuthorityState.codec.encode s') := by
  have hc := h.toChecked
  obtain ⟨rootId, hroot, rfl⟩ := Accepts.rootChange h
  obtain ⟨time, id, hstamp, htime, hid⟩ := stamp_eq hc
  have href : n.envelope.toJson.prop "authority_reference" =
      some (.str n.envelope.authority_reference) := rfl
  have hf' := (hf.setSequence (.int (fs.length + 1))).apply
    (.root rootId n.envelope.authority_reference) (stampOf n.envelope.toJson event)
  rw [interpretEvent_root hc, encode_eq hf]
  refine congrArg Except.ok (Eq.trans ?_ (encode_eq hf').symm)
  simp [applyRootAuthorityCreated, setField, Fields.set, hroot, href, htime, hid, hstamp,
    readI64_sequence hc hlen, Change.apply, Change.newRoot, RootAuthority.codec, Status.text,
    AuthorityState.setSequence, Number.isFinite]

/-- The filters on both sides keep the same devices. -/
theorem filter_encode (devices : List Device) (id ref : String) :
    (devices.map Device.codec.encode).filter (fun device =>
        (device.prop "id").bind asStr != some id
          && (device.prop "authorityRef").bind asStr != some ref) =
      (devices.filter fun device => device.id != id && device.authorityRef != ref).map
        Device.codec.encode := by
  rw [List.filter_map]
  rfl

theorem encode_newDevice (stamp : Stamp) (id ref : String) (key : Json) :
    Device.codec.encode (Change.newDevice stamp id ref key) =
      .obj [("id", .str id), ("authority", .str ref), ("authorityRef", .str ref),
        ("status", .str "active"), ("publicKey", key), ("issuedAt", stamp.time),
        ("issuedEvent", stamp.event), ("revokedAt", .null), ("revokedEvent", .null)] := rfl

theorem interpret_device (h : Accepts host clock s fs .deviceKeyIssued n event s')
    (hf : Founded s) (hlen : fs.length + 1 < 2 ^ 63) (hnamed : NamedAlike (.obj n.payload)) :
    interpretEvent (AuthorityState.codec.encode s) event =
      .ok (AuthorityState.codec.encode s') := by
  have hc := h.toChecked
  obtain ⟨deviceId, ref, key, hdevice, hkey, hopt, href, rfl⟩ := Accepts.deviceChange h
  obtain ⟨time, id, hstamp, htime, hid⟩ := stamp_eq hc
  have hread := (issuedAuthorityRef_eq_iff hdevice hopt href).mpr hnamed
  have hreadId : issuedDeviceId (.obj n.payload) = deviceId := by simp [issuedDeviceId, hdevice]
  have hf' := (hf.setSequence (.int (fs.length + 1))).apply (.device deviceId ref (.str key))
    (stampOf n.envelope.toJson event)
  rw [interpretEvent_device hc, encode_eq hf]
  refine congrArg Except.ok (Eq.trans ?_ (encode_eq hf').symm)
  simp [applyDeviceKeyIssued, setField, Fields.set, hkey, htime, hid, hstamp, hread, hreadId, asArray,
    filter_encode, readI64_sequence hc hlen, Change.apply, encode_newDevice,
    AuthorityState.setSequence, Number.isFinite]

end

/-! ## The whole log -/

/-- A value without keys and numbers. -/
def Leaf (v : Json) : Prop := ∀ key num, every key num v = true

theorem leaf_str (x : String) : Leaf (.str x) := fun _ _ => rfl

theorem leaf_null : Leaf .null := fun _ _ => rfl

/-- What the entries of the projection carry besides names. -/
structure Leaves (s : AuthorityState) : Prop where
  root : ∀ r ∈ s.rootAuthority, Leaf r.issuedAt ∧ Leaf r.issuedEvent
  devices : ∀ d ∈ s.devices, Leaf d.publicKey ∧ Leaf d.issuedAt ∧ Leaf d.issuedEvent
    ∧ Leaf d.revokedAt ∧ Leaf d.revokedEvent

/-- The keys of a projection, a root and a device. -/
def projectionKeys : List String :=
  ["rootAuthority", "recoveryAuthorities", "devices", "sessions", "federationTrusts", "lastSequence",
    "id", "authorityRef", "status", "issuedAt", "issuedEvent", "authority", "publicKey", "revokedAt",
    "revokedEvent"]

theorem every_encode {s : AuthorityState} (hf : Founded s) (hl : Leaves s) {key : String → Bool}
    {num : Number → Bool} (hkey : ∀ k ∈ projectionKeys, key k = true)
    (hnum : num s.lastSequence = true) :
    every key num (AuthorityState.codec.encode s) = true := by
  simp only [projectionKeys, List.forall_mem_cons, List.not_mem_nil, false_implies,
    implies_true, and_true] at hkey
  have hroot : every key num ((s.rootAuthority.map RootAuthority.codec.encode).getD .null) = true := by
    cases hr : s.rootAuthority with
    | none => rfl
    | some r =>
      obtain ⟨hat, hev⟩ := hl.root r hr
      simp [RootAuthority.codec, every, everyField, hkey, hat key num, hev key num]
  have hdevices : everyElem key num (s.devices.map Device.codec.encode) = true := by
    rw [everyElem_iff]
    intro v hv
    obtain ⟨d, hd, rfl⟩ := List.mem_map.mp hv
    obtain ⟨hpk, hat, hev, hra, hre⟩ := hl.devices d hd
    simp [Device.codec, every, everyField, hkey, hpk key num, hat key num, hev key num, hra key num,
      hre key num]
  rw [encode_eq hf]
  simp [every, everyField, everyElem, hkey, hroot, hdevices, hnum]

/-- Both sides read the payload of the event alike. -/
structure Understood (serde : Serde) (event : Json) : Prop where
  numbers : spelled serde (Realm.eventPayload event) = true
  named : event.prop "type" = some (.str "DEVICE_KEY_ISSUED") →
    NamedAlike (Realm.eventPayload event)

/-- Where both sides are after the events of `log`. -/
structure Agree (host : Host) (serde : Serde) (log : List Json) (s : AuthorityState)
    (fs : List HashedFields) : Prop where
  length : fs.length ≤ log.length
  founded : Founded s
  leaves : Leaves s
  verified : verifyFrom host serde none log = .ok (headOf host fs)
  projected : interpretFrom emptyProjection log = .ok (AuthorityState.codec.encode s)

section
variable {host : Host} {serde : Serde} {clock : Clock} {log : List Json} {s s' : AuthorityState}
  {fs : List HashedFields} {t : EventType} {n : NormalizedProposal} {event : Json}

theorem agree_empty : Agree host serde [] emptyAuthorityState [] where
  length := Nat.le_refl 0
  founded := founded_empty
  leaves := ⟨nofun, nofun⟩
  verified := rfl
  projected := congrArg Except.ok encode_empty.symm

theorem known_of_founding (h : Checked host clock s fs t n event) (hf : founding event = true) :
    t = .rootAuthorityCreated ∨ t = .deviceKeyIssued := by
  obtain ⟨envelope, henv, htype⟩ := founding_iff.mp hf
  cases Except.ok.inj (h.shows.projectionEnvelope.symm.trans henv)
  have hname : n.envelope.toJson.prop "type" = some (.str t.name) := by
    rw [← h.type]
    rfl
  simp only [hname, Option.some.injEq, Json.str.injEq] at htype
  exact htype.imp EventType.name_injective EventType.name_injective

theorem leaves_accept (h : Accepts host clock s fs t n event s')
    (hknown : t = .rootAuthorityCreated ∨ t = .deviceKeyIssued) (hl : Leaves s) : Leaves s' := by
  obtain ⟨time, id, hstamp, -, -⟩ := stamp_eq h.toChecked
  rcases hknown with rfl | rfl
  · obtain ⟨rootId, -, rfl⟩ := Accepts.rootChange h
    refine ⟨?_, hl.devices⟩
    intro r hr
    cases hr
    rw [hstamp]
    exact ⟨leaf_str time, leaf_str id⟩
  · obtain ⟨deviceId, ref, key, -, -, -, -, rfl⟩ := Accepts.deviceChange h
    refine ⟨hl.root, ?_⟩
    intro d hd
    rcases List.mem_append.mp hd with hd | hd
    · exact hl.devices d (List.mem_of_mem_filter hd)
    · cases List.mem_singleton.mp hd
      rw [hstamp]
      exact ⟨leaf_str key, leaf_str time, leaf_str id, leaf_null, leaf_null⟩

/-- One more round of a loop. -/
theorem foldlM_snoc {ε σ α : Type} {f : σ → α → Except ε σ} {s₀ s₁ s₂ : σ} {xs : List α} {x : α}
    (h : xs.foldlM f s₀ = .ok s₁) (hx : f s₁ x = .ok s₂) : (xs ++ [x]).foldlM f s₀ = .ok s₂ := by
  rw [List.foldlM_append, h]
  show (do let s ← f s₁ x; List.foldlM f s []) = .ok s₂
  rw [hx]
  rfl

/-- One accepted event. -/
theorem Agree.accept (ha : Agree host serde log s fs) (h : Accepts host clock s fs t n event s')
    (hfound : founding event = true) (hascii : asciiKeys event = true)
    (hu : Understood serde event) (hlen : log.length + 1 < 2 ^ 63) :
    Agree host serde (log ++ [event]) s' (fs ++ [n.hashed]) := by
  have hc := h.toChecked
  have hknown := known_of_founding hc hfound
  have hpayload := hc.shows.eventPayload_eq
  have hnumbers := hu.numbers
  rw [hpayload] at hnumbers
  have hkeys : asciiKeys (.obj n.payload) = true := every_prop hascii hc.shows.payload
  have hcount : fs.length + 1 < 2 ^ 63 := by
    have := ha.length
    omega
  have hproj : interpretEvent (AuthorityState.codec.encode s) event =
      .ok (AuthorityState.codec.encode s') := by
    rcases hknown with rfl | rfl
    · exact interpret_root h ha.founded hcount
    · have hnamed := hu.named (by rw [hc.shows.type, hc.type]; rfl)
      rw [hpayload] at hnamed
      exact interpret_device h ha.founded hcount hnamed
  exact {
    length := by simpa using ha.length
    founded := ha.founded.replay (fun _ => hfound) h.applied
    leaves := leaves_accept h hknown ha.leaves
    verified := foldlM_snoc ha.verified (verifyEvent_eq hc hknown hkeys hnumbers hcount)
    projected := foldlM_snoc ha.projected hproj }

/-- A name both sides read from an event of any shape. -/
theorem chainedType_of_chainedField {name : String} (hne : name ≠ "")
    (h : chainedField event "type" = some (.str name)) : chainedType event = some (.str name) := by
  unfold chainedField at h
  unfold chainedType
  cases htype : event.prop "type" with
  | some v =>
    rw [htype, Option.some_or] at h
    rw [h, or_str hne]
  | none =>
    rw [htype, Option.none_or] at h
    rw [or_none, ← h]
    unfold History.eventEnvelope readEnvelope Realm.History.eventEnvelope
    cases henv : event.prop "envelope" with
    | none => rfl
    | some v =>
      cases v with
      | arr xs =>
        -- the interpreter reads the event itself, which has no type
        exfalso
        simp [History.eventEnvelope, readEnvelope, henv, isObject, Option.filter, htype] at h
      | _ => rfl

/-- The interpreter chains no event the history skips. -/
theorem not_chained_of_foreign (h : Foreign event) : isHashChainedRealmEvent event = false := by
  rw [← Bool.not_eq_true]
  intro hchained
  have hcontract : hasRealmEventContract (chainedText event "type" "") = true := by
    simp only [isHashChainedRealmEvent, Bool.and_eq_true] at hchained
    exact hchained.1
  obtain ⟨t, htype⟩ : ∃ t : EventType, chainedField event "type" = some (.str t.name) := by
    simp only [hasRealmEventContract, History.knownEventTypes, List.contains_cons,
      List.contains_nil, Bool.or_false, Bool.or_eq_true, beq_iff_eq, chainedText] at hcontract
    cases htext : (chainedField event "type").bind asStr with
    | none =>
      rw [htext] at hcontract
      rcases hcontract with h | h <;> exact absurd h (by decide)
    | some name =>
      rw [htext] at hcontract
      rcases hcontract with rfl | rfl
      · exact ⟨.rootAuthorityCreated, bind_asStr_eq_some.mp htext⟩
      · exact ⟨.deviceKeyIssued, bind_asStr_eq_some.mp htext⟩
  have hread : chainedType event = some (.str t.name) := chainedType_of_chainedField t.name_ne_empty htype
  have hyes : Realm.hasRealmEventContract (chainedType event) = .ok true := by
    rw [hread, Realm.hasRealmEventContract, getRealmEventContract, strOrEmpty_str]
    simp [Except.map, registryLookup_name]
  have hno := h.2
  simp only [Realm.isHashChainedRealmEvent, hyes, ok_bind] at hno
  split at hno <;> cases hno

/-- An event that is no realm event. -/
theorem Agree.foreign (ha : Agree host serde log s fs) (h : Foreign event) :
    Agree host serde (log ++ [event]) s fs where
  length := by simpa using Nat.le_succ_of_le ha.length
  founded := ha.founded
  leaves := ha.leaves
  verified := foldlM_snoc ha.verified (by simp [verifyEvent, not_chained_of_foreign h])
  projected := foldlM_snoc ha.projected (by
    have hno : (event.prop "realm_event").bind asBool ≠ some true := by
      intro hyes
      obtain ⟨v, hv, hb⟩ := Option.bind_eq_some_iff.mp hyes
      have htrue : v = .bool true := by
        cases v <;> simp_all [asBool]
      have hcanon := h.1
      simp only [isCanonicalRealmEvent, hv, htrue, strictEq_true_iff.mpr, if_true] at hcanon
      cases hcanon
    simp [interpretEvent, hno])

/-- A run of events of the two types, each understood, keeps the two sides together. -/
theorem agree_of_reachable {ledger : Ledger} (hr : Reachable host ledger)
    (hfound : FoundingLog ledger.event_log)
    (hascii : ∀ event ∈ ledger.event_log, asciiKeys event = true)
    (hu : ∀ event ∈ ledger.event_log, founding event = true → Understood serde event)
    (hlen : ledger.event_log.length < 2 ^ 63) :
    ∃ s fs, Live host ledger s fs ∧ Agree host serde ledger.event_log s fs := by
  obtain ⟨s, fs, hlive, hagree⟩ := hr.invariant
    (P := fun log s fs => (∀ event ∈ log, asciiKeys event = true
      ∧ (isCanonicalRealmEvent event = .ok true → founding event = true ∧ Understood serde event)) →
      log.length < 2 ^ 63 → Agree host serde log s fs)
    (fun _ _ => agree_empty)
    (by
      intro log s fs clock t n event s' ih hacc hall hlen
      obtain ⟨hkeys, hcanon⟩ := hall event (by simp)
      obtain ⟨hfounding, hunderstood⟩ := hcanon hacc.shows.canonical
      have hcount : log.length + 1 < 2 ^ 63 := by simpa using hlen
      have hlog := ih (fun e he => hall e (List.mem_append_left _ he)) (by omega)
      exact hlog.accept hacc hfounding hkeys hunderstood hcount)
    (by
      intro log s fs event ih hforeign hall hlen
      have hcount : log.length + 1 < 2 ^ 63 := by simpa using hlen
      exact (ih (fun e he => hall e (List.mem_append_left _ he)) (by omega)).foreign hforeign)
  refine ⟨s, fs, hlive, hagree (fun e he => ⟨hascii e he, fun hcanon => ?_⟩) hlen⟩
  have hfounding := hfound e he hcanon
  exact ⟨hfounding, hu e he hfounding⟩

/-- The second implementation derives the authority state of the first. -/
theorem interprets_alike {ledger : Ledger} (hr : Reachable host ledger)
    (hfound : FoundingLog ledger.event_log)
    (hascii : ∀ event ∈ ledger.event_log, asciiKeys event = true)
    (hu : ∀ event ∈ ledger.event_log, founding event = true → Understood serde event)
    (hlen : ledger.event_log.length < 2 ^ 63) :
    ∃ s projection, buildCurrentAuthorityState host ledger.event_log = .ok s
      ∧ buildIndependentAuthorityState host serde ledger.event_log = .ok projection
      ∧ canonicalEncode serde projection =
        Realm.canonicalEncode (AuthorityState.codec.encode s) := by
  obtain ⟨s, fs, hlive, ha⟩ := agree_of_reachable hr hfound hascii hu hlen
  have hcount : s.lastSequence = .int fs.length := hlive.count
  have hlength := ha.length
  refine ⟨s, AuthorityState.codec.encode s, hlive.build, ?_, ?_⟩
  · rw [buildIndependentAuthorityState, verifyRealmEventHistory, ha.verified, ha.projected]
    rfl
  · apply canonicalEncode_eq
    · exact every_encode ha.founded ha.leaves (by decide) rfl
    · refine every_encode ha.founded ha.leaves (fun _ _ => rfl) ?_
      rw [hcount]
      simpa [spelled, every] using spelled_int serde (n := fs.length) (by omega) (by omega)

end

/-! ### A device with an empty name -/

/-- Numbers as `JSON.stringify` prints them. -/
def plainSerde : Serde where
  number := Json.numText
  number_int _ _ _ := rfl

/-- A name is ASCII when its letters are. -/
theorem isAscii_ofList {c : Char} {cs : List Char} (h : (c :: cs).all (·.toNat < 0x80) = true) :
    isAscii (String.ofList (c :: cs)) = true := by
  rw [isAscii, String.toList_ofList]
  exact h

theorem asciiKeys_field {c : Char} {cs : List Char} {v : Json} {fs : Fields}
    (hcs : (c :: cs).all (·.toNat < 0x80) = true) (hv : asciiKeys v = true)
    (hfs : asciiKeys (.obj fs) = true) :
    asciiKeys (.obj ((String.ofList (c :: cs), v) :: fs)) = true := by
  have hkey := isAscii_ofList hcs
  unfold asciiKeys every at hfs
  unfold asciiKeys at hv
  simp only [asciiKeys, every, everyField, hkey, hv, hfs, Bool.and_self]

theorem asciiKeys_digest (d : Option String) : asciiKeys (digest d) = true := by
  cases d <;> rfl

/-- The validator's own names are ASCII: those of an event are if those of its payload and of its
timestamp are. -/
theorem asciiKeys_acceptedEvent {host : Host} {clock : Clock} {n : NormalizedProposal} (d : Option String)
    (hpayload : asciiKeys (.obj n.payload) = true) (htime : asciiKeys n.envelope.timestamp = true)
    (hprevious : asciiKeys n.envelope.previous_event_hash = true) :
    asciiKeys (acceptedEvent host clock n (digest d)) = true := by
  have henvelope : asciiKeys n.envelope.toJson = true := by
    unfold Envelope.toJson
    repeat' refine asciiKeys_field (by decide) (by first | assumption | rfl) ?_
    rfl
  have hdigest := asciiKeys_digest d
  unfold acceptedEvent acceptedFields
  dsimp only [List.cons_append, List.nil_append]
  repeat' refine asciiKeys_field (by decide) (by first | assumption | rfl) ?_
  rfl

/-- The events of a script are what the validator makes of its proposals. -/
theorem runCalls_event {host : Host} {calls : List (Clock × Json)} {event : Json}
    (he : event ∈ (runCalls host calls).1.event_log) :
    ∃ clock n d, event = acceptedEvent host clock n (digest d) := by
  induction calls using List.reverseRecOn with
  | nil => cases he
  | append_singleton calls call ih =>
    obtain ⟨s, fs, hlive, -⟩ := (runInv_runCalls host calls).live
    rw [runCalls, List.foldl_append, List.foldl_cons, List.foldl_nil] at he
    change event ∈ (runCall host (runCalls host calls) call).1.event_log at he
    unfold runCall at he
    split at he
    · next accepted n ledger hcall =>
      obtain ⟨t, s', hacc, -, hlog⟩ := hlive.accept hcall
      rw [hlog, List.mem_append, List.mem_singleton] at he
      rcases he with he | rfl
      · exact ih he
      · exact ⟨call.1, n, _, hacc.event_eq⟩
    · next result ledger hno hcall =>
      have hsame : ledger = (runCalls host calls).1 := by
        apply hlive.refuse hcall
        rintro event n rfl
        exact hno event n rfl
      exact ih (hsame ▸ he)

/-- What of an event is not the validator's. -/
def ownKeys (event : Json) : Bool :=
  asciiKeys (Realm.eventPayload event) && ((event.prop "timestamp").all asciiKeys
    && ((event.prop "envelope").bind (Json.prop · "previous_event_hash")).all asciiKeys)

theorem script_ascii {host : Host} {es : List ScriptEntry}
    (h : (scriptLedger host es).event_log.all ownKeys = true) :
    ∀ event ∈ (scriptLedger host es).event_log, asciiKeys event = true := by
  intro event he
  have hown := List.all_eq_true.mp h event he
  obtain ⟨clock, n, d, rfl⟩ := runCalls_event he
  have hshows := shows_acceptedEvent host clock n (digest d)
  unfold ownKeys at hown
  rw [Bool.and_eq_true, Bool.and_eq_true, hshows.eventPayload_eq, hshows.timestamp, hshows.envelope] at hown
  obtain ⟨hpayload, htime, hprevious⟩ := hown
  exact asciiKeys_acceptedEvent d hpayload htime hprevious

theorem desk_ascii : ∀ event ∈ deskLedger.event_log, asciiKeys event = true :=
  script_ascii (by decide +kernel)

theorem desk_understood : ∀ event ∈ deskLedger.event_log, Understood plainSerde event := by
  have hall : deskLedger.event_log.all (fun event => spelled plainSerde (Realm.eventPayload event)
      && ((Realm.eventPayload event).prop "authority_ref").isNone
      && ((Realm.eventPayload event).prop "device_authority").isNone) = true := by decide +kernel
  intro event he
  have hevent := List.all_eq_true.mp hall event he
  simp only [Bool.and_eq_true, Option.isNone_iff_eq_none] at hevent
  exact ⟨hevent.1.1, fun _ => .byId hevent.1.2 hevent.2⟩

theorem interprets_alike_desk :
    ∃ s projection, buildCurrentAuthorityState deskHost deskLedger.event_log = .ok s
      ∧ buildIndependentAuthorityState deskHost plainSerde deskLedger.event_log = .ok projection
      ∧ canonicalEncode plainSerde projection =
        Realm.canonicalEncode (AuthorityState.codec.encode s) := by
  have hcount : deskLedger.event_log.length < 2 ^ 63 := by
    have hthree : deskLedger.event_log.length = 3 := by decide +kernel
    omega
  exact interprets_alike (reachable_script ..) desk_founding desk_ascii
    (fun event he _ => desk_understood event he) hcount

/-- A root, and a device whose `authority_ref` is the empty string. -/
def unnamedScript : List ScriptEntry := [
  ⟨"ROOT_AUTHORITY_CREATED", "root:alice", "root:alice", [("root_id", .str "alice")],
    "560030b075ae25bae0d80a6d3a59e5dd3615e02d5e06e025abfb462a2dc6b7cb"⟩,
  ⟨"DEVICE_KEY_ISSUED", "root:alice", "root:alice",
    [("device_id", .str "phone"), ("public_key", .str "key-phone"), ("authority_ref", .str "")],
    "6e66a75681f43b9b1e2416ff3a8c00862b65b5d8f2e1ffaa9c834e03d7c1ce21"⟩]

def unnamedHost : Host := scriptHost unnamedScript [] (by decide)

/-- The name of the first device of a projection. -/
def deviceName (projection : Json) : String :=
  match projection.prop "devices" with
  | some (.arr (device :: _)) => textOf (device.prop "authorityRef")
  | _ => ""

theorem written_num (n : Number) : (Json.num n).written = .num n ∨ (Json.num n).written = .null := by
  unfold Json.written
  split
  · exact .inl rfl
  · exact .inr rfl

theorem textOf_map_canon (v : Option Json) : textOf (v.map fun v => v.written.canon) = textOf v := by
  cases v with
  | none => rfl
  | some v =>
    cases v with
    | num n =>
      show textOf (some (Json.num n).written.canon) = ""
      rcases written_num n with h | h <;> rw [h] <;> rfl
    | _ => rfl

/-- The name is read off the encoding. -/
theorem deviceName_canon (v : Json) : deviceName v.written.canon = deviceName v := by
  unfold deviceName
  rw [Json.prop_canon, Json.prop_written]
  cases v.prop "devices" with
  | none => rfl
  | some w =>
    cases w with
    | arr xs =>
      cases xs with
      | nil => rfl
      | cons device xs =>
        show textOf (device.written.canon.prop "authorityRef") = textOf (device.prop "authorityRef")
        rw [Json.prop_canon, Json.prop_written, Option.map_map]
        exact textOf_map_canon _
    | num n =>
      show (match some (Json.num n).written.canon with
        | some (.arr (device :: _)) => textOf (device.prop "authorityRef")
        | _ => "") = ""
      rcases written_num n with h | h <;> rw [h] <;> rfl
    | _ => rfl

theorem interprets_of_build {host : Host} {serde : Serde} {log : List Json} {projection : Json}
    (h : buildIndependentAuthorityState host serde log = .ok projection) :
    interpretFrom emptyProjection log = .ok projection := by
  unfold buildIndependentAuthorityState at h
  cases hverify : verifyRealmEventHistory host serde log with
  | error e =>
    rw [hverify] at h
    cases h
  | ok _ =>
    rw [hverify] at h
    exact h

/-- The first implementation names the device `device:phone`, the second gives it the empty name. -/
theorem empty_name_differs :
    ¬ ∀ (host : Host) (serde : Serde) (ledger : Ledger), Reachable host ledger →
      FoundingLog ledger.event_log →
      (∀ event ∈ ledger.event_log, asciiKeys event = true) →
      ∃ s projection, buildCurrentAuthorityState host ledger.event_log = .ok s
        ∧ buildIndependentAuthorityState host serde ledger.event_log = .ok projection
        ∧ canonicalEncode serde projection =
          Realm.canonicalEncode (AuthorityState.codec.encode s) := by
  intro h
  have hr := reachable_script unnamedHost unnamedScript
  have hlog : (scriptLedger unnamedHost unnamedScript).event_log.all (fun event =>
      founding event && ownKeys event) = true := by decide +kernel
  -- What the second implementation verifies first is not evaluated: it is assumed to accept the log.
  have hprojection : ((interpretFrom emptyProjection (scriptLedger unnamedHost unnamedScript).event_log).toOption.map
      fun projection => deviceName projection == "" && asciiKeys projection && spelled plainSerde projection) =
        some true := by decide +kernel
  have hstate : stateView (fun s => deviceName (AuthorityState.codec.encode s))
      (scriptLedger unnamedHost unnamedScript) = some "device:phone" := by decide +kernel
  have hevents := fun event he => Bool.and_eq_true _ _ ▸ List.all_eq_true.mp hlog event he
  have hascii : ∀ event ∈ (scriptLedger unnamedHost unnamedScript).event_log, asciiKeys event = true :=
    script_ascii (List.all_eq_true.mpr fun event he => (hevents event he).2)
  obtain ⟨s, fs, hlive⟩ := hr.live
  obtain ⟨s', projection, hbuild, hindependent, hencode⟩ := h unnamedHost plainSerde _ hr
    (fun event he _ => (hevents event he).1) hascii
  cases Except.ok.inj (hlive.build.symm.trans hbuild)
  obtain ⟨s'', hs'', hname⟩ := exists_of_stateView hstate
  cases hlive.state.symm.trans hs''
  rw [interprets_of_build hindependent] at hprojection
  have hfacts := Option.some.inj hprojection
  rw [Bool.and_eq_true, Bool.and_eq_true, beq_iff_eq] at hfacts
  obtain ⟨⟨hunnamed, hkeys⟩, hspelled⟩ := hfacts
  rw [canonicalEncode_eq hkeys hspelled, Realm.canonicalEncode_eq_iff] at hencode
  rw [← deviceName_canon, ← hencode, deviceName_canon, hunnamed] at hname
  exact absurd hname (by decide)

end SimpleL1.Interpreter
