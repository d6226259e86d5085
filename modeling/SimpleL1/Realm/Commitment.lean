import SimpleL1.Realm.Coverage
import SimpleL1.Realm.Untimed

/-!
# What the head commits to

The chain hashes an event's own fields first, replay reads its envelope. An
event is committed when the two agree on what its handler reads. Committed
histories with one head replay to one projection, up to timestamps: their events
have the same hashed fields, so their handlers make the same changes.
-/

namespace SimpleL1.Realm

open SimpleL1.Js SimpleL1.Lib

/-! ## Committed events -/

/-- What is read is what is hashed, and JSON can write it. -/
def Agrees (read : Option Json) (hashed : Json) : Prop :=
  hashed.finite = true ∧ ReadAlike read (some hashed)

/-- What replay reads of the event, under this envelope, is what the chain hashes of it. -/
structure Committed (event envelope : Json) (t : EventType) (f : HashedFields) : Prop where
  read : Projection.eventEnvelope event = .ok (some envelope)
  hashed : hashedFields event = .ok f
  type : strOrEmpty (envelope.prop "type") = .ok t.name ∧ f.type = .str t.name
  sequence : toNumber (envelope.prop "sequence") = .ok f.sequence ∧ f.sequence.isFinite = true
  payload : f.payload.finite = true
  signer : "signer" ∈ t.envelopeReads → Agrees (envelope.prop "signer") f.signer
  authority_reference : "authority_reference" ∈ t.envelopeReads →
    Agrees (envelope.prop "authority_reference") f.authority_reference

def IsCommitted (event : Json) : Prop := ∃ envelope t f, Committed event envelope t f

theorem payload_of_hashed {event : Json} {f : HashedFields} (h : hashedFields event = .ok f) :
    f.payload = eventPayload event := by
  unfold hashedFields at h
  simp only [bind_eq_ok, pure_eq_ok, Except.ok.injEq] at h
  obtain ⟨_, -, _, -, rfl⟩ := h
  rfl

theorem eq_of_orEmpty {a : Option Json} {x : String} (h : orEmpty a = .str x) (hne : x ≠ "") :
    a = some (.str x) := by
  unfold orEmpty at h
  by_cases ha : truthy a = true
  · rw [or_of_truthy ha] at h
    cases a with
    | none => cases h
    | some v => exact congrArg some h
  · rw [or_of_falsy (Bool.not_eq_true _ ▸ ha)] at h
    exact absurd (Json.str.inj h).symm hne

theorem chainedType_of_hashed {event : Json} {f : HashedFields} {type : String}
    (h : hashedFields event = .ok f) (htype : f.type = .str type) (hne : type ≠ "") :
    chainedType event = some (.str type) := by
  unfold hashedFields at h
  simp only [bind_eq_ok, pure_eq_ok, Except.ok.injEq] at h
  obtain ⟨_, -, _, -, rfl⟩ := h
  exact eq_of_orEmpty htype hne

/-- The id of an event whose hashed type is a name. -/
theorem buildRealmEventId_of_hashed {event : Json} {f : HashedFields} {type : String}
    (h : hashedFields event = .ok f) (htype : f.type = .str type) (hne : type ≠ "") (hash : String) :
    buildRealmEventId event hash = .ok ("realm_evt_" ++ f.sequence.toString ++ "_"
      ++ toLowerCase type ++ "_" ++ slice16 hash) := by
  have hchained := chainedType_of_hashed h htype hne
  unfold hashedFields at h
  simp only [bind_eq_ok, pure_eq_ok, Except.ok.injEq] at h
  obtain ⟨n, hn, version, -, rfl⟩ := h
  simp only [buildRealmEventId, hchained, or_str hne, hn, ok_bind]
  rfl

namespace Committed

variable {event envelope : Json} {t : EventType} {f : HashedFields}

theorem contract (h : Committed event envelope t f) :
    getRealmEventContract (envelope.prop "type") = .ok (some (.contract t)) := by
  simp [getRealmEventContract, h.type.1, registryLookup_name]

theorem canonical (h : Committed event envelope t f) : isCanonicalRealmEvent event = .ok true := by
  simp only [isCanonicalRealmEvent, h.read, ok_bind, hasRealmEventContract, h.contract]
  split <;> rfl

theorem chained (h : Committed event envelope t f) : isHashChainedRealmEvent event = .ok true := by
  have hchained := chainedType_of_hashed h.hashed h.type.2 t.name_ne_empty
  have hcontract : hasRealmEventContract (chainedType event) = .ok true := by
    simp [hasRealmEventContract, getRealmEventContract, hchained, registryLookup_name]
  simp only [isHashChainedRealmEvent, hcontract]
  split <;> rfl

/-- Replay runs the handler of a committed event it can read. -/
theorem runs (h : Committed event envelope t f) {s s' : AuthorityState}
    (hr : replayEvent s event = .ok s') : Runs event envelope t f.sequence := by
  rcases replayEvent_cases hr with ⟨hig, -⟩ | ⟨envelope', t', n, hruns⟩
  · exfalso
    cases hig with
    | notCanonical hno => rw [h.canonical] at hno; cases hno
    | noEnvelope hno => rw [h.read] at hno; cases hno
    | noContract henv hno =>
      cases h.read.symm.trans henv
      rw [h.contract] at hno
      cases hno
  · cases h.read.symm.trans hruns.read
    cases h.contract.symm.trans hruns.contract
    cases h.sequence.1.symm.trans hruns.sequence
    exact hruns

end Committed

/-! ## Alike fields -/

section
variable {f g : HashedFields}

theorem same_of_finite {v w : Json} (hv : v.finite = true) (hw : w.finite = true)
    (h : v.written.Same w.written) : v.Same w := by
  rwa [Json.written_of_finite hv, Json.written_of_finite hw] at h

theorem HashedFields.Alike.symm (h : f.Alike g) : g.Alike f where
  authority_reference := h.authority_reference.symm
  payload := h.payload.symm
  sequence := h.sequence.symm
  signer := h.signer.symm
  type := h.type.symm
  version := h.version.symm

theorem HashedFields.Alike.type_eq (h : f.Alike g) {a b : String} (ha : f.type = .str a)
    (hb : g.type = .str b) : a = b := by
  have htype := h.type
  rw [ha, hb] at htype
  exact Json.str.inj htype

theorem HashedFields.Alike.sequence_eq (h : f.Alike g) (hf : f.sequence.isFinite = true)
    (hg : g.sequence.isFinite = true) : f.sequence = g.sequence :=
  Json.num.inj (same_of_finite (v := .num f.sequence) (w := .num g.sequence) hf hg h.sequence)

/-- A finite number is alike to itself only. -/
theorem HashedFields.Alike.sequence_eq_of_left (h : f.Alike g) (hf : f.sequence.isFinite = true) :
    f.sequence = g.sequence := by
  by_cases hg : g.sequence.isFinite = true
  · exact h.sequence_eq hf hg
  · exfalso
    have hsequence := h.sequence
    simp only [Json.written, hf, hg, if_true, Bool.false_eq_true, if_false] at hsequence
    cases hsequence

theorem HashedFields.Alike.type_of_left (h : f.Alike g) {type : String} (hf : f.type = .str type) :
    g.type = .str type := by
  have htype := h.type
  rw [hf] at htype
  cases hg : g.type with
  | str s => rw [hg] at htype; exact congrArg Json.str (Json.str.inj htype).symm
  | num n =>
    rw [hg] at htype
    unfold Json.Same Json.written at htype
    split at htype <;> cases htype
  | _ => rw [hg] at htype; cases htype

theorem Agrees.alike {a b : Option Json} {v w : Json} (ha : Agrees a v) (hb : Agrees b w)
    (h : v.written.Same w.written) : ReadAlike a b := by
  have hsame : ReadAlike (some v) (some w) :=
    .of_eq (congrArg some (same_of_finite ha.1 hb.1 h))
  exact ha.2.trans (hsame.trans hb.2.symm)

theorem material_same (h : f.Alike g) (prev : Json) :
    (f.material prev).written.Same (g.material prev).written := by
  have hauthority := h.authority_reference
  have hpayload := h.payload
  have hsequence := h.sequence
  have hsigner := h.signer
  have htype := h.type
  have hversion := h.version
  unfold Json.Same at *
  simp only [HashedFields.material, Json.written, Json.writtenFields, Json.canon, Json.canonFields]
    at *
  rw [hauthority, hpayload, hsigner, htype, hsequence, hversion]

/-- Fields alike have one link. -/
theorem link_congr (host : Host) (d : Option String) (h : f.Alike g) :
    link host d f = link host d g := by
  unfold link
  rw [canonicalEncode_eq_iff.mpr (material_same h _)]

end

/-! ## One head, one projection -/

/-- Committed events with the same hashed fields change the projection alike. -/
theorem Committed.replay_alike {host : Host} {d : Option String} {event event' envelope envelope' : Json}
    {t t' : EventType} {f g : HashedFields} {s s' m : AuthorityState}
    (h : Committed event envelope t f) (h' : Committed event' envelope' t' g)
    (hruns : Runs event envelope t f.sequence) (hruns' : Runs event' envelope' t' g.sequence)
    (hatt : Attached host d event f) (hatt' : Attached host d event' g) (halike : f.Alike g)
    (hs : s.untimed = s'.untimed) (hm : replayEvent s event = .ok m) :
    ∃ m', replayEvent s' event' = .ok m' ∧ m.untimed = m'.untimed := by
  have htype : t = t' :=
    EventType.name_injective (halike.type_eq h.type.2 h'.type.2)
  subst htype
  have hseq := halike.sequence_eq h.sequence.2 h'.sequence.2
  -- the ids are built from the hashed fields
  have hid : eventIdOf event = eventIdOf event' := by
    obtain ⟨id, hbuild, -, hown⟩ := hatt.named
    obtain ⟨id', hbuild', -, hown'⟩ := hatt'.named
    rw [buildRealmEventId_of_hashed h.hashed h.type.2 t.name_ne_empty] at hbuild
    rw [buildRealmEventId_of_hashed h'.hashed h'.type.2 t.name_ne_empty] at hbuild'
    have hlink := Option.some.inj (link_congr host d halike)
    have hids : id = id' := by
      rw [← Except.ok.inj hbuild, ← Except.ok.inj hbuild', hseq, hlink]
    unfold eventIdOf
    rw [hown, hown', hids]
  have hpayload : (migratedPayload t event).Alike (migratedPayload t event') := by
    apply migration_alike t
    rw [← payload_of_hashed h.hashed, ← payload_of_hashed h'.hashed]
    exact same_of_finite h.payload h'.payload halike.payload
  have hreads : ∀ field ∈ t.envelopeReads, ReadAlike (envelope.prop field) (envelope'.prop field) := by
    intro field hfield
    have hone : field = "signer" ∨ field = "authority_reference" := by
      cases t <;> simp_all [EventType.envelopeReads, or_comm]
    rcases hone with rfl | rfl
    · exact (h.signer hfield).alike (h'.signer hfield) halike.signer
    · exact (h.authority_reference hfield).alike (h'.authority_reference hfield)
        halike.authority_reference
  have hlen : s.sessions.length = s'.sessions.length := by
    rw [← untimed_sessions_length, hs, untimed_sessions_length]
  rw [hruns.replay] at hm
  obtain ⟨c, hc, hm⟩ := bind_eq_ok.mp hm
  cases hm
  have hchange := changeOf_congr hpayload hreads s.sessions.length
  rw [hc, hlen] at hchange
  obtain ⟨c', hc', hcanon⟩ := map_eq_ok.mp hchange.symm
  refine ⟨_, (hruns'.replay s').trans (bind_eq_ok.mpr ⟨c', hc', rfl⟩), ?_⟩
  rw [Change.apply_untimed, Change.apply_untimed, hcanon, untimed_setSequence,
    untimed_setSequence, hs, hseq]
  simp only [stampOf, Stamp.untimed, hid]

/-- Committed chains with the same hashed fields replay alike. -/
theorem replay_commits {host : Host} {d : Option String} {log log' : List Json}
    {fs gs : List HashedFields} (h : Chain host d log fs) (h' : Chain host d log' gs)
    (halike : List.Forall₂ HashedFields.Alike fs gs)
    (hch : ∀ e ∈ log, isHashChainedRealmEvent e = .ok true ∧ IsCommitted e)
    (hch' : ∀ e ∈ log', isHashChainedRealmEvent e = .ok true ∧ IsCommitted e)
    {s s' r r' : AuthorityState} (hs : s.untimed = s'.untimed) (hr : replayFrom s log = .ok r)
    (hr' : replayFrom s' log' = .ok r') : r.untimed = r'.untimed := by
  induction h generalizing log' gs s s' with
  | nil d =>
    cases halike
    cases h' with
    | nil =>
      cases hr
      cases hr'
      exact hs
    | skip hskip _ =>
      have := (hch' _ List.mem_cons_self).1
      rw [hskip] at this
      cases this
  | skip hskip _ _ =>
    have := (hch _ List.mem_cons_self).1
    rw [hskip] at this
    cases this
  | @link d event log f fs _ hatt _ ih =>
    cases halike with
    | @cons _ g _ gs hfg halike =>
    cases h' with
    | skip hskip _ =>
      have := (hch' _ List.mem_cons_self).1
      rw [hskip] at this
      cases this
    | @link _ event' log' _ _ _ hatt' hrest =>
      obtain ⟨m, hm, hr⟩ := bind_eq_ok.mp hr
      obtain ⟨m', hm', hr'⟩ := bind_eq_ok.mp hr'
      obtain ⟨envelope, t, f₀, hcom⟩ := (hch event List.mem_cons_self).2
      obtain ⟨envelope', t', g₀, hcom'⟩ := (hch' event' List.mem_cons_self).2
      cases hatt.hashed.symm.trans hcom.hashed
      cases hatt'.hashed.symm.trans hcom'.hashed
      obtain ⟨m'', hm'', halike_m⟩ := hcom.replay_alike hcom' (hcom.runs hm) (hcom'.runs hm') hatt
        hatt' hfg hs hm
      cases hm'.symm.trans hm''
      rw [← link_congr host d hfg] at hrest
      exact ih hrest halike (fun e he => hch e (List.mem_cons_of_mem _ he))
        (fun e he => hch' e (List.mem_cons_of_mem _ he))
        halike_m hr hr'

/-- With a collision-free hash, histories of committed events with one head replay to one projection,
up to timestamps. -/
theorem head_commits {host : Host} (hcf : host.CollisionFree) {log log' : List Json}
    {s s' : AuthorityState} (hbuild : buildCurrentAuthorityState host log = .ok s)
    (hbuild' : buildCurrentAuthorityState host log' = .ok s')
    (hch : ∀ e ∈ log, isHashChainedRealmEvent e = .ok true)
    (hch' : ∀ e ∈ log', isHashChainedRealmEvent e = .ok true)
    (hhead : latestRealmEventHash log = latestRealmEventHash log')
    (hcom : ∀ e ∈ log, IsCommitted e) (hcom' : ∀ e ∈ log', IsCommitted e) :
    s.untimed = s'.untimed := by
  obtain ⟨⟨fs, hchain⟩, hr⟩ := build_eq_ok.mp hbuild
  obtain ⟨⟨gs, hchain'⟩, hr'⟩ := build_eq_ok.mp hbuild'
  rw [hchain.latest, hchain'.latest] at hhead
  have halike := (link_binding hcf).commits (digest_injective (Except.ok.inj hhead))
  exact replay_commits hchain hchain' halike (fun e he => ⟨hch e he, hcom e he⟩)
    (fun e he => ⟨hch' e he, hcom' e he⟩) rfl hr hr'

/-- The ids and hashes of an event of type `t` with the hashed fields `f`, after the digest `d`. -/
def chainFields (host : Host) (d : Option String) (t : EventType) (f : HashedFields) : Fields :=
  let hash := host.sha256 (canonicalEncode (f.material (digest d)))
  let id := "realm_evt_" ++ f.sequence.toString ++ "_" ++ toLowerCase t.name ++ "_" ++ slice16 hash
  [("id", .str id), ("event_id", .str id), ("previous_event_hash", digest d),
    ("current_event_hash", .str hash)]

/-! ### A root creation whose envelope is free -/

/-- Alice's root creation; `ref` and `time` stand in the envelope. -/
def creationFields (ref time : String) : Fields :=
  [("type", .str "ROOT_AUTHORITY_CREATED"), ("signer", .str "root:alice"),
    ("authority_reference", .str "root:alice"), ("sequence", .num (.int 1)),
    ("envelope", .obj [("type", .str "ROOT_AUTHORITY_CREATED"), ("signer", .str "root:alice"),
      ("authority_reference", .str ref), ("sequence", .num (.int 1)), ("timestamp", .str time)]),
    ("payload", .obj [("root_id", .str "alice")])]

def creationHashed : HashedFields where
  authority_reference := .str "root:alice"
  payload := .obj [("root_id", .str "alice")]
  sequence := .int 1
  signer := .str "root:alice"
  type := .str "ROOT_AUTHORITY_CREATED"
  version := .int 1

def creationEvent (host : Host) (ref time : String) : Json :=
  .obj (creationFields ref time ++ chainFields host none .rootAuthorityCreated creationHashed)

theorem creation_attached (host : Host) (ref time : String) :
    Attached host none (creationEvent host ref time) creationHashed :=
  ⟨rfl, rfl, rfl, _, rfl, rfl, rfl⟩

theorem creation_chain (host : Host) (ref time : String) :
    Chain host none [creationEvent host ref time] [creationHashed] :=
  .link rfl (creation_attached host ref time) (.nil _)

theorem creation_build (host : Host) (ref : String) (hne : ref ≠ "") (time : String) :
    ∃ s root, buildCurrentAuthorityState host [creationEvent host ref time] = .ok s
      ∧ s.rootAuthority = some root ∧ root.authorityRef = ref ∧ root.status = .active := by
  have hr : ∃ s root, replayFrom emptyAuthorityState [creationEvent host ref time] = .ok s
      ∧ s.rootAuthority = some root ∧ root.authorityRef = ref ∧ root.status = .active := by
    rw [replayFrom_singleton]
    have hruns : Runs (creationEvent host ref time) (.obj [("type", .str "ROOT_AUTHORITY_CREATED"),
        ("signer", .str "root:alice"), ("authority_reference", .str ref),
        ("sequence", .num (.int 1)), ("timestamp", .str time)]) .rootAuthorityCreated (.int 1) :=
      ⟨rfl, rfl, rfl, rfl, rfl⟩
    rw [hruns.replay]
    refine ⟨_, _, bind_eq_ok.mpr ⟨.establishRoot "alice" ref, ?_, rfl⟩, rfl, rfl, rfl⟩
    have hpayload : migratedPayload .rootAuthorityCreated (creationEvent host ref time) =
        [("root_id", .str "alice")] := rfl
    simp [changeOf, readEstablishRoot, hne, hpayload]
  obtain ⟨s, root, hr, hroot, href⟩ := hr
  exact ⟨s, root, build_eq_ok.mpr ⟨⟨_, creation_chain host ref time⟩, hr⟩, hroot, href⟩

theorem creation_committed (host : Host) (time : String) :
    IsCommitted (creationEvent host "root:alice" time) :=
  ⟨_, .rootAuthorityCreated, creationHashed, rfl, rfl, ⟨rfl, rfl⟩, ⟨rfl, rfl⟩, rfl,
    fun _ => ⟨rfl, rfl⟩, fun _ => ⟨rfl, rfl⟩⟩

/-- A host whose digest is the text itself, behind a `~`. -/
def plainHost : Host := .ofTable [] [] (List.forall_mem_nil _)

theorem plainHost_collisionFree : plainHost.CollisionFree :=
  Host.ofTable_collisionFree (by simp) (by simp)

/-- Two creations at different times share their head and their projection but for the time. -/
theorem head_commits_retimed :
    ∃ host s s', buildCurrentAuthorityState host [creationEvent host "root:alice" "09:00"] = .ok s
      ∧ buildCurrentAuthorityState host [creationEvent host "root:alice" "10:00"] = .ok s'
      ∧ s.untimed = s'.untimed := by
  obtain ⟨s, -, hs, -⟩ := creation_build plainHost "root:alice" (by decide) "09:00"
  obtain ⟨s', -, hs', -⟩ := creation_build plainHost "root:alice" (by decide) "10:00"
  refine ⟨_, s, s', hs, hs', head_commits plainHost_collisionFree hs hs' ?_ ?_ ?_ ?_ ?_⟩
  · intro e he
    rw [List.mem_singleton.mp he]; rfl
  · intro e he
    rw [List.mem_singleton.mp he]; rfl
  · rw [(creation_chain _ _ _).latest, (creation_chain _ _ _).latest]
  · intro e he
    rw [List.mem_singleton.mp he]; exact creation_committed _ _
  · intro e he
    rw [List.mem_singleton.mp he]; exact creation_committed _ _

/-- The authority reference in the envelope is not hashed, and it is the one replay takes. -/
theorem head_commits_fails :
    ¬ ∃ host : Host, ∀ (log log' : List Json) (s s' : AuthorityState),
      buildCurrentAuthorityState host log = .ok s → buildCurrentAuthorityState host log' = .ok s' →
      (∀ e ∈ log, isHashChainedRealmEvent e = .ok true) →
      (∀ e ∈ log', isHashChainedRealmEvent e = .ok true) →
      latestRealmEventHash log = latestRealmEventHash log' → s.untimed = s'.untimed := by
  rintro ⟨host, h⟩
  obtain ⟨s, root, hs, hroot, href, -⟩ := creation_build host "root:alice" (by decide) "09:00"
  obtain ⟨s', root', hs', hroot', href', -⟩ :=
    creation_build host "root:mallory" (by decide) "09:00"
  have huntimed := h _ _ s s' hs hs' (by rintro e he; rw [List.mem_singleton.mp he]; rfl)
    (by rintro e he; rw [List.mem_singleton.mp he]; rfl)
    (by rw [(creation_chain _ _ _).latest, (creation_chain _ _ _).latest])
  have hroots := congrArg (fun s => s.rootAuthority.map RootAuthority.authorityRef) huntimed
  simp [AuthorityState.untimed, RootAuthority.untimed, hroot, hroot', href, href'] at hroots

end SimpleL1.Realm
