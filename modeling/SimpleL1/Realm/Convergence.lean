import SimpleL1.Realm.Replication

/-!
# Convergence

A received batch was verified by the hashes of the events as sent, and each event
was stored under the hash of its normalised proposal. The two logs agree exactly
when every event of the batch hashes what its normalised proposal says.
-/

namespace SimpleL1.Realm

open SimpleL1.Js SimpleL1.Lib

/-! ## The two hashes of an event -/

/-- What acceptance hashes of an event submitted as a proposal. -/
def normalizedHashed (event : Json) : JsM HashedFields :=
  (normalizeRealmEventProposal "" event).map NormalizedProposal.hashed

/-- The time a missing timestamp gets is not hashed. -/
theorem normalizedHashed_of_normalize {now : String} {event : Json} {n : NormalizedProposal}
    (h : normalizeRealmEventProposal now event = .ok n) : normalizedHashed event = .ok n.hashed := by
  unfold normalizedHashed
  unfold normalizeRealmEventProposal at h ⊢
  split at h
  · cases h
  simp only [bind_eq_ok, pure_eq_ok, Except.ok.injEq] at h
  obtain ⟨type, htype, signer, hsigner, ref, href, sequence, hsequence, rfl⟩ := h
  simp only [htype, hsigner, href, hsequence, ok_bind, pure_eq_ok, map_ok]
  rfl

/-- The event hashes what its normalised proposal says, up to what text can tell. -/
def HashesProposal (event : Json) : Prop :=
  ∃ f g, hashedFields event = .ok f ∧ normalizedHashed event = .ok g ∧ g.Alike f

/-- One hash and one id. -/
def SameEvent (event stored : Json) : Prop :=
  stored.prop "current_event_hash" = event.prop "current_event_hash"
  ∧ stored.prop "event_id" = event.prop "event_id"

/-- An event stored under the hash it was sent with hashes what its proposal says, and conversely
when the digests before the two are the same. -/
theorem Accepts.sameEvent_iff {host : Host} (hcf : host.CollisionFree) {clock : Clock}
    {s s' : AuthorityState} {fs : List HashedFields} {t : EventType} {n : NormalizedProposal}
    {event stored : Json} {d : Option String} {f : HashedFields}
    (hacc : Accepts host clock s fs t n stored s') (hatt : Attached host d event f) :
    SameEvent event stored ↔ headOf host fs = d ∧ n.hashed.Alike f := by
  have hstored := hacc.attached
  constructor
  · rintro ⟨hcur, -⟩
    rw [hstored.current, hatt.current] at hcur
    exact link_separates hcf (digest_injective (Option.some.inj hcur))
  · rintro ⟨rfl, halike⟩
    have hlink := link_congr host (headOf host fs) halike
    refine ⟨by rw [hstored.current, hatt.current, hlink], ?_⟩
    obtain ⟨id, hbuild, hid, -⟩ := hstored.named
    obtain ⟨id', hbuild', hid', -⟩ := hatt.named
    have htype : n.hashed.type = .str t.name := congrArg Json.str hacc.type
    have hfinite : n.hashed.sequence.isFinite = true := by
      rw [NormalizedProposal.hashed, hacc.sequence]
      rfl
    rw [buildRealmEventId_of_hashed hstored.hashed htype t.name_ne_empty] at hbuild
    rw [buildRealmEventId_of_hashed hatt.hashed (halike.type_of_left htype) t.name_ne_empty,
      ← halike.sequence_eq_of_left hfinite] at hbuild'
    rw [hid, hid', ← Except.ok.inj hbuild, ← Except.ok.inj hbuild', Option.some.inj hlink]

/-! ## Batches -/

/-- The stored events are the events of the batch exactly when each of these hashes its proposal;
then the two chains end in one digest. -/
theorem Appended.sameEvents_iff {host : Host} (hcf : host.CollisionFree) {s : AuthorityState}
    {fs fs' hs : List HashedFields} {events stored : List Json} {d : Option String}
    (happ : Appended host s fs events stored fs') (hseg : Segment host d events hs)
    (hhead : headOf host fs = d) :
    (List.Forall₂ SameEvent events stored ↔ ∀ event ∈ events, HashesProposal event)
    ∧ ((∀ event ∈ events, HashesProposal event) → headOf host fs' = HashChain.head (link host) d hs) := by
  induction happ generalizing d hs with
  | nil =>
    cases hseg
    exact ⟨⟨(fun _ event he => by cases he), fun _ => .nil⟩, fun _ => hhead⟩
  | @cons clock s s' fs fs' event stored t n events rest hn hacc _ ih =>
    cases hseg with
    | @cons _ _ _ f hs hatt hseg =>
    have hproposal : HashesProposal event ↔ n.hashed.Alike f := by
      constructor
      · rintro ⟨f', g', hf, hg, halike⟩
        cases hf.symm.trans hatt.hashed
        cases hg.symm.trans (normalizedHashed_of_normalize hn)
        exact halike
      · intro halike
        exact ⟨f, n.hashed, hatt.hashed, normalizedHashed_of_normalize hn, halike⟩
    -- once the first event agrees, the heads after it do
    have hnext : n.hashed.Alike f → headOf host (fs ++ [n.hashed]) = link host d f := by
      intro halike
      rw [headOf, HashChain.head_snoc, ← link_congr host d halike]
      exact congrArg (link host · n.hashed) hhead
    have hsame := hacc.sameEvent_iff hcf hatt
    constructor
    · rw [List.forall₂_cons, List.forall_mem_cons, hsame, hproposal]
      constructor
      · rintro ⟨⟨-, halike⟩, hrest⟩
        exact ⟨halike, (ih hseg (hnext halike)).1.mp hrest⟩
      · rintro ⟨halike, hrest⟩
        exact ⟨⟨hhead, halike⟩, (ih hseg (hnext halike)).1.mpr hrest⟩
    · intro hall
      rw [List.forall_mem_cons, hproposal] at hall
      exact (ih hseg (hnext hall.1)).2 hall.2

/-- The log has grown by the events of the batch, and ends at the head the batch names. -/
def Converged (log log' : List Json) (batch : Json) (events : List Json) : Prop :=
  ∃ stored, log' = log ++ stored ∧ List.Forall₂ SameEvent events stored
    ∧ latestRealmEventHash log' = .ok (batchHeadHash batch)

/-- A batch received without a replay, over a fresh store or none, makes the local log converge with
it exactly when each of its events hashes what its normalised proposal says. -/
theorem replication_converges_iff {host : Host} (hcf : host.CollisionFree) {clocks : Nat → Clock}
    {r r' : Receiver} {batch : Json} {events : List Json} {v : TransportVerification}
    {results : List CommandResult} (hreach : Reachable host r.ledger)
    (hfresh : r.executionStore.getD [] = []) (hevents : batchEvents batch = .ok events)
    (hcall : receiveEventBatch host clocks r batch = (.ok (.received v results), r')) :
    Converged r.ledger.event_log r'.ledger.event_log batch events ↔
      ∀ event ∈ events, HashesProposal event := by
  obtain ⟨s, fs, hlive⟩ := hreach.live
  have hrep : Replica host r s fs := ⟨hreach, hlive, by rw [hfresh]; exact recorded_empty host fs⟩
  obtain ⟨stored, s', fs', hlog, hrep', hdel⟩ := hrep.receive hcf hcall
  cases hdel with
  | unchanged hno _ => exact absurd rfl (hno v results)
  | @received events' _ hs _ _ _ hfits happ =>
  cases hevents.symm.trans hfits.batchEvents
  obtain ⟨hiff, hheads⟩ := happ.sameEvents_iff hcf hfits.segment rfl
  rw [← hiff] at hheads ⊢
  constructor
  · rintro ⟨stored', hlog', hsame, -⟩
    rw [hlog] at hlog'
    rw [List.append_cancel_left hlog']
    exact hsame
  · intro hsame
    refine ⟨stored, hlog, hsame, ?_⟩
    rw [hrep'.live.latest, hfits.head, hheads hsame]

/-- Alice's creation arrives as it was sent. -/
theorem replication_converges_creation :
    isReceived (creationDelivery "root:alice").1 = true
    ∧ Converged [] (creationDelivery "root:alice").2.ledger.event_log
        (creationBatch plainHost "root:alice") [creationEvent plainHost "root:alice" "09:00"] := by
  have hreceived := creation_received
  obtain ⟨v, results, hcall⟩ := exists_of_isReceived hreceived
  have hempty : (⟨Ledger.empty, some []⟩ : Receiver).executionStore.getD [] = [] := rfl
  have hevents : batchEvents (creationBatch plainHost "root:alice") =
      .ok [creationEvent plainHost "root:alice" "09:00"] := rfl
  have hiff := replication_converges_iff plainHost_collisionFree (r := ⟨Ledger.empty, some []⟩)
    .empty hempty hevents hcall
  refine ⟨hreceived, hiff.mpr ?_⟩
  intro event he
  rw [List.mem_singleton.mp he]
  exact ⟨creationHashed, creationHashed, rfl, rfl, rfl, rfl, rfl, rfl, rfl, rfl⟩

/-- An envelope that names another authority is verified by the hash of the top-level fields and
stored under the hash of the envelope's. -/
theorem replication_converges_fails :
    ¬ ∀ (host : Host), host.CollisionFree → ∀ (clocks : Nat → Clock) (r r' : Receiver) (batch : Json)
      (events : List Json) (v : TransportVerification) (results : List CommandResult),
      Reachable host r.ledger → r.executionStore.getD [] = [] → batchEvents batch = .ok events →
      receiveEventBatch host clocks r batch = (.ok (.received v results), r') →
      Converged r.ledger.event_log r'.ledger.event_log batch events := by
  intro h
  have hfacts : isReceived (creationDelivery "root:mallory").1 = true
      ∧ (creationDelivery "root:mallory").2.ledger.event_log.map
          (fun event => textOf (event.prop "current_event_hash")) ≠
        [textOf ((creationEvent plainHost "root:mallory" "09:00").prop "current_event_hash")] := by
    decide +kernel
  obtain ⟨hreceived, hhash⟩ := hfacts
  obtain ⟨v, results, hcall⟩ := exists_of_isReceived hreceived
  have hempty : (⟨Ledger.empty, some []⟩ : Receiver).executionStore.getD [] = [] := rfl
  obtain ⟨stored, hlog, hsame, -⟩ := h plainHost plainHost_collisionFree (fun _ => scriptClock) _ _ _
    [creationEvent plainHost "root:mallory" "09:00"] v results .empty hempty rfl hcall
  apply hhash
  rw [hlog]
  cases hsame with
  | cons hone hnil =>
    cases hnil
    simp only [Ledger.empty, List.nil_append, List.map_cons, List.map_nil, hone.1]

end SimpleL1.Realm
