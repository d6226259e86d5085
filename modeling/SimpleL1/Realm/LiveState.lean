import SimpleL1.Realm.Pipeline

/-!
# Live state equals replay

`runCalls` makes a sequence of `acceptAndApplyRealmEvent` calls from the empty
ledger and collects the accepted events. After every run the log is these
events, numbered from 1, the log verifies, and replaying it gives the live
projection. A call that does not accept leaves the ledger as it was.
-/

namespace SimpleL1.Realm

open SimpleL1.Js SimpleL1.Lib

/-- A call that rejects or throws does not touch a live ledger. -/
theorem Live.refuse {host : Host} {clock : Clock} {ledger ledger' : Ledger} {s : AuthorityState}
    {fs : List HashedFields} {proposal : Json} {result : JsM Validation} (h : Live host ledger s fs)
    (hcall : acceptAndApplyRealmEvent host clock ledger proposal = (result, ledger'))
    (hno : ∀ event n, result ≠ .ok (.accepted event n)) : ledger' = ledger := by
  unfold acceptAndApplyRealmEvent at hcall
  split at hcall
  · exact (congrArg Prod.snd hcall).symm
  · exact (congrArg Prod.snd hcall).symm
  next event n hval =>
  split at hcall
  · next e l happly =>
    -- a handler that throws leaves the stores, which a live ledger has
    have hl : ledger' = l := (congrArg Prod.snd hcall).symm
    unfold applyEvent at happly
    split at happly
    · next e' l' hproj =>
      have hl' : l = l' := (congrArg Prod.snd happly).symm
      unfold applyCanonicalAuthorityProjection at hproj
      simp only [h.stores] at hproj
      split at hproj
      · rw [hl, hl']; exact (congrArg Prod.snd hproj).symm
      · cases hproj
      · split at hproj
        · rw [hl, hl']; exact (congrArg Prod.snd hproj).symm
        · cases hproj
    · cases happly
  · exact absurd (congrArg Prod.fst hcall).symm (hno event n)

/-- One call of a run: the ledger it leaves, and the events accepted so far. -/
def runCall (host : Host) (st : Ledger × List Json) (call : Clock × Json) : Ledger × List Json :=
  match acceptAndApplyRealmEvent host call.1 st.1 call.2 with
  | (.ok (.accepted event _), ledger) => (ledger, st.2 ++ [event])
  | (_, ledger) => (ledger, st.2)

def runCalls (host : Host) (calls : List (Clock × Json)) : Ledger × List Json :=
  calls.foldl (runCall host) (Ledger.empty, [])

/-- Event `i` of the list carries the number `i + 1`. -/
def Numbered (events : List Json) : Prop :=
  ∀ (i : Nat) (event : Json), events[i]? = some event →
    event.prop "sequence" = some (.num (.int (i + 1)))

theorem Numbered.snoc {events : List Json} (h : Numbered events) {event : Json}
    (he : event.prop "sequence" = some (.num (.int (events.length + 1)))) :
    Numbered (events ++ [event]) := by
  intro i e hi
  rw [List.getElem?_append] at hi
  split at hi
  · exact h i e hi
  · next hlt =>
    have hsub : i - events.length = 0 := by
      by_contra hne
      obtain ⟨j, hj⟩ := Nat.exists_eq_succ_of_ne_zero hne
      rw [hj] at hi
      cases hi
    have hi' : i = events.length := by omega
    subst hi'
    rw [hsub] at hi
    cases hi
    exact he

/-- The invariant of a run: a live ledger whose log is the accepted events, numbered from 1. -/
structure RunInv (host : Host) (st : Ledger × List Json) : Prop where
  live : ∃ s fs, Live host st.1 s fs ∧ fs.length = st.2.length
  log : st.1.event_log = st.2
  numbered : Numbered st.2

theorem runInv_empty (host : Host) : RunInv host (Ledger.empty, []) where
  live := ⟨_, _, live_empty host, rfl⟩
  log := rfl
  numbered := by intro i event h; cases h

theorem RunInv.call {host : Host} {st : Ledger × List Json} (h : RunInv host st)
    (call : Clock × Json) : RunInv host (runCall host st call) := by
  obtain ⟨s, fs, hlive, hlen⟩ := h.live
  unfold runCall
  split
  · next event n ledger hcall =>
    obtain ⟨t, s', hacc, hlive', hlog⟩ := hlive.accept hcall
    refine ⟨⟨s', _, hlive', by simp [hlen]⟩, by rw [hlog, h.log], h.numbered.snoc ?_⟩
    rw [hacc.shows.sequence, hacc.sequence, hlen]
  · next result ledger hno hcall =>
    have hsame : ledger = st.1 := by
      apply hlive.refuse hcall
      rintro event n rfl
      exact hno event n rfl
    subst hsame
    exact h

theorem runInv_runCalls (host : Host) (calls : List (Clock × Json)) :
    RunInv host (runCalls host calls) := by
  induction calls using List.reverseRecOn with
  | nil => exact runInv_empty host
  | append_singleton calls call ih =>
    rw [runCalls, List.foldl_append]
    exact ih.call call

/-- After every run the log verifies, its replay is the live projection, the accepted events are
numbered in order, and what is not accepted changes nothing. -/
theorem live_state_eq_replay (host : Host) (calls : List (Clock × Json)) :
    verifyRealmEventHistory host (runCalls host calls).1.event_log = .ok true
    ∧ (∃ s, (runCalls host calls).1.current_authority_state = some s
      ∧ buildCurrentAuthorityState host (runCalls host calls).1.event_log = .ok s
      ∧ s.lastSequence = .int (runCalls host calls).2.length)
    ∧ (runCalls host calls).1.event_log = (runCalls host calls).2
    ∧ Numbered (runCalls host calls).2
    ∧ (∀ clock proposal result ledger',
        acceptAndApplyRealmEvent host clock (runCalls host calls).1 proposal = (result, ledger') →
        (∀ event n, result ≠ .ok (.accepted event n)) → ledger' = (runCalls host calls).1) := by
  have h := runInv_runCalls host calls
  obtain ⟨s, fs, hlive, hlen⟩ := h.live
  refine ⟨verifyRealmEventHistory_eq_ok.mpr ⟨fs, hlive.chain⟩,
    ⟨s, hlive.state, hlive.build, by rw [hlive.count, hlen]⟩, h.log, h.numbered, ?_⟩
  intro clock proposal result ledger' hcall hno
  exact hlive.refuse hcall hno

/-- The ledgers of runs are reachable. -/
theorem reachable_runCalls (host : Host) (calls : List (Clock × Json)) :
    Reachable host (runCalls host calls).1 := by
  induction calls using List.reverseRecOn with
  | nil => exact .empty
  | append_singleton calls call ih =>
    obtain ⟨s, fs, hlive, -⟩ := (runInv_runCalls host calls).live
    rw [runCalls, List.foldl_append, List.foldl_cons, List.foldl_nil]
    change Reachable host (runCall host (runCalls host calls) call).1
    unfold runCall
    split
    · next event n ledger hcall => exact ih.step (.accept hcall)
    · next result ledger hno hcall =>
      have hsame : ledger = (runCalls host calls).1 := by
        apply hlive.refuse hcall
        rintro event n rfl
        exact hno event n rfl
      subst hsame
      exact ih

/-! ## Scripts

A script lists proposals with the digests of the events they become, so that a run of its calls is
a run under a host that knows these digests. -/

structure ScriptEntry where
  type : String
  signer : String
  authority_reference : String
  payload : Fields
  digest : String

def scriptTime : String := "2026-01-01T00:00:00.000Z"

def scriptClock : Clock := ⟨scriptTime, scriptTime⟩

def ScriptEntry.proposal (sequence : Nat) (e : ScriptEntry) : Json :=
  .obj [("envelope", .obj [("type", .str e.type), ("signer", .str e.signer),
      ("authority_reference", .str e.authority_reference), ("sequence", .num (.int sequence)),
      ("timestamp", .str scriptTime)]),
    ("payload", .obj e.payload)]

def ScriptEntry.hashed (sequence : Nat) (e : ScriptEntry) : HashedFields where
  authority_reference := .str e.authority_reference
  payload := .obj e.payload
  sequence := .int sequence
  signer := .str e.signer
  type := .str e.type
  version := .int 1

/-- The texts the script's events are hashed from, with their digests. -/
def scriptDigests (sequence : Nat) (prev : Json) : List ScriptEntry → List (String × String)
  | [] => []
  | e :: es =>
    (canonicalEncode ((e.hashed sequence).material prev), e.digest)
      :: scriptDigests (sequence + 1) (.str e.digest) es

def scriptCalls (sequence : Nat) : List ScriptEntry → List (Clock × Json)
  | [] => []
  | e :: es => (scriptClock, e.proposal sequence) :: scriptCalls (sequence + 1) es

theorem scriptDigests_ne_empty {es : List ScriptEntry} (h : ∀ e ∈ es, e.digest ≠ "")
    (sequence : Nat) (prev : Json) : ∀ p ∈ scriptDigests sequence prev es, p.2 ≠ "" := by
  induction es generalizing sequence prev with
  | nil => intro p hp; cases hp
  | cons e es ih =>
    intro p hp
    rcases List.mem_cons.mp hp with rfl | hp
    · exact h e List.mem_cons_self
    · exact ih (fun e he => h e (List.mem_cons_of_mem _ he)) _ _ p hp

def scriptHost (es : List ScriptEntry) (macs : List ((String × String) × String))
    (h : ∀ e ∈ es, e.digest ≠ "") : Host :=
  .ofTable (scriptDigests 1 .null es) macs (scriptDigests_ne_empty h 1 .null)

/-- The ledger after the calls of a script. -/
def scriptLedger (host : Host) (es : List ScriptEntry) : Ledger :=
  (runCalls host (scriptCalls 1 es)).1

theorem reachable_script (host : Host) (es : List ScriptEntry) :
    Reachable host (scriptLedger host es) := reachable_runCalls host _

def ScriptEntry.normalized (sequence : Nat) (e : ScriptEntry) : NormalizedProposal where
  envelope := {
    type := e.type
    signer := e.signer
    authority_reference := e.authority_reference
    sequence := .int sequence
    timestamp := .str scriptTime
    previous_event_hash := .null }
  payload := e.payload

/-- The checks an entry of type `t` meets as number `sequence` in the projection `s`. -/
structure ScriptEntry.Fits (e : ScriptEntry) (sequence : Nat) (s : AuthorityState) (t : EventType) :
    Prop where
  type : e.type = t.name
  trimmedType : trim e.type = e.type
  signer : e.signer ≠ ""
  trimmedSigner : trim e.signer = e.signer
  reference : e.authority_reference ≠ ""
  trimmedReference : trim e.authority_reference = e.authority_reference
  payload : validatePayload t.name e.payload = []
  policy : canSignerSatisfyAuthorityPolicy s e.signer (realmEventRegistry t).requiredAuthority = true
  rule : (realmEventRegistry t).validateTransition s (e.normalized sequence).envelope e.payload =
    .ok []

theorem ScriptEntry.normalize {e : ScriptEntry} {sequence : Nat} {s : AuthorityState} {t : EventType}
    (h : e.Fits sequence s t) :
    normalizeRealmEventProposal scriptTime (e.proposal sequence) = .ok (e.normalized sequence) := by
  show (do
    let type ← strOrEmpty (some (.str e.type))
    let signer ← strOrEmpty (some (.str e.signer))
    let authority_reference ← strOrEmpty (some (.str e.authority_reference))
    return ⟨⟨trim type, trim signer, trim authority_reference, .int sequence, .str scriptTime, .null⟩,
      e.payload⟩ : JsM NormalizedProposal) = _
  simp only [strOrEmpty_str, ok_bind, h.trimmedType, h.trimmedSigner, h.trimmedReference, pure_eq_ok]
  rfl

/-- A live ledger accepts the next entry of a script that fits and whose change can be read. -/
theorem Live.acceptEntry {host : Host} {ledger : Ledger} {s : AuthorityState}
    {fs : List HashedFields} (h : Live host ledger s fs) {e : ScriptEntry} {t : EventType}
    (hfits : e.Fits (fs.length + 1) s t) {c : Change}
    (hc : changeOf (e.normalized (fs.length + 1)).envelope.toJson
      ((realmEventRegistry t).migrationAdapter (.obj e.payload)) t s.sessions.length = .ok c) :
    ∃ event ledger', acceptAndApplyRealmEvent host scriptClock ledger (e.proposal (fs.length + 1)) =
        (.ok (.accepted event (e.normalized (fs.length + 1))), ledger')
      ∧ Shows event (e.normalized (fs.length + 1))
      ∧ ledger'.event_log = ledger.event_log ++ [event]
      ∧ Live host ledger' (c.apply (stampOf (e.normalized (fs.length + 1)).envelope.toJson event)
        (s.setSequence (.int (fs.length + 1)))) (fs ++ [(e.normalized (fs.length + 1)).hashed]) := by
  have hchecked : Checked host scriptClock s fs t (e.normalized (fs.length + 1))
      (acceptedEvent host scriptClock (e.normalized (fs.length + 1)) (digest (headOf host fs))) := {
    trimmed := ⟨hfits.trimmedType, hfits.trimmedSigner, hfits.trimmedReference⟩
    type := hfits.type
    signer := hfits.signer
    authority_reference := hfits.reference
    sequence := rfl
    timestamp := by
      show isNonEmptyString (some (.str scriptTime)) = true
      decide
    payload := hfits.payload
    policy := hfits.policy
    rule := hfits.rule
    event_eq := rfl }
  have happlied := hchecked.replay_eq_ok.mpr ⟨c, hc, rfl⟩
  obtain ⟨ledger', hcall⟩ := h.accepts (ScriptEntry.normalize hfits)
    { hchecked with applied := happlied } (.inl rfl)
  obtain ⟨u, s', hacc, hlive, hlog⟩ := h.accept hcall
  -- the projection is the one replay of the event gives
  have hs' : s' = c.apply (stampOf (e.normalized (fs.length + 1)).envelope.toJson
      (acceptedEvent host scriptClock (e.normalized (fs.length + 1)) (digest (headOf host fs))))
      (s.setSequence (.int (fs.length + 1))) :=
    Except.ok.inj (hacc.applied.symm.trans happlied)
  exact ⟨_, ledger', hcall, hchecked.shows, hlog, hs' ▸ hlive⟩

/-- Type and signer of an accepted proposal. -/
def acceptedView : JsM Validation → Option (String × String)
  | .ok (.accepted _ n) => some (n.envelope.type, n.envelope.signer)
  | _ => none

theorem exists_of_acceptedView {call : JsM Validation × Ledger} {type signer : String}
    (h : acceptedView call.1 = some (type, signer)) :
    ∃ event n ledger, call = (.ok (.accepted event n), ledger)
      ∧ n.envelope.type = type ∧ n.envelope.signer = signer := by
  obtain ⟨result, ledger⟩ := call
  unfold acceptedView at h
  split at h
  · next event n hr =>
    cases h
    exact ⟨event, n, ledger, Prod.ext hr rfl, rfl, rfl⟩
  · cases h

def stateView {α : Type} (f : AuthorityState → α) (ledger : Ledger) : Option α :=
  ledger.current_authority_state.map f

theorem exists_of_stateView {α : Type} {f : AuthorityState → α} {ledger : Ledger} {a : α}
    (h : stateView f ledger = some a) : ∃ s, ledger.current_authority_state = some s ∧ f s = a :=
  Option.map_eq_some_iff.mp h

/-- A realm with a root, two devices and a recovery authority that has executed a recovery. -/
def aliceScript : List ScriptEntry := [
  ⟨"ROOT_AUTHORITY_CREATED", "root:alice", "root:alice", [("root_id", .str "alice")],
    "560030b075ae25bae0d80a6d3a59e5dd3615e02d5e06e025abfb462a2dc6b7cb"⟩,
  ⟨"DEVICE_KEY_ISSUED", "root:alice", "root:alice",
    [("device_id", .str "alice"), ("public_key", .str "key-alice")],
    "0d7c02d86a94fc1b6f56c0faa0ee156139deae784414dc462bd867a44ad91230"⟩,
  ⟨"DEVICE_KEY_ISSUED", "root:alice", "root:alice",
    [("device_id", .str "laptop"), ("public_key", .str "key-laptop")],
    "f3001be2602101e3f6a7438b6e77aadfe897b0604e955d0e63b3b66ff6c80188"⟩,
  ⟨"RECOVERY_AUTHORITY_ISSUED", "root:alice", "root:alice",
    [("recovery_authority_id", .str "guardian"), ("public_key", .str "key-guardian")],
    "20deb133de1df7ef148ec2172bf355b5621ff3ee0582201bf4ad433202d29362"⟩,
  ⟨"RECOVERY_EXECUTED", "guardian", "guardian",
    [("recovery_ref", .str "rec-1"), ("old_device_id", .str "alice"),
      ("new_device_id", .str "phone-2")],
    "461d1109ffc090331574a87c20560ca0d7a7e20b1f33e1634eafadafa9141068"⟩]

/-- The host of the realm and one more entry. -/
def aliceHost (e : ScriptEntry) (macs : List ((String × String) × String) := [])
    (h : ∀ e' ∈ aliceScript ++ [e], e'.digest ≠ "" := by decide) : Host :=
  scriptHost (aliceScript ++ [e]) macs h

def aliceLedger (host : Host) : Ledger := scriptLedger host aliceScript

theorem reachable_alice (host : Host) : Reachable host (aliceLedger host) := reachable_script ..

/-- The call for entry 6 on the realm's ledger. -/
def aliceCall (host : Host) (e : ScriptEntry) : JsM Validation × Ledger :=
  acceptAndApplyRealmEvent host scriptClock (aliceLedger host) (e.proposal 6)

/-- What one evaluation of the call and of views of the states around it gives. -/
theorem aliceCall_facts {α β : Type} (host : Host) (e : ScriptEntry) (f : AuthorityState → α)
    (g : AuthorityState → β) (type signer : String) (a : α) (b : β)
    (h : acceptedView (aliceCall host e).1 = some (type, signer)
      ∧ stateView f (aliceLedger host) = some a ∧ stateView g (aliceCall host e).2 = some b) :
    ∃ event n ledger' s s', aliceCall host e = (.ok (.accepted event n), ledger')
      ∧ n.envelope.type = type ∧ n.envelope.signer = signer
      ∧ (aliceLedger host).current_authority_state = some s ∧ f s = a
      ∧ ledger'.current_authority_state = some s' ∧ g s' = b := by
  obtain ⟨hacc, hf, hg⟩ := h
  obtain ⟨event, n, ledger', hcall, htype, hsigner⟩ := exists_of_acceptedView hacc
  obtain ⟨s, hs, ha⟩ := exists_of_stateView hf
  rw [hcall] at hg
  obtain ⟨s', hs', hb⟩ := exists_of_stateView hg
  exact ⟨event, n, ledger', s, s', hcall, htype, hsigner, hs, ha, hs', hb⟩

/-- Id and status of the devices. -/
def deviceView (s : AuthorityState) : List (String × Status) :=
  s.devices.map fun d => (d.id, d.status)

end SimpleL1.Realm
