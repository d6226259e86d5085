import SimpleL1.Realm.LiveState

/-!
# Histories of roots and devices

A history whose realm events are `ROOT_AUTHORITY_CREATED` and `DEVICE_KEY_ISSUED`
events fills only the root and the devices of the projection, and all it writes
is active: `Founded` holds of every state its replay reaches.
-/

namespace SimpleL1.Realm

open SimpleL1.Js

/-- Replay reads the event as a root's creation or a device key's issue. -/
def founding (event : Json) : Bool :=
  match Projection.eventEnvelope event with
  | .ok (some envelope) =>
    strictEq (envelope.prop "type") (some (.str "ROOT_AUTHORITY_CREATED"))
      || strictEq (envelope.prop "type") (some (.str "DEVICE_KEY_ISSUED"))
  | _ => false

/-- The realm events of the log are of these two types. -/
def FoundingLog (log : List Json) : Prop :=
  ∀ event ∈ log, isCanonicalRealmEvent event = .ok true → founding event = true

structure Founded (s : AuthorityState) : Prop where
  root : ∀ r ∈ s.rootAuthority, r.status = .active
  devices : ∀ d ∈ s.devices, d.status = .active ∧ d.authority = d.authorityRef
  recovery : s.recoveryAuthorities = []
  sessions : s.sessions = []
  trusts : s.federationTrusts = []
  lastRecovery : s.lastRecovery = none

theorem founded_empty : Founded emptyAuthorityState :=
  ⟨nofun, nofun, rfl, rfl, rfl, rfl⟩

/-- The two changes such an event asks for. -/
inductive Change.Founds : Change → Prop where
  | root (id authorityRef : String) : Founds (.establishRoot id authorityRef)
  | device (id authorityRef : String) (publicKey : Json) :
      Founds (.issueDevice id authorityRef publicKey)

theorem founding_iff {event : Json} :
    founding event = true ↔ ∃ envelope, Projection.eventEnvelope event = .ok (some envelope)
      ∧ (envelope.prop "type" = some (.str EventType.rootAuthorityCreated.name)
        ∨ envelope.prop "type" = some (.str EventType.deviceKeyIssued.name)) := by
  unfold founding
  split
  · next envelope henv =>
    rw [Bool.or_eq_true, strictEq_str_iff, strictEq_str_iff]
    constructor
    · intro htype; exact ⟨envelope, henv, htype⟩
    · rintro ⟨envelope', henv', htype⟩
      cases Except.ok.inj (henv.symm.trans henv')
      exact htype
  · next hno =>
    constructor
    · intro h; cases h
    · rintro ⟨envelope, henv, -⟩
      exact absurd henv (hno envelope)

/-- The contract replay finds for such an event is one of the two. -/
theorem Runs.type_of_founding {event envelope : Json} {t : EventType} {n : Number}
    (h : Runs event envelope t n) (hf : founding event = true) :
    t = .rootAuthorityCreated ∨ t = .deviceKeyIssued := by
  obtain ⟨envelope', henv, htype⟩ := founding_iff.mp hf
  cases Except.ok.inj (henv.symm.trans h.read)
  have hfound : ∀ u : EventType, envelope.prop "type" = some (.str u.name) → t = u := by
    intro u hu
    have hcontract := h.contract
    rw [hu, getRealmEventContract, strOrEmpty_str, map_ok, registryLookup_name] at hcontract
    cases hcontract
    rfl
  exact htype.imp (hfound _) (hfound _)

theorem founds_of_changeOf {envelope : Json} {payload : Fields} {t : EventType} {k : Nat} {c : Change}
    (ht : t = .rootAuthorityCreated ∨ t = .deviceKeyIssued)
    (hc : changeOf envelope payload t k = .ok c) : c.Founds := by
  rcases ht with rfl | rfl
  · obtain ⟨ref, -, hc⟩ := bind_eq_ok.mp hc
    obtain ⟨id, -, hc⟩ := bind_eq_ok.mp hc
    cases hc
    exact .root id ref
  · obtain ⟨ref, -, hc⟩ := bind_eq_ok.mp hc
    obtain ⟨id, -, hc⟩ := bind_eq_ok.mp hc
    cases hc
    exact .device id ref _

namespace Founded

variable {s s' : AuthorityState}

theorem setSequence (h : Founded s) (n : Number) : Founded (s.setSequence n) :=
  ⟨h.root, h.devices, h.recovery, h.sessions, h.trusts, h.lastRecovery⟩

theorem apply (h : Founded s) {c : Change} (hc : c.Founds) (stamp : Stamp) :
    Founded (c.apply stamp s) := by
  cases hc with
  | root id ref =>
    refine ⟨?_, h.devices, h.recovery, h.sessions, h.trusts, h.lastRecovery⟩
    intro r hr
    cases hr
    rfl
  | device id ref key =>
    refine ⟨h.root, ?_, h.recovery, h.sessions, h.trusts, h.lastRecovery⟩
    intro d hd
    rcases List.mem_append.mp hd with hd | hd
    · exact h.devices d (List.mem_of_mem_filter hd)
    · cases List.mem_singleton.mp hd
      exact ⟨rfl, rfl⟩

/-- One round of replay. -/
theorem replay (h : Founded s) {event : Json}
    (hf : isCanonicalRealmEvent event = .ok true → founding event = true)
    (hs : replayEvent s event = .ok s') : Founded s' := by
  rcases replayEvent_cases hs with ⟨-, rfl⟩ | ⟨envelope, t, n, hruns⟩
  · exact h
  · rw [hruns.replay] at hs
    obtain ⟨c, hc, hs⟩ := bind_eq_ok.mp hs
    cases hs
    exact (h.setSequence n).apply (founds_of_changeOf (hruns.type_of_founding (hf hruns.canonical)) hc) _

theorem replayFrom (h : Founded s) {log : List Json} (hf : FoundingLog log)
    (hs : Realm.replayFrom s log = .ok s') : Founded s' := by
  induction log generalizing s with
  | nil => cases hs; exact h
  | cons event log ih =>
    obtain ⟨next, hnext, hrest⟩ := bind_eq_ok.mp ((List.foldlM_cons ..).symm.trans hs)
    exact ih (h.replay (hf event List.mem_cons_self) hnext)
      (fun e he => hf e (List.mem_cons_of_mem _ he)) hrest

end Founded

/-- The projection of a history of roots and devices. -/
theorem founded_of_build {host : Host} {log : List Json} {s : AuthorityState} (hf : FoundingLog log)
    (hs : buildCurrentAuthorityState host log = .ok s) : Founded s := by
  obtain ⟨_, -, hreplay⟩ := bind_eq_ok.mp hs
  exact founded_empty.replayFrom hf hreplay

/-! ## A root and two devices -/

/-- The first three events of the script: a root and two devices. -/
def deskHost : Host := scriptHost (aliceScript.take 3) [] (by decide)

def deskLedger : Ledger := scriptLedger deskHost (aliceScript.take 3)

theorem desk_founding : FoundingLog deskLedger.event_log := fun event he _ =>
  List.all_eq_true.mp (by decide +kernel : deskLedger.event_log.all founding = true) event he

theorem desk_build : ∃ s, deskLedger.current_authority_state = some s
    ∧ buildCurrentAuthorityState deskHost deskLedger.event_log = .ok s := by
  obtain ⟨s, fs, hlive⟩ := (reachable_script deskHost (aliceScript.take 3)).live
  exact ⟨s, hlive.state, hlive.build⟩

end SimpleL1.Realm
