import SimpleL1.Realm.Pipeline

/-!
# Event ids are fresh

The id of an accepted event starts with its sequence number, and the entries of
a reachable projection only carry the ids of events accepted before. So what an
event writes differs from every entry that was there: a change that matches an
entry shows.
-/

namespace SimpleL1.Realm

open SimpleL1.Js

/-! ## Ids -/

/-- The id of event number `k`, from what follows the number. -/
def eventId (k : Nat) (rest : String) : String :=
  "realm_evt_" ++ (Number.int k).toString ++ "_" ++ rest

theorem eventId_injective {j k : Nat} {x y : String} (h : eventId j x = eventId k y) : j = k := by
  have hchars : ∀ (n : Nat) (z : String), (eventId n z).toList =
      "realm_evt_".toList ++ ((Number.int n).chars ++ '_' :: z.toList) := by
    intro n z
    simp [eventId, Number.toString]
  have hrun : ∀ (n : Nat) (z : String),
      ((Number.int n).chars ++ '_' :: z.toList).takeWhile Number.isNumChar = (Number.int n).chars := by
    intro n z
    rw [List.takeWhile_append_of_pos (Number.chars_numChar rfl)]
    simp [Number.isNumChar]
  have hlist := congrArg String.toList h
  rw [hchars, hchars] at hlist
  have htail := congrArg (List.takeWhile Number.isNumChar) (List.append_cancel_left hlist)
  rw [hrun, hrun] at htail
  have hint := Number.chars_injective (x := .int j) (y := .int k) rfl rfl htail
  simpa using hint

/-- A reference to no event, or to one of the first `k`. -/
def Before (k : Nat) (v : Json) : Prop := v = .null ∨ ∃ j ≤ k, ∃ rest, v = .str (eventId j rest)

theorem Before.null (k : Nat) : Before k .null := .inl rfl

theorem Before.mono {k l : Nat} (hkl : k ≤ l) {v : Json} (h : Before k v) : Before l v := by
  rcases h with h | ⟨j, hj, rest, h⟩
  · exact .inl h
  · exact .inr ⟨j, by omega, rest, h⟩

/-- The id of event `k + 1` is not among the first `k`. -/
theorem Before.ne_next {k : Nat} {rest : String} : ¬ Before k (.str (eventId (k + 1) rest)) := by
  rintro (h | ⟨j, hj, rest', h⟩)
  · cases h
  · have := eventId_injective (Json.str.inj h)
    omega

theorem acceptedId_eq {host : Host} {n : NormalizedProposal} {k : Nat}
    (h : n.envelope.sequence = .int k) (prev : Json) :
    acceptedId host n prev =
      eventId k (toLowerCase n.envelope.type ++ "_" ++ slice16 (acceptedHash host n prev)) := by
  rw [acceptedId, h, eventId]
  simp [String.append_assoc]

theorem Checked.stamp {host : Host} {clock : Clock} {s : AuthorityState} {fs : List HashedFields}
    {t : EventType} {n : NormalizedProposal} {event : Json}
    (h : Checked host clock s fs t n event) :
    ∃ rest, (stampOf n.envelope.toJson event).event = .str (eventId (fs.length + 1) rest) := by
  have hid : event.prop "id" = some (.str (acceptedId host n (digest (headOf host fs)))) := by
    rw [h.event_eq]
    simp [acceptedEvent, acceptedFields]
  have hne : acceptedId host n (digest (headOf host fs)) ≠ "" := by
    intro he
    have := congrArg String.toList he
    simp [acceptedId] at this
  rw [stampOf, eventIdOf, hid, orNull_str hne]
  exact ⟨_, congrArg Json.str (acceptedId_eq h.sequence _)⟩

theorem Checked.fresh {host : Host} {clock : Clock} {s : AuthorityState} {fs : List HashedFields}
    {t : EventType} {n : NormalizedProposal} {event : Json}
    (h : Checked host clock s fs t n event) :
    ¬ Before fs.length (stampOf n.envelope.toJson event).event := by
  obtain ⟨rest, hrest⟩ := h.stamp
  rw [hrest]
  exact Before.ne_next

/-! ## The invariant -/

/-- Every event an entry refers to is one of the first `k`. -/
structure Dated (k : Nat) (s : AuthorityState) : Prop where
  root : ∀ r, s.rootAuthority = some r → Before k r.issuedEvent
  devices : ∀ d ∈ s.devices, Before k d.issuedEvent ∧ Before k d.revokedEvent
  recoveries : ∀ a ∈ s.recoveryAuthorities, Before k a.issuedEvent ∧ Before k a.revokedEvent
  sessions : ∀ x ∈ s.sessions, Before k x.issuedEvent ∧ ∀ e, x.expiredEvent = some e → Before k e
  trusts : ∀ t ∈ s.federationTrusts, Before k t.establishedEvent
    ∧ ∀ e, t.revokedEvent = some e → Before k e
  recovery : ∀ r, s.lastRecovery = some r → Before k r.executedEvent

theorem Dated.mono {k l : Nat} (hkl : k ≤ l) {s : AuthorityState} (h : Dated k s) : Dated l s where
  root r hr := (h.root r hr).mono hkl
  devices d hd := ⟨(h.devices d hd).1.mono hkl, (h.devices d hd).2.mono hkl⟩
  recoveries a ha := ⟨(h.recoveries a ha).1.mono hkl, (h.recoveries a ha).2.mono hkl⟩
  sessions x hx := ⟨(h.sessions x hx).1.mono hkl, fun e he => ((h.sessions x hx).2 e he).mono hkl⟩
  trusts t ht := ⟨(h.trusts t ht).1.mono hkl, fun e he => ((h.trusts t ht).2 e he).mono hkl⟩
  recovery r hr := (h.recovery r hr).mono hkl

/-- A change stamped with one of the first `k` events keeps the entries dated. -/
theorem Dated.apply {k : Nat} {s : AuthorityState} {stamp : Stamp} (h : Dated k s)
    (hstamp : Before k stamp.event) (c : Change) : Dated k (c.apply stamp s) := by
  cases c with
  | establishRoot id ref =>
    refine { h with root := ?_ }
    rintro r hr
    cases hr
    exact hstamp
  | issueDevice id ref key =>
    refine { h with devices := ?_ }
    intro d hd
    rcases List.mem_append.mp hd with hd | hd
    · exact h.devices d (List.mem_of_mem_filter hd)
    · rw [List.mem_singleton.mp hd]
      exact ⟨hstamp, .null k⟩
  | revokeDevices target =>
    refine { h with devices := ?_ }
    intro d hd
    obtain ⟨d₀, hd₀, rfl⟩ := List.mem_map.mp hd
    have := h.devices d₀ hd₀
    split
    · exact ⟨this.1, hstamp⟩
    · exact this
  | issueSession id ref device expires =>
    refine { h with sessions := ?_ }
    intro x hx
    rcases List.mem_append.mp hx with hx | hx
    · exact h.sessions x (List.mem_of_mem_filter hx)
    · rw [List.mem_singleton.mp hx]
      exact ⟨hstamp, fun e he => by cases he⟩
  | expireSessions target =>
    refine { h with sessions := ?_ }
    intro x hx
    obtain ⟨x₀, hx₀, rfl⟩ := List.mem_map.mp hx
    have := h.sessions x₀ hx₀
    split
    · exact ⟨this.1, fun e he => by cases he; exact hstamp⟩
    · exact this
  | issueRecovery id ref key issuer =>
    refine { h with recoveries := ?_ }
    intro a ha
    rcases List.mem_append.mp ha with ha | ha
    · exact h.recoveries a (List.mem_of_mem_filter ha)
    · rw [List.mem_singleton.mp ha]
      exact ⟨hstamp, .null k⟩
  | revokeRecovery target =>
    refine { h with recoveries := ?_ }
    intro a ha
    obtain ⟨a₀, ha₀, rfl⟩ := List.mem_map.mp ha
    have := h.recoveries a₀ ha₀
    split
    · exact ⟨this.1, hstamp⟩
    · exact this
  | executeRecovery a b d e f g =>
    refine { h with recovery := ?_ }
    rintro r hr
    cases hr
    exact hstamp
  | establishTrust realm a b d e f =>
    refine { h with trusts := ?_ }
    intro t ht
    rcases List.mem_append.mp ht with ht | ht
    · exact h.trusts t (List.mem_of_mem_filter ht)
    · rw [List.mem_singleton.mp ht]
      exact ⟨hstamp, fun e he => by cases he⟩
  | revokeTrust realm =>
    refine { h with trusts := ?_ }
    intro t ht
    obtain ⟨t₀, ht₀, rfl⟩ := List.mem_map.mp ht
    have := h.trusts t₀ ht₀
    split
    · exact ⟨this.1, fun e he => by cases he; exact hstamp⟩
    · exact this

theorem Dated.setSequence {k : Nat} {s : AuthorityState} (h : Dated k s) (n : Number) :
    Dated k (s.setSequence n) := { h with }

theorem Dated.accept {host : Host} {clock : Clock} {s s' : AuthorityState} {fs : List HashedFields}
    {t : EventType} {n : NormalizedProposal} {event : Json} (h : Dated fs.length s)
    (hacc : Accepts host clock s fs t n event s') : Dated (fs.length + 1) s' := by
  obtain ⟨c, -, rfl⟩ := hacc.change
  obtain ⟨rest, hrest⟩ := hacc.stamp
  apply Dated.apply ((h.mono (by omega)).setSequence _)
  exact hrest ▸ .inr ⟨_, le_refl _, rest, rfl⟩

theorem dated_empty : Dated 0 emptyAuthorityState where
  root r hr := by cases hr
  devices d hd := by cases hd
  recoveries a ha := by cases ha
  sessions x hx := by cases hx
  trusts t ht := by cases ht
  recovery r hr := by cases hr

theorem Reachable.dated {host : Host} {ledger : Ledger} (h : Reachable host ledger) :
    ∃ s fs, Live host ledger s fs ∧ Dated fs.length s :=
  h.invariant (P := fun _ s fs => Dated fs.length s) dated_empty
    (fun hP hacc => by simpa using hP.accept hacc) (fun hP _ => hP)

end SimpleL1.Realm
