import SimpleL1.Node.Reservations
import SimpleL1.Node.Lockout
import Mathlib.Logic.Relation

/-!
# One account for a name

While a name is reserved, no account has it. A registration that ends under its
own reservation turns it into the account, so names stay unique.
-/

namespace SimpleL1.Node

open SimpleL1.Js SimpleL1.Lib SimpleL1.Lib.Effect

/-! ## The invariant -/

/-- An account of the ledger has the name. -/
def Taken (p : NamePlatform) (ledger : Ledger) (name : String) : Prop :=
  ∃ a account, ledger.account a = some account ∧
    normalizeAlias p (account.get "alias") = .ok (some name)

/-- No two accounts have one name. -/
def NamesUnique (p : NamePlatform) (ledger : Ledger) : Prop :=
  ∀ a b account account' name, ledger.account a = some account → ledger.account b = some account' →
    normalizeAlias p (account.get "alias") = .ok (some name) →
    normalizeAlias p (account'.get "alias") = .ok (some name) → a = b

/-- The name is none, or in normal form. -/
def IsNormal (p : NamePlatform) (requestedAlias : Option String) : Prop :=
  ∀ name, requestedAlias = some name → normalizeAlias p (some (.str name)) = .ok (some name)

/-- Names are unique, and none of an account is reserved but for `closing`, a name with the owner of
its reservation. -/
structure NamesKept (p : NamePlatform) (closing : Option (String × OwnerToken)) (s : Registrar) :
    Prop where
  unique : NamesUnique p s.ledger
  reserved : ∀ name r, s.aliasReservations.find name = some r → 0 < r.expiresAtMs ∧
    (s.now < r.expiresAtMs → ¬ Taken p s.ledger name ∨ closing = some (name, r.ownerId))
  challenges : ∀ id c, s.registrationChallenges.find id = some c → IsNormal p c.requestedAlias

/-- Holds on as time passes. -/
def Timeless (I : Registrar → Prop) : Prop :=
  ∀ s now ticks, I s → s.now ≤ now → I { s with now, ticks }

/-- Holds on as time passes and records go. -/
structure Lasting (I : Registrar → Prop) : Prop where
  later : Timeless I
  reservations : ∀ s key, I s → I (aliasReservations.write (s.aliasReservations.erase key) s)
  challenges : ∀ s key, I s →
    I (registrationChallenges.write (s.registrationChallenges.erase key) s)
  handoffs : ∀ s m, I s → I (deviceHandoffs.write m s)

section
variable {p : NamePlatform} {closing : Option (String × OwnerToken)} {I E : Registrar → Prop}
  {α : Type} {c : Collection α}

theorem find_of_erase {m : OrderedMap String α} {key k : String} {r : α}
    (h : (m.erase key).find k = some r) : m.find k = some r := by
  rw [OrderedMap.find_erase] at h
  split at h
  · cases h
  · exact h

theorem lasting_namesKept : Lasting (NamesKept p closing) where
  later s now ticks h hle := by
    refine ⟨h.unique, fun name r hr => ⟨(h.reserved name r hr).1, fun hlt => ?_⟩, h.challenges⟩
    exact (h.reserved name r hr).2 (hle.trans_lt hlt)
  reservations s key h :=
    ⟨h.unique, fun name r hr => h.reserved name r (find_of_erase hr), h.challenges⟩
  challenges s key h :=
    ⟨h.unique, h.reserved, fun id c hc => h.challenges id c (find_of_erase hc)⟩
  handoffs s m h := ⟨h.unique, h.reserved, h.challenges⟩

/-- What is said about the ledger only lasts too. -/
theorem Lasting.and_ledger (h : Lasting I) (L : Ledger → Prop) :
    Lasting fun s => I s ∧ L s.ledger where
  later s now ticks hs hle := ⟨h.later s now ticks hs.1 hle, hs.2⟩
  reservations s key hs := ⟨h.reservations s key hs.1, hs.2⟩
  challenges s key hs := ⟨h.challenges s key hs.1, hs.2⟩
  handoffs s m hs := ⟨h.handoffs s m hs.1, hs.2⟩

/-! ## The store -/

theorem triple_dateNow (h : Timeless I) : Triple I dateNow (fun now s => I s ∧ s.now = now) E := by
  intro s hs
  exact ⟨h s _ _ hs (Nat.le_add_right _ _), rfl⟩

/-- A record that has not expired has its time ahead. -/
theorem triple_isExpired (h : Timeless I) (e : Nat) :
    Triple I (isExpired e) (fun b s => I s ∧ (b = false → e = 0 ∨ s.now < e)) E := by
  unfold isExpired
  refine triple_ite (fun h0 => triple_pure fun s hs => ⟨hs, fun _ => .inl h0⟩) fun _ => ?_
  refine (triple_dateNow h).bind fun now => triple_pure fun s hs => ⟨hs.1, fun hb => .inr ?_⟩
  rw [hs.2]
  exact Nat.lt_of_not_le (of_decide_eq_false hb)

/-- `I` does not mind that a record of the collection goes. -/
def Erasable (I : Registrar → Prop) (c : Collection α) : Prop :=
  ∀ s key, I s → I (c.write ((c.read s).erase key) s)

theorem keeps_delete (herase : Erasable I c) (key : String) :
    Triple I (c.delete key) (fun _ => I) E :=
  triple_modify fun s hs => herase s key hs

theorem keeps_cleanup (h : Lasting I) (herase : Erasable I c) {onExpire : α → RegistrarM Unit}
    (hexpire : ∀ record, Keeps I (onExpire record)) : Keeps I (c.cleanup onExpire) := by
  unfold Collection.cleanup
  refine triple_get.bind fun s => Triple.pre (keeps_forM (fun e => ?_) _) fun _ hs => hs.2
  refine (triple_isExpired h.later _).bind fun b => triple_ite (fun _ => ?_) fun _ => ?_
  · exact ((hexpire e.2).bind fun _ => keeps_delete herase e.1).pre fun _ hs => hs.1
  · exact triple_pure fun _ hs => hs.1

/-- What all records of a collection are, the one that `get` returns is. -/
theorem triple_get_record {P : α → Prop} (h : Lasting I) (herase : Erasable I c)
    (hP : ∀ s key record, I s → (c.read s).find key = some record → P record) (key : String) :
    Triple I (c.get key) (fun o s => I s ∧ ∀ record, o = some record → P record) E := by
  unfold Collection.get
  refine triple_ite (fun _ => triple_pure fun s hs => ⟨hs, nofun⟩) fun _ => ?_
  refine triple_get.bind fun s₀ => ?_
  cases hfind : (c.read s₀).find key with
  | none => exact triple_pure fun s hs => ⟨hs.2, nofun⟩
  | some record =>
    refine Triple.pre (P := fun s => P record ∧ I s) (triple_of_pure fun hrecord => ?_) fun s hs => ?_
    · refine (triple_isExpired h.later _).bind fun b => triple_ite (fun _ => ?_) fun _ => ?_
      · exact ((keeps_delete herase key).pre fun s hs => hs.1).bind fun _ =>
          triple_pure fun s hs => ⟨hs, nofun⟩
      · refine triple_pure fun s hs => ⟨hs.1, ?_⟩
        rintro _ ⟨⟩
        exact hrecord
    · obtain ⟨rfl, hs⟩ := hs
      exact ⟨hP _ key record hs hfind, hs⟩

theorem keeps_get (h : Lasting I) (herase : Erasable I c) (key : String) :
    Triple I (c.get key) (fun _ => I) E :=
  (triple_get_record (P := fun _ => True) h herase (fun _ _ _ _ _ => ⟨⟩) key).post
    fun _ _ hs => hs.1

/-- What `get` returns is what the store still holds, and has its time ahead. -/
theorem triple_getReservation (h : Lasting I) (hkept : ∀ s, I s → NamesKept p closing s)
    {name : String} (hne : name ≠ "") :
    Triple I (aliasReservations.get name) (fun o s => I s ∧ s.aliasReservations.find name = o ∧
      ∀ r, o = some r → s.now < r.expiresAtMs) E := by
  unfold Collection.get
  refine triple_ite (fun heq => absurd heq hne) fun _ => triple_get.bind fun s₀ => ?_
  cases hfind : (aliasReservations.read s₀).find name with
  | none =>
    refine triple_pure fun s hs => ⟨hs.2, ?_, nofun⟩
    rw [← hs.1]
    exact hfind
  | some record =>
    have hheld : Timeless fun s => I s ∧ s.aliasReservations.find name = some record :=
      fun s now ticks hs hle => ⟨h.later s now ticks hs.1 hle, hs.2⟩
    refine ((triple_isExpired hheld record.expiresAtMs).pre fun s hs => ⟨hs.2, ?_⟩).bind fun b => ?_
    · rw [← hs.1]
      exact hfind
    refine triple_ite (fun _ => ?_) fun hb => ?_
    · -- The expired record goes.
      refine Triple.bind (Q := fun _ s => I s ∧ s.aliasReservations.find name = none)
        (triple_modify fun s hs => ⟨h.reservations s name hs.1.1, ?_⟩)
        fun _ => triple_pure fun s hs => ⟨hs.1, hs.2, nofun⟩
      exact (OrderedMap.find_erase _ _ _).trans (if_pos rfl)
    · refine triple_pure fun s hs => ⟨hs.1.1, hs.1.2, fun r hr => ?_⟩
      cases hr
      have hpos := ((hkept s hs.1.1).reserved name record hs.1.2).1
      rcases hs.2 (Bool.eq_false_of_not_eq_true hb) with h0 | hlt
      · omega
      · exact hlt

/-! ## Reservations -/

theorem keeps_release (h : Lasting I) (requestedAlias : Option String)
    (ownerId : Option OwnerToken) :
    Triple I (releaseAliasReservation requestedAlias ownerId) (fun _ => I) E := by
  unfold releaseAliasReservation
  split
  · next name owner =>
    refine (keeps_get h h.reservations name).bind fun o => ?_
    cases o with
    | none => exact triple_pure fun _ => id
    | some reservation =>
      exact triple_ite (fun _ => keeps_delete h.reservations name) fun _ => triple_pure fun _ => id
  · exact triple_pure fun _ => id

/-- The reservation of the closing name is gone, or another's. -/
theorem NamesKept.closed {name : String} {owner : OwnerToken} {s : Registrar}
    (h : NamesKept p (some (name, owner)) s)
    (hno : ∀ r, s.aliasReservations.find name = some r → r.ownerId ≠ owner) :
    NamesKept p none s := by
  refine ⟨h.unique, fun name' r hr => ⟨(h.reserved name' r hr).1, fun hlive => ?_⟩, h.challenges⟩
  rcases (h.reserved name' r hr).2 hlive with hfree | heq
  · exact .inl hfree
  · cases heq
    exact absurd rfl (hno r hr)

/-- A release by the owner closes the name. -/
theorem triple_release {name : String} {owner : OwnerToken} (hne : name ≠ "") :
    Triple (NamesKept p (some (name, owner))) (releaseAliasReservation (some name) (some owner))
      (fun _ => NamesKept p none) E := by
  unfold releaseAliasReservation
  refine (triple_getReservation lasting_namesKept (fun _ => id) hne).bind fun o => ?_
  cases o with
  | none =>
    refine triple_pure fun s hs => hs.1.closed fun r hr => ?_
    cases hs.2.1.symm.trans hr
  | some reservation =>
    refine triple_ite (fun _ => triple_modify fun s hs => ?_) fun hother =>
      triple_pure fun s hs => hs.1.closed fun r hr => ?_
    · refine (lasting_namesKept.reservations s name hs.1).closed fun r hr => ?_
      have hgone : (s.aliasReservations.erase name).find name = none :=
        (OrderedMap.find_erase _ _ _).trans (if_pos rfl)
      cases hgone.symm.trans hr
    · cases hs.2.1.symm.trans hr
      exact hother

theorem name_ne_empty {value : Option Json} {name : String}
    (h : normalizeAlias p value = .ok (some name)) : name ≠ "" := by
  obtain ⟨typed, _, h⟩ := bind_eq_ok.mp h
  dsimp only at h
  split at h
  · cases h
  · next hne =>
    cases h
    intro hempty
    have hlist := congrArg String.toList hempty
    rw [String.toList_ofList] at hlist
    cases (List.append_eq_nil_iff.mp hlist).2

theorem ledgerHasAlias_eq_false {name : String} {accounts : List Fields}
    (h : ledgerHasAlias p name accounts = .ok false) :
    ∀ account ∈ accounts, normalizeAlias p (account.get "alias") ≠ .ok (some name) := by
  induction accounts with
  | nil => exact nofun
  | cons account accounts ih =>
    obtain ⟨found, hfound, h⟩ := bind_eq_ok.mp h
    split at h
    · cases h
    · next hne =>
      intro account' hmem heq
      rcases List.mem_cons.mp hmem with rfl | hmem
      · cases hfound.symm.trans heq
        exact hne rfl
      · exact ih h account' hmem heq

theorem not_taken {ledger : Ledger} {name : String}
    (h : ledgerHasAlias p name (ledger.accounts.entries.map Prod.snd) = .ok false) :
    ¬ Taken p ledger name := by
  rintro ⟨a, account, haccount, hname⟩
  have hmem := OrderedMap.find_eq_some.mp haccount
  exact ledgerHasAlias_eq_false h account (List.mem_map.mpr ⟨_, hmem, rfl⟩) hname

/-- A name that is available no account has. -/
theorem triple_aliasAvailable (h : Lasting I) (name : String) (owner : OwnerToken) :
    Triple I (aliasAvailable p name owner)
      (fun b s => I s ∧ (b = true → ¬ Taken p s.ledger name)) I := by
  unfold aliasAvailable
  refine triple_get.bind fun s₀ => ?_
  refine (triple_lift fun s hs => hs.2).bind fun taken => ?_
  refine triple_ite (fun _ => triple_pure fun s hs => ⟨hs.2.2, nofun⟩) fun hno => ?_
  cases Bool.eq_false_of_not_eq_true hno
  have hfree := h.and_ledger fun ledger => ¬ Taken p ledger name
  refine ((keeps_get hfree hfree.reservations name).pre fun s hs => ?_).bind fun o => ?_
  · refine ⟨hs.2.2, not_taken ?_⟩
    rw [← hs.2.1]
    exact hs.1
  · cases o with
    | none => exact triple_pure fun s hs => ⟨hs.1, fun _ => hs.2⟩
    | some reservation =>
      refine (triple_dateNow hfree.later).bind fun now => ?_
      exact triple_ite (fun _ => triple_pure fun s hs => ⟨hs.1.1, fun _ => hs.1.2⟩)
        fun _ => triple_pure fun s hs => ⟨hs.1.1, fun _ => hs.1.2⟩

/-- A free name may be reserved. -/
theorem NamesKept.reserve {name : String} {s : Registrar} (h : NamesKept p none s)
    (hfree : ¬ Taken p s.ledger name) {r : AliasReservation} (hpos : 0 < r.expiresAtMs) :
    NamesKept p none (aliasReservations.write (s.aliasReservations.insert name r) s) := by
  refine ⟨h.unique, fun name' r' hr => ?_, h.challenges⟩
  rw [show (aliasReservations.write (s.aliasReservations.insert name r) s).aliasReservations =
    s.aliasReservations.insert name r from rfl, OrderedMap.find_insert] at hr
  split at hr
  · next heq =>
    cases hr
    subst heq
    exact ⟨hpos, fun _ => .inl hfree⟩
  · exact h.reserved name' r' hr

theorem keeps_reserveAlias (name : String) (owner : OwnerToken) {expiresAtMs : Nat}
    (hpos : 0 < expiresAtMs) : Keeps (NamesKept p none) (reserveAlias p name owner expiresAtMs) := by
  unfold reserveAlias
  refine (triple_aliasAvailable lasting_namesKept name owner).bind fun free => ?_
  refine triple_ite (fun hfree => ?_) fun _ => triple_pure fun s hs => hs.1
  refine Triple.bind (Q := fun _ => NamesKept p none) ?_ fun _ => triple_pure fun _ => id
  exact triple_modify fun s hs => hs.1.reserve (hs.2 hfree) hpos

theorem keeps_transfer {name : String} (hne : name ≠ "") (fromOwnerId toOwnerId : OwnerToken)
    {expiresAtMs : Nat} (hpos : 0 < expiresAtMs) : Keeps (NamesKept p none)
      (transferAliasReservation p name fromOwnerId toOwnerId expiresAtMs) := by
  have hstart : Keeps (NamesKept p none) (do
      aliasReservations.delete name
      reserveAlias p name toOwnerId expiresAtMs) :=
    Triple.bind (keeps_delete lasting_namesKept.reservations name) fun _ =>
      keeps_reserveAlias name toOwnerId hpos
  unfold transferAliasReservation
  refine (triple_getReservation lasting_namesKept (fun _ => id) hne).bind fun o => ?_
  cases o with
  | none => exact hstart.pre fun s hs => hs.1
  | some reservation =>
    have hkept : Lasting (NamesKept p none) := lasting_namesKept
    have hfree := hkept.and_ledger fun ledger => ¬ Taken p ledger name
    refine ((triple_dateNow hfree.later).pre fun s hs => ⟨hs.1, ?_⟩).bind fun now => ?_
    · rcases (hs.1.reserved name reservation hs.2.1).2 (hs.2.2 reservation rfl) with hfree | hclosing
      · exact hfree
      · cases hclosing
    refine triple_ite (fun _ => hstart.pre fun s hs => hs.1.1) fun _ => triple_ite (fun _ => ?_)
      fun _ => triple_pure fun s hs => hs.1.1
    refine Triple.bind (Q := fun _ => NamesKept p none) ?_ fun _ => triple_pure fun _ => id
    exact triple_modify fun s hs => hs.1.1.reserve hs.1.2 hpos

theorem keeps_cleanupSl1eArtifacts (h : Lasting I) : Keeps I cleanupSl1eArtifacts := by
  unfold cleanupSl1eArtifacts
  refine (keeps_cleanup h h.challenges fun record => keeps_release h _ _).bind fun _ => ?_
  refine (keeps_cleanup h (fun s _ hs => h.handoffs s _ hs) fun record => keeps_release h _ _).bind
    fun _ => ?_
  exact keeps_cleanup h h.reservations fun _ => triple_pure fun _ => id

/-! ## Handlers up to their call -/

theorem keeps_write_handoffs (h : Lasting I) (id : String) (record : DeviceHandoff) :
    Keeps I (deviceHandoffs.set id record) :=
  triple_modify fun s hs => h.handoffs s _ hs

/-- A handler of `options` waits with a name in normal form. -/
theorem triple_registrationOptions (id : String) (typed : Option Json) (displayAlias : Json)
    (rpId fallbackHandle : String) (owner : OwnerToken) :
    Triple (NamesKept p none) (registrationOptions p id typed displayAlias rpId fallbackHandle owner)
      (fun o s => NamesKept p none s ∧ ∀ w, o = some w → IsNormal p w.challenge.requestedAlias)
      (NamesKept p none) := by
  unfold registrationOptions
  refine (triple_lift fun _ hs => hs).bind fun requestedAlias => triple_of_pure fun halias => ?_
  have hnormal : IsNormal p requestedAlias := by
    rintro name rfl
    exact normalizeAlias_normal halias
  refine (triple_dateNow lasting_namesKept.later).bind fun now => ?_
  cases requestedAlias with
  | none =>
    refine triple_pure fun s hs => ⟨hs.1, fun w hw => ?_⟩
    cases hw
    exact hnormal
  | some name =>
    have hpos : 0 < now + fiveMinutes := Nat.add_pos_right now (by decide)
    refine ((keeps_reserveAlias name owner hpos).pre fun s hs => hs.1).bind fun reserved => ?_
    refine triple_pure fun s hs => ⟨hs, fun w hw => ?_⟩
    split at hw
    · cases hw
      exact hnormal
    · cases hw

theorem triple_registrationComplete (id : String) :
    Triple (NamesKept p none) (registrationComplete id)
      (fun o s => NamesKept p none s ∧ ∀ w, o = some w → IsNormal p w.challenge.requestedAlias)
      (NamesKept p none) := by
  unfold registrationComplete
  refine (triple_get_record lasting_namesKept lasting_namesKept.challenges
    (fun s key c hs => hs.challenges key c) id).bind fun o => ?_
  refine triple_pure fun s hs => ⟨hs.1, fun w hw => ?_⟩
  obtain ⟨challenge, rfl, rfl⟩ := Option.map_eq_some_iff.mp hw
  exact hs.2 challenge rfl

theorem keeps_closeRegistration (h : Lasting I) (id : String) (challenge : RegistrationChallenge) :
    Triple I (closeRegistration id challenge) (fun _ => I) E := by
  unfold closeRegistration
  exact (keeps_release h _ _).bind fun _ => keeps_delete h.challenges id

theorem keeps_registrationRelease (h : Lasting I) (id : String) : Keeps I (registrationRelease id) := by
  unfold registrationRelease
  refine (keeps_get h h.challenges id).bind fun o => ?_
  cases o with
  | none => exact triple_pure fun _ hs => hs
  | some challenge => exact keeps_closeRegistration h id challenge

theorem keeps_deviceHandoff (id : String) (register : Bool) (typed : Option Json)
    (prior : Option OwnerToken) (owner : OwnerToken) :
    Keeps (NamesKept p none) (deviceHandoff p id register typed prior owner) := by
  unfold deviceHandoff
  refine (triple_dateNow lasting_namesKept.later).bind fun now => ?_
  have hpos : 0 < now + fiveMinutes := Nat.add_pos_right now (by decide)
  refine Triple.pre ?_ fun s hs => hs.1
  refine triple_ite (fun _ => ?_) fun _ => keeps_write_handoffs lasting_namesKept id _
  refine (triple_lift fun _ hs => hs).bind fun requestedAlias => triple_of_pure fun halias => ?_
  cases requestedAlias with
  | none => exact triple_pure fun _ hs => hs
  | some name =>
    have hset : ∀ reserved : Bool, Keeps (NamesKept p none)
        (if reserved then deviceHandoffs.set id ⟨some name, some owner, true, now + fiveMinutes⟩
          else pure ⟨⟩) := fun reserved =>
      triple_ite (fun _ => keeps_write_handoffs lasting_namesKept id _) fun _ =>
        triple_pure fun _ hs => hs
    cases prior with
    | none => exact (keeps_reserveAlias name owner hpos).bind hset
    | some prior => exact (keeps_transfer (name_ne_empty halias) prior owner hpos).bind hset

theorem keeps_deviceHandoffComplete (h : Lasting I) (id : String) :
    Keeps I (deviceHandoffComplete id) := by
  unfold deviceHandoffComplete
  refine (keeps_get h (fun s _ hs => h.handoffs s _ hs) id).bind fun o => ?_
  cases o with
  | none => exact triple_pure fun _ hs => hs
  | some handoff =>
    refine triple_ite (fun _ => ?_) fun _ => triple_pure fun _ hs => hs
    refine (triple_dateNow h.later).bind fun now => ?_
    exact ((keeps_write_handoffs h id _).pre fun s hs => hs.1).bind fun _ => keeps_release h _ _

theorem triple_startHandler (request : BrowserRequest) :
    Triple (NamesKept p none) (startHandler p request)
      (fun o s => NamesKept p none s ∧ ∀ w, o = some w → IsNormal p w.challenge.requestedAlias)
      (NamesKept p none) := by
  unfold startHandler
  refine (keeps_cleanupSl1eArtifacts lasting_namesKept).bind fun _ => ?_
  cases request with
  | registrationOptions id typed displayAlias rpId fallbackHandle owner =>
    exact triple_registrationOptions id typed displayAlias rpId fallbackHandle owner
  | registrationComplete id => exact triple_registrationComplete id
  | registrationRelease id =>
    exact (keeps_registrationRelease lasting_namesKept id).bind fun _ =>
      triple_pure fun s hs => ⟨hs, nofun⟩
  | deviceHandoff id register typed prior owner =>
    exact (keeps_deviceHandoff id register typed prior owner).bind fun _ =>
      triple_pure fun s hs => ⟨hs, nofun⟩
  | deviceHandoffComplete id =>
    exact (keeps_deviceHandoffComplete lasting_namesKept id).bind fun _ =>
      triple_pure fun s hs => ⟨hs, nofun⟩
  | other => exact triple_pure fun s hs => ⟨hs, nofun⟩

/-! ## A new account -/

theorem normalizeAlias_null : normalizeAlias p (some .null) = .ok none := by
  have hlower : p.lower "" = "" := p.lower_name "" nofun
  have hnfkc : p.nfkc "" = "" := p.nfkc_name "" nofun
  have htrim : trim "" = "" := trim_of_none nofun
  have hempty : strOrEmpty (some .null) = .ok "" := rfl
  unfold normalizeAlias stripAliasDecorations
  rw [hempty]
  simp only [ok_bind, htrim, hlower, hnfkc, pure_eq_ok]
  rfl

/-- The alias of the account is the one that was asked for. -/
theorem normalizeAlias_orNull {requestedAlias : Option String} (h : IsNormal p requestedAlias) :
    normalizeAlias p (some (orNull (some ((requestedAlias.map Json.str).getD .null)))) =
      .ok requestedAlias := by
  cases requestedAlias with
  | none => exact normalizeAlias_null
  | some name =>
    rw [Option.map_some, Option.getD_some, orNull_str (name_ne_empty (h name rfl))]
    exact h name rfl

theorem genesisOf_alias {genesis : Genesis} {event : Json}
    (h : genesisOf p.toPlatform event = .ok genesis) :
    genesis.account.get "alias" = some (orNull (payloadField event "alias")) := by
  unfold genesisOf at h
  obtain ⟨payload, hpayload, h⟩ := bind_eq_ok.mp h
  obtain ⟨counter, _, h⟩ := bind_eq_ok.mp h
  obtain ⟨entityAddress, _, h⟩ := bind_eq_ok.mp h
  obtain ⟨keyAddress, _, h⟩ := bind_eq_ok.mp h
  rw [← payloadOf_prop hpayload]
  cases h
  simp

theorem completeRegistration_gives {ledger : Ledger} {stamp : Stamp} {entityAddress : String}
    {identity : NewIdentity} {passkey : Passkey} {event : Json}
    (h : completeRegistration p.toPlatform ledger stamp entityAddress identity passkey =
      .ok (some event)) :
    isNewPasskey ledger passkey = .ok true ∧ ledgerEventType event = some .genesis ∧
      payloadField event "alias" = identity.requestedAlias := by
  unfold completeRegistration at h
  obtain ⟨isNew, hnew, h⟩ := bind_eq_ok.mp h
  cases isNew with
  | false => cases h
  | true =>
    obtain ⟨keyAddress, _, h⟩ := bind_eq_ok.mp h
    cases h
    refine ⟨hnew, ledgerEventType_stamped stamp _ _, ?_⟩
    simp [payloadField_stamped, passkeyFields]

/-- Every account is an old one, or the new one with the name that was asked for. -/
theorem account_registered {ledger : Ledger} {stamp : Stamp} {entityAddress : String}
    {challenge : RegistrationChallenge} {passkey : Passkey} {event : Json} (config : RealmConfig)
    (hnormal : IsNormal p challenge.requestedAlias)
    (h : completeRegistration p.toPlatform ledger stamp entityAddress challenge.identity passkey =
      .ok (some event)) :
    ∃ new, ∀ a account, (after (applyEvent p.toPlatform config event) ledger).account a = some account →
      ledger.account a = some account ∨
        (a = new ∧ normalizeAlias p (account.get "alias") = .ok challenge.requestedAlias) := by
  obtain ⟨_, htype, halias⟩ := completeRegistration_gives h
  cases hlog : logLine event with
  | error e =>
    rw [applyEvent_unlogged hlog]
    exact ⟨"", fun a account haccount => .inl haccount⟩
  | ok _ =>
    simp only [account_applyEvent p.toPlatform ledger event _ config false hlog, handleEvent, htype,
      applyTyped, account_applyGenesis]
    cases hgenesis : genesisOf p.toPlatform event with
    | error e => exact ⟨"", fun a account haccount => .inl haccount⟩
    | ok genesis =>
      refine ⟨genesis.entityAddress, fun a account haccount => ?_⟩
      dsimp only at haccount
      split at haccount
      · next heq =>
        cases haccount
        refine .inr ⟨heq.symm, ?_⟩
        rw [genesisOf_alias hgenesis, halias]
        exact normalizeAlias_orNull hnormal
      · exact .inl haccount

/-! ## A registration ends -/

/-- The name is still reserved for the registration. -/
def NameHeld (s : Registrar) (challenge : RegistrationChallenge) (name : String) : Prop :=
  ∃ r, s.aliasReservations.find name = some r ∧ r.ownerId = challenge.aliasReservationOwner ∧
    s.now < r.expiresAtMs

/-- The name is available to the owner of the registration, as `aliasAvailable` says it. -/
def NameFree (p : NamePlatform) (s : Registrar) (challenge : RegistrationChallenge)
    (name : String) : Prop :=
  ¬ Taken p s.ledger name ∧ ∀ r, s.aliasReservations.find name = some r →
    s.now < r.expiresAtMs → r.ownerId = challenge.aliasReservationOwner

/-- A registration with a new passkey ends while its name is still reserved for it, or available. -/
def EndsWithName (p : NamePlatform) (s : Registrar) (challenge : RegistrationChallenge)
    (verification : Verification) : Prop :=
  ∀ stamp entityAddress passkey throwsLater,
    verification = .verified stamp entityAddress passkey throwsLater →
    isNewPasskey s.ledger passkey = .ok true →
    ∀ name, challenge.requestedAlias = some name →
      NameHeld s challenge name ∨ NameFree p s challenge name

/-- A name that is reserved for the registration is free. -/
theorem NameHeld.free {s : Registrar} {challenge : RegistrationChallenge} {name : String}
    (h : NameHeld s challenge name) (hs : NamesKept p none s) : NameFree p s challenge name := by
  obtain ⟨r, hr, howner, hlive⟩ := h
  refine ⟨?_, fun r' hr' _ => ?_⟩
  · rcases (hs.reserved name r hr).2 hlive with hfree | hclosing
    · exact hfree
    · cases hclosing
  · cases hr.symm.trans hr'
    exact howner

/-- The new account takes the name of the registration, which closes. -/
theorem NamesKept.registered {s : Registrar} {challenge : RegistrationChallenge} {ledger : Ledger}
    {new : String} (h : NamesKept p none s)
    (hfree : ∀ name, challenge.requestedAlias = some name → NameFree p s challenge name)
    (haccounts : ∀ a account, ledger.account a = some account → s.ledger.account a = some account ∨
      (a = new ∧ normalizeAlias p (account.get "alias") = .ok challenge.requestedAlias)) :
    NamesKept p (challenge.requestedAlias.map (·, challenge.aliasReservationOwner))
      { s with ledger } := by
  refine ⟨fun a b account account' name ha hb hname hname' => ?_, fun name r hr =>
    ⟨(h.reserved name r hr).1, fun hlive => ?_⟩, h.challenges⟩
  · rcases haccounts a account ha with hold | ⟨rfl, hnew⟩
    · rcases haccounts b account' hb with hold' | ⟨rfl, hnew'⟩
      · exact h.unique a b account account' name hold hold' hname hname'
      · -- The old account would have the name that was free.
        exact absurd ⟨a, account, hold, hname⟩ (hfree name (Except.ok.inj (hnew'.symm.trans hname'))).1
    · rcases haccounts b account' hb with hold' | ⟨rfl, -⟩
      · exact absurd ⟨b, account', hold', hname'⟩ (hfree name (Except.ok.inj (hnew.symm.trans hname))).1
      · rfl
  · by_cases hclosing : challenge.requestedAlias = some name
    · right
      rw [hclosing, Option.map_some, (hfree name hclosing).2 r hr hlive]
    · left
      rintro ⟨a, account, haccount, hname⟩
      rcases haccounts a account haccount with hold | ⟨-, hnew⟩
      · rcases (h.reserved name r hr).2 hlive with hno | hnone
        · exact hno ⟨a, account, hold, hname⟩
        · cases hnone
      · exact hclosing (Except.ok.inj (hnew.symm.trans hname))

theorem triple_closeRegistration {id : String} {challenge : RegistrationChallenge}
    (hnormal : IsNormal p challenge.requestedAlias) :
    Triple (NamesKept p (challenge.requestedAlias.map (·, challenge.aliasReservationOwner)))
      (closeRegistration id challenge) (fun _ => NamesKept p none) E := by
  unfold closeRegistration
  cases halias : challenge.requestedAlias with
  | none =>
    exact (keeps_release lasting_namesKept none _).bind fun _ =>
      keeps_delete lasting_namesKept.challenges id
  | some name =>
    exact (triple_release (name_ne_empty (hnormal name halias))).bind fun _ =>
      keeps_delete lasting_namesKept.challenges id

theorem triple_finishRegistration (config : RealmConfig) (id : String)
    {challenge : RegistrationChallenge} (hnormal : IsNormal p challenge.requestedAlias)
    (verification : Verification) :
    Triple (fun s => NamesKept p none s ∧ EndsWithName p s challenge verification)
      (finishRegistration p config id challenge verification) (fun _ => NamesKept p none) E := by
  have hclose : Triple (NamesKept p none) (closeRegistration id challenge)
      (fun _ => NamesKept p none) E := keeps_closeRegistration lasting_namesKept id challenge
  cases verification with
  | threw => exact hclose.pre fun s hs => hs.1
  | notVerified => exact triple_pure fun s hs => hs.1
  | verified stamp entityAddress passkey throwsLater =>
    unfold finishRegistration
    refine triple_get.bind fun s₀ => ?_
    dsimp only
    split
    · exact hclose.pre fun s hs => hs.2.1
    · exact triple_pure fun s hs => hs.2.1
    · next event hevent =>
      obtain ⟨new, haccounts⟩ := account_registered config hnormal hevent
      have hnew := (completeRegistration_gives hevent).1
      refine Triple.bind (Q := fun _ => NamesKept p (challenge.requestedAlias.map
        (·, challenge.aliasReservationOwner))) (triple_modify fun s hs => ?_) fun _ => ?_
      · obtain ⟨rfl, hs, hends⟩ := hs
        refine hs.registered (fun name halias => ?_) haccounts
        rcases hends stamp entityAddress passkey throwsLater rfl hnew name halias with hheld | hfree
        · exact hheld.free hs
        · exact hfree
      · refine (triple_closeRegistration hnormal).bind fun _ => triple_ite (fun _ => hclose)
          fun _ => triple_pure fun _ hs => hs

/-! ## The system -/

/-- What every step keeps. -/
structure SystemKept (p : NamePlatform) (s : RegistrationSystem) : Prop where
  registrar : NamesKept p none s.registrar
  waiting : ∀ w ∈ s.waiting, IsNormal p w.challenge.requestedAlias

theorem systemKept_start {s : RegistrationSystem} (h : SystemKept p s) (request : BrowserRequest) :
    SystemKept p (s.start p request) := by
  have hstart := triple_startHandler (p := p) request s.registrar h.registrar
  unfold RegistrationSystem.start
  split at hstart
  · next waiting registrar heq =>
    rw [heq]
    refine ⟨hstart.1, fun w hw => ?_⟩
    rcases List.mem_append.mp hw with hw | hw
    · exact h.waiting w hw
    · exact hstart.2 w (Option.mem_toList.mp hw)
  · next heq =>
    rw [heq]
    exact ⟨hstart, h.waiting⟩

theorem systemKept_step {config : RealmConfig} {s t : RegistrationSystem}
    (hstep : RegistrationStep p config (EndsWithName p) s t) (h : SystemKept p s) :
    SystemKept p t := by
  have hrest : ∀ {before rest : List Waiting} {w : Waiting}, (∀ v ∈ before ++ w :: rest,
      IsNormal p v.challenge.requestedAlias) → ∀ v ∈ before ++ rest,
      IsNormal p v.challenge.requestedAlias := by
    intro before rest w hall v hv
    refine hall v ?_
    rcases List.mem_append.mp hv with hv | hv
    · exact List.mem_append_left _ hv
    · exact List.mem_append_right _ (List.mem_cons_of_mem w hv)
  cases hstep with
  | request r => exact systemKept_start h r
  | optionsReady id challenge =>
    refine ⟨?_, hrest h.waiting⟩
    have hnormal := h.waiting _ (List.mem_append_right _ List.mem_cons_self)
    refine ⟨h.registrar.unique, h.registrar.reserved, fun id' c hc => ?_⟩
    replace hc := (OrderedMap.find_insert _ _ _ _).symm.trans hc
    split at hc
    · cases hc
      exact hnormal
    · exact h.registrar.challenges id' c hc
  | optionsFailed id challenge => exact ⟨h.registrar, hrest h.waiting⟩
  | registered id challenge verification hends =>
    have hnormal := h.waiting _ (List.mem_append_right _ List.mem_cons_self)
    refine ⟨?_, hrest h.waiting⟩
    exact (triple_finishRegistration config id hnormal verification).after ⟨h.registrar, hends⟩

theorem systemKept_init {ledger : Ledger} (h : NamesUnique p ledger) (now : Nat) (ticks : Nat → Nat) :
    SystemKept p (.init ledger now ticks) :=
  ⟨⟨h, nofun, nofun⟩, nofun⟩

end

/-- As long as every registration ends with its name, names stay unique, whatever the browsers do. -/
theorem names_stay_unique (p : NamePlatform) (config : RealmConfig) {ledger : Ledger} (now : Nat)
    (ticks : Nat → Nat) (hunique : NamesUnique p ledger) {s : RegistrationSystem}
    (hrun : Relation.ReflTransGen (RegistrationStep p config (EndsWithName p))
      (.init ledger now ticks) s) : NamesUnique p s.registrar.ledger := by
  have hkept : SystemKept p s := by
    induction hrun with
    | refl => exact systemKept_init hunique now ticks
    | tail _ hstep ih => exact systemKept_step hstep ih
  exact hkept.registrar.unique

/-! ## Two registrations of one browser -/

theorem twoKeys_lower (s : String) (_ : ∀ c ∈ s.toList, isNameChar c = true) :
    twoKeysPlatform.lower s = s := rfl

/-- A platform for lower-case ASCII names. -/
def plainNames : NamePlatform :=
  { twoKeysPlatform with nfkc := twoKeysPlatform.lower, lower_name := twoKeys_lower,
                         nfkc_name := twoKeys_lower }

instance decidableNameHeld (s : Registrar) (challenge : RegistrationChallenge) (name : String) :
    Decidable (NameHeld s challenge name) :=
  inferInstanceAs (Decidable (∃ r ∈ s.aliasReservations.find name,
    r.ownerId = challenge.aliasReservationOwner ∧ s.now < r.expiresAtMs))

/-- The first handler that waits gets its answer. -/
def answer (s : RegistrationSystem) (verification : Verification) : RegistrationSystem :=
  match s.waiting with
  | [] => s
  | .options id challenge :: rest =>
    ⟨after (registrationChallenges.set id challenge) s.registrar, rest⟩
  | .complete id challenge :: rest =>
    ⟨after (finishRegistration plainNames primaryConfig id challenge verification) s.registrar, rest⟩

theorem browser_ne_empty : "browser" ≠ "" := by decide

def browser : OwnerToken := ⟨"browser", browser_ne_empty⟩

/-- The browser opens a registration of the name. -/
def opened (s : RegistrationSystem) (id : String) : RegistrationSystem :=
  answer (s.start plainNames
    (.registrationOptions id (some (.str "alice")) .null "simplelayer.one" "anonymous"
      browser)) .notVerified

/-- The passkey of a registration is verified. -/
def completed (s : RegistrationSystem) (id entityAddress : String) (passkey : Passkey) :
    RegistrationSystem :=
  answer (s.start plainNames (.registrationComplete id))
    (.verified aliceStamp entityAddress passkey false)

/-- The registration that waits first has its name reserved. -/
def isHeld (s : RegistrationSystem) : Bool :=
  match s.waiting with
  | .complete _ challenge :: _ =>
    challenge.requestedAlias.all fun name => decide (NameHeld s.registrar challenge name)
  | _ => true

section
variable {ok : Registrar → RegistrationChallenge → Verification → Prop} {s : RegistrationSystem}

theorem answer_reached (verification : Verification)
    (hok : ∀ id challenge rest, s.waiting = .complete id challenge :: rest →
      ok s.registrar challenge verification) :
    Relation.ReflTransGen (RegistrationStep plainNames primaryConfig ok) s (answer s verification) := by
  obtain ⟨registrar, waiting⟩ := s
  unfold answer
  cases waiting with
  | nil => exact .refl
  | cons w rest =>
    cases w with
    | options id challenge => exact .single (@RegistrationStep.optionsReady _ _ _ _ [] _ id challenge)
    | complete id challenge =>
      exact .single (@RegistrationStep.registered _ _ _ _ [] _ id challenge verification
        (hok id challenge rest rfl))

theorem opened_reached (id : String)
    (hok : ∀ registrar challenge, ok registrar challenge .notVerified) :
    Relation.ReflTransGen (RegistrationStep plainNames primaryConfig ok) s (opened s id) :=
  (Relation.ReflTransGen.single (.request _)).trans (answer_reached _ fun _ _ _ _ => hok _ _)

theorem endsWithName_of_isHeld (h : isHeld s = true) {id : String} {challenge : RegistrationChallenge}
    {rest : List Waiting} (hwaiting : s.waiting = .complete id challenge :: rest)
    (verification : Verification) : EndsWithName plainNames s.registrar challenge verification := by
  intro stamp entityAddress passkey throwsLater _ _ name halias
  unfold isHeld at h
  rw [hwaiting] at h
  dsimp only at h
  rw [halias] at h
  exact .inl (of_decide_eq_true h)

end

/-- Nobody is registered. -/
def freshLedger : Ledger := .fresh none ⟨none, [], none⟩

theorem freshLedger_unique : NamesUnique plainNames freshLedger :=
  fun _ _ _ _ _ ha => nomatch ha

def started : RegistrationSystem := .init freshLedger 1000 fun _ => 1

/-- One browser opens two registrations of the name, for both reserved under its token. -/
def bothOpened : RegistrationSystem := opened (opened started "r1") "r2"

def oneAccount : RegistrationSystem :=
  completed bothOpened "r1" aliceAddress ⟨"cred_a", "pk_a", .int 0, .arr []⟩

def twoAccounts : RegistrationSystem :=
  completed oneAccount "r2" bobAddress ⟨"cred_b", "pk_b", .int 0, .arr []⟩

/-- The name of the account. -/
def nameAt (s : RegistrationSystem) (a : String) : Option String := do
  let account ← s.registrar.ledger.account a
  (← (normalizeAlias plainNames (account.get "alias")).toOption)

theorem oneAccount_held :
    isHeld (bothOpened.start plainNames (.registrationComplete "r1")) = true := by
  decide +kernel

theorem twoAccounts_names :
    nameAt twoAccounts aliceAddress = some "alice.sl1.one" ∧
      nameAt twoAccounts bobAddress = some "alice.sl1.one" := by
  decide +kernel

theorem nameAt_eq_some {s : RegistrationSystem} {a name : String} (h : nameAt s a = some name) :
    ∃ account, s.registrar.ledger.account a = some account ∧
      normalizeAlias plainNames (account.get "alias") = .ok (some name) := by
  obtain ⟨account, haccount, h⟩ := Option.bind_eq_some_iff.mp h
  obtain ⟨alias', halias, h⟩ := Option.bind_eq_some_iff.mp h
  refine ⟨account, haccount, ?_⟩
  rw [← h]
  cases hname : normalizeAlias plainNames (account.get "alias") with
  | error e => rw [hname] at halias; cases halias
  | ok found => rw [hname] at halias; cases halias; rfl

theorem bothOpened_reached {ok : Registrar → RegistrationChallenge → Verification → Prop}
    (hok : ∀ registrar challenge, ok registrar challenge .notVerified) :
    Relation.ReflTransGen (RegistrationStep plainNames primaryConfig ok) started bothOpened :=
  (opened_reached "r1" hok).trans (opened_reached "r2" hok)

theorem names_stay_unique_once : NamesUnique plainNames oneAccount.registrar.ledger :=
  names_stay_unique plainNames primaryConfig 1000 (fun _ => 1) freshLedger_unique <|
    (bothOpened_reached fun _ _ _ _ _ _ heq => nomatch heq).trans <|
      (Relation.ReflTransGen.single (.request _)).trans <|
        answer_reached _ fun _ _ _ hwaiting => endsWithName_of_isHeld oneAccount_held hwaiting _

/-- The first registration gives the reservation back, the second does not look again. -/
theorem one_name_twice :
    ∃ ledger now ticks s, NamesUnique plainNames ledger ∧
      Relation.ReflTransGen (RegistrationStep plainNames primaryConfig fun _ _ _ => True)
        (.init ledger now ticks) s ∧ ¬ NamesUnique plainNames s.registrar.ledger := by
  have hcompleted : ∀ s id entityAddress passkey, Relation.ReflTransGen
      (RegistrationStep plainNames primaryConfig fun _ _ _ => True) s
      (completed s id entityAddress passkey) := fun s id entityAddress passkey =>
    (Relation.ReflTransGen.single (.request _)).trans (answer_reached _ fun _ _ _ _ => trivial)
  refine ⟨freshLedger, 1000, fun _ => 1, twoAccounts, freshLedger_unique, ?_, fun h => ?_⟩
  · exact ((bothOpened_reached fun _ _ => trivial).trans (hcompleted _ _ _ _)).trans
      (hcompleted _ _ _ _)
  · obtain ⟨alice, halice, hname⟩ := nameAt_eq_some twoAccounts_names.1
    obtain ⟨bob, hbob, hname'⟩ := nameAt_eq_some twoAccounts_names.2
    have heq : aliceAddress ≠ bobAddress := by decide
    exact heq (h _ _ alice bob _ halice hbob hname hname')

end SimpleL1.Node
