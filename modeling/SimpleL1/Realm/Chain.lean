import SimpleL1.Lib.HashChain
import SimpleL1.Realm.History

/-!
# The history as a hash chain

`Chain host d log fs` says the chained events of `log` link up from the digest
`d` and `fs` are their hashed fields: it is what `verifyRealmEventHistory` checks.
A digest is `none` before the first event. With a collision-free hash the digests
bind the hashed fields, up to key order and to numbers JSON cannot write.
-/

namespace SimpleL1.Realm

open SimpleL1.Js SimpleL1.Lib

/-- A digest as the events carry it. -/
def digest : Option String → Json
  | none => .null
  | some s => .str s

theorem digest_injective {d e : Option String} (h : digest d = digest e) : d = e := by
  cases d <;> cases e <;> simp_all [digest]

theorem strictEq_digest_iff {a : Option Json} {d : Option String} :
    strictEq a (some (digest d)) = true ↔ a = some (digest d) := by
  cases d with
  | none => exact strictEq_null_iff
  | some s => exact strictEq_str_iff

/-! ## Canonical text -/

mutual

theorem canonicalChars_eq : ∀ v : Json, canonicalChars v = v.canonText
  | .null => rfl
  | .bool _ => rfl
  | .num _ => rfl
  | .str _ => rfl
  | .arr xs => by
    simp only [canonicalChars, Json.canonText, Json.canon, Json.text, canonicalElems_eq xs]
  | .obj fs => by
    simp only [canonicalChars, Json.canonText, Json.canon, Json.text, canonicalValues_eq fs]
    rw [← map_sortFields Json.text, Json.fieldTexts_eq_map, List.map_map]
    rfl

theorem canonicalElems_eq : ∀ xs : List Json, canonicalElems xs = Json.texts (Json.canonList xs)
  | [] => rfl
  | x :: xs => by
    simp only [canonicalElems, Json.canonList, Json.texts, canonicalElems_eq xs]
    rw [canonicalChars_eq x]; rfl

theorem canonicalValues_eq : ∀ fs : List (String × Json),
    canonicalValues fs = (Json.canonFields fs).map fun p => (p.1, p.2.text)
  | [] => rfl
  | (k, v) :: fs => by
    simp only [canonicalValues, Json.canonFields, List.map_cons, canonicalValues_eq fs]
    rw [canonicalChars_eq v]; rfl

end

theorem canonicalEncode_eq (v : Json) : canonicalEncode v = String.ofList v.canonText := by
  rw [canonicalEncode, canonicalChars_eq]

theorem canonicalEncode_eq_iff {v w : Json} :
    canonicalEncode v = canonicalEncode w ↔ Json.Same v.written w.written := by
  rw [canonicalEncode_eq, canonicalEncode_eq, ← Json.canonText_eq_iff_written]
  exact ⟨fun h => by simpa using congrArg String.toList h, congrArg _⟩

/-! ## Links -/

/-- The digest after an event with the hashed fields `f`. -/
def link (host : Host) (d : Option String) (f : HashedFields) : Option String :=
  some (host.sha256 (canonicalEncode (f.material (digest d))))

/-- Fields a text cannot tell apart. -/
structure HashedFields.Alike (f g : HashedFields) : Prop where
  authority_reference : f.authority_reference.written.Same g.authority_reference.written
  payload : f.payload.written.Same g.payload.written
  sequence : (Json.num f.sequence).written.Same (Json.num g.sequence).written
  signer : f.signer.written.Same g.signer.written
  type : f.type.written.Same g.type.written
  version : (Json.num f.version).written.Same (Json.num g.version).written

theorem prop_of_same {v w : Json} (h : v.written.Same w.written) (k : String) :
    (v.prop k).map (Json.canon ∘ Json.written) = (w.prop k).map (Json.canon ∘ Json.written) := by
  have hk := congrArg (·.prop k) h
  simpa only [Json.prop_canon, Json.prop_written, Option.map_map] using hk

theorem digest_of_same {d e : Option String} (h : (digest d).written.Same (digest e).written) :
    d = e := by
  apply digest_injective
  cases d <;> cases e <;> simp_all [digest, Json.Same, Json.written, Json.canon]

theorem link_separates {host : Host} (hcf : host.CollisionFree) {d e : Option String}
    {f g : HashedFields} (h : link host d f = link host e g) : d = e ∧ f.Alike g := by
  have hsame := canonicalEncode_eq_iff.mp (hcf (Option.some.inj h))
  have hprop := fun k => prop_of_same hsame k
  refine ⟨digest_of_same ?_, ?_⟩
  · simpa [HashedFields.material, Json.Same] using hprop "previous_event_hash"
  · constructor
    · simpa [HashedFields.material, Json.Same] using hprop "authority_reference"
    · simpa [HashedFields.material, Json.Same] using hprop "payload"
    · simpa [HashedFields.material, Json.Same] using hprop "sequence"
    · simpa [HashedFields.material, Json.Same] using hprop "signer"
    · simpa [HashedFields.material, Json.Same] using hprop "type"
    · simpa [HashedFields.material, Json.Same] using hprop "version"

theorem link_binding {host : Host} (hcf : host.CollisionFree) :
    HashChain.Binding (link host) none HashedFields.Alike where
  separates := link_separates hcf
  ne_genesis _ _ := by simp [link]

/-! ## Attached events -/

/-- The event's own hash, ids and previous hash are right after the digest `d`. -/
structure Attached (host : Host) (d : Option String) (event : Json) (f : HashedFields) : Prop where
  hashed : hashedFields event = .ok f
  previous : event.prop "previous_event_hash" = some (digest d)
  current : event.prop "current_event_hash" = some (digest (link host d f))
  named : ∃ id, buildRealmEventId event (host.sha256 (canonicalEncode (f.material (digest d)))) = .ok id
    ∧ event.prop "event_id" = some (.str id) ∧ event.prop "id" = some (.str id)

inductive Chain (host : Host) : Option String → List Json → List HashedFields → Prop where
  | nil (d : Option String) : Chain host d [] []
  | skip {d : Option String} {event : Json} {log : List Json} {fs : List HashedFields} :
      isHashChainedRealmEvent event = .ok false → Chain host d log fs → Chain host d (event :: log) fs
  | link {d : Option String} {event : Json} {log : List Json} {f : HashedFields}
      {fs : List HashedFields} :
      isHashChainedRealmEvent event = .ok true → Attached host d event f →
      Chain host (Realm.link host d f) log fs → Chain host d (event :: log) (f :: fs)

theorem calculateRealmEventHash_eq_ok {host : Host} {event prev : Json} {hash : String} :
    calculateRealmEventHash host event prev = .ok hash ↔
      ∃ f, hashedFields event = .ok f ∧ hash = host.sha256 (canonicalEncode (f.material prev)) := by
  unfold calculateRealmEventHash realmEventHashMaterial
  cases hashedFields event with
  | error e => simp [Except.map]
  | ok f => simp [Except.map, eq_comm]

theorem throw_sequenceError_ne_ok {α : Type} {code : String} {event : Json} {a : α} :
    (do throw (← sequenceError code event) : JsM α) ≠ .ok a := by
  cases sequenceError code event with
  | error e => exact fun h => by cases h
  | ok e => exact fun h => by cases h

/-- An accepted round of the verifier. -/
theorem verifyEvent_eq_ok {host : Host} {d : Option String} {event next : Json} :
    verifyEvent host (digest d) event = .ok next ↔
      (isHashChainedRealmEvent event = .ok false ∧ next = digest d) ∨
      (isHashChainedRealmEvent event = .ok true ∧
        ∃ f, Attached host d event f ∧ next = digest (link host d f)) := by
  unfold verifyEvent
  cases hc : isHashChainedRealmEvent event with
  | error e => simp [bind, Except.bind]
  | ok chained =>
    cases chained with
    | false =>
      constructor
      · intro h; exact .inl ⟨rfl, (Except.ok.inj h).symm⟩
      · rintro (⟨-, rfl⟩ | ⟨h, -⟩)
        · rfl
        · cases h
    | true =>
      simp only [ok_bind, Bool.not_true, Bool.false_eq_true, if_false, Except.ok.injEq,
        Bool.true_eq_false, false_and, true_and, false_or]
      constructor
      · intro h
        split at h
        · exact absurd h throw_sequenceError_ne_ok
        · next hprev =>
          obtain ⟨hash, hhash, h⟩ := bind_eq_ok.mp h
          split at h
          · exact absurd h throw_sequenceError_ne_ok
          · next hcur =>
            obtain ⟨id, hid, h⟩ := bind_eq_ok.mp h
            split at h
            · exact absurd h throw_sequenceError_ne_ok
            · next hids =>
              obtain ⟨f, hf, rfl⟩ := calculateRealmEventHash_eq_ok.mp hhash
              simp only [Bool.not_eq_true', Bool.not_eq_false, Bool.or_eq_true, not_or,
                strictEq_digest_iff, strictEq_str_iff] at hprev hcur hids
              exact ⟨f, ⟨hf, hprev, hcur, id, hid, hids⟩, (Except.ok.inj h).symm⟩
      · rintro ⟨f, ⟨hf, hprev, hcur, id, hid, hevent, hown⟩, rfl⟩
        rw [if_neg (by rw [hprev]; simp [strictEq_digest_iff])]
        rw [calculateRealmEventHash_eq_ok.mpr ⟨f, hf, rfl⟩, ok_bind, if_neg, hid, ok_bind, if_neg]
        · rfl
        · simp [hevent, hown]
        · simp [hcur, digest, link]

/-- The verifier accepts exactly the logs whose chained events link up. -/
theorem verifyFrom_eq_ok {host : Host} {d : Option String} {log : List Json} {next : Json} :
    verifyFrom host (digest d) log = .ok next ↔
      ∃ fs, Chain host d log fs ∧ next = digest (HashChain.head (link host) d fs) := by
  induction log generalizing d with
  | nil =>
    constructor
    · intro h; exact ⟨[], .nil d, (Except.ok.inj h).symm⟩
    · rintro ⟨fs, hc, rfl⟩; cases hc; rfl
  | cons event log ih =>
    unfold verifyFrom
    constructor
    · intro h
      obtain ⟨m, hm, h⟩ := bind_eq_ok.mp h
      rcases verifyEvent_eq_ok.mp hm with ⟨hskip, rfl⟩ | ⟨hchained, f, hf, rfl⟩
      · obtain ⟨fs, hfs, rfl⟩ := ih.mp h
        exact ⟨fs, .skip hskip hfs, rfl⟩
      · obtain ⟨fs, hfs, rfl⟩ := ih.mp h
        exact ⟨f :: fs, .link hchained hf hfs, rfl⟩
    · rintro ⟨fs, hc, rfl⟩
      cases hc with
      | skip hskip hfs =>
        rw [verifyEvent_eq_ok.mpr (.inl ⟨hskip, rfl⟩), ok_bind]
        exact ih.mpr ⟨fs, hfs, rfl⟩
      | link hchained hf hfs =>
        rw [verifyEvent_eq_ok.mpr (.inr ⟨hchained, _, hf, rfl⟩), ok_bind]
        exact ih.mpr ⟨_, hfs, rfl⟩

theorem verifyRealmEventHistory_eq_ok {host : Host} {log : List Json} :
    verifyRealmEventHistory host log = .ok true ↔ ∃ fs, Chain host none log fs := by
  unfold verifyRealmEventHistory
  constructor
  · intro h
    obtain ⟨next, hnext, -⟩ := map_eq_ok.mp h
    obtain ⟨fs, hfs, -⟩ := verifyFrom_eq_ok (d := none).mp hnext
    exact ⟨fs, hfs⟩
  · rintro ⟨fs, hfs⟩
    exact map_eq_ok.mpr ⟨_, verifyFrom_eq_ok (d := none).mpr ⟨fs, hfs, rfl⟩, rfl⟩

namespace Chain

variable {host : Host} {d : Option String} {log : List Json} {fs : List HashedFields}

theorem append {log' : List Json} {fs' : List HashedFields} (h : Chain host d log fs)
    (h' : Chain host (HashChain.head (Realm.link host) d fs) log' fs') :
    Chain host d (log ++ log') (fs ++ fs') := by
  induction h with
  | nil d => exact h'
  | skip hskip _ ih => exact .skip hskip (ih h')
  | link hchained hf _ ih => exact .link hchained hf (ih h')

theorem of_append {log' : List Json} {gs : List HashedFields} (h : Chain host d (log ++ log') gs) :
    ∃ fs fs', gs = fs ++ fs' ∧ Chain host d log fs ∧
      Chain host (HashChain.head (Realm.link host) d fs) log' fs' := by
  induction log generalizing d gs with
  | nil => exact ⟨[], gs, rfl, .nil d, h⟩
  | cons event log ih =>
    cases h with
    | skip hskip h =>
      obtain ⟨fs, fs', rfl, hfs, hfs'⟩ := ih h
      exact ⟨fs, fs', rfl, .skip hskip hfs, hfs'⟩
    | link hchained hf h =>
      obtain ⟨fs, fs', rfl, hfs, hfs'⟩ := ih h
      exact ⟨_ :: fs, fs', rfl, .link hchained hf hfs, hfs'⟩

/-- Two chains of one log from one digest have the same fields. -/
theorem unique {gs : List HashedFields} (h : Chain host d log fs) (h' : Chain host d log gs) :
    fs = gs := by
  induction h generalizing gs with
  | nil d => cases h'; rfl
  | skip hskip _ ih =>
    cases h' with
    | skip _ h' => exact ih h'
    | link hchained _ _ => rw [hskip] at hchained; cases hchained
  | link hchained hf _ ih =>
    cases h' with
    | skip hskip _ => rw [hskip] at hchained; cases hchained
    | link _ hg h' =>
      cases Except.ok.inj (hf.hashed.symm.trans hg.hashed)
      rw [ih h']

end Chain

theorem latestRealmEventHash_append_singleton (log : List Json) (event : Json) :
    latestRealmEventHash (log ++ [event]) = (do
      if ← isHashChainedRealmEvent event then return orNull (event.prop "current_event_hash")
      else latestRealmEventHash log) := by
  simp [latestRealmEventHash, latestHashFrom]

@[simp] theorem link_ne_none (host : Host) (d : Option String) (f : HashedFields) :
    link host d f ≠ none := by simp [link]

theorem orNull_digest_link (host : Host) (d : Option String) (f : HashedFields) :
    orNull (some (digest (link host d f))) = digest (link host d f) := by
  simp only [link, digest]
  exact orNull_str (host.sha256_ne_empty _)

/-- The last link of a verified log is its latest hash. -/
theorem Chain.latest {host : Host} {log : List Json} {fs : List HashedFields}
    (h : Chain host none log fs) :
    latestRealmEventHash log = .ok (digest (HashChain.head (Realm.link host) none fs)) := by
  induction log using List.reverseRecOn generalizing fs with
  | nil => cases h; rfl
  | append_singleton log event ih =>
    obtain ⟨fs, fs', rfl, hfs, hlast⟩ := h.of_append
    rw [latestRealmEventHash_append_singleton]
    cases hlast with
    | skip hskip hnil =>
      cases hnil
      rw [hskip, ok_bind, List.append_nil]
      exact ih hfs
    | link hchained hf hnil =>
      cases hnil
      rw [hchained, ok_bind, HashChain.head_snoc, hf.current]
      exact congrArg _ (orNull_digest_link ..)

end SimpleL1.Realm
