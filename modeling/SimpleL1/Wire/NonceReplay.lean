import SimpleL1.Wire.Verifier

/-!
# A signed proof is accepted once

The signature covers the normalized proof and, through the request hash, the normalized
request; the nonce key is made of the fields as they come. Two accepted calls with one
signature have one nonce key if those fields are in normal form in both: `accepted_once`.
-/

namespace SimpleL1.Wire

open SimpleL1.Js

variable {n : Nfc}

/-! ## Reads of what is written -/

theorem lookup_sortKeys {α : Type} (k : String) (fs : List (String × α)) :
    (sortKeys fs).lookup k = fs.lookup k :=
  lookup_insertionSort (fun a b => compareKeys a b ≤ 0) (fun k => (compareKeys_self k).le) k fs

theorem lookup_map_values {α β : Type} (f : α → β) (k : String) (fs : List (String × α)) :
    (fs.map fun p => (p.1, f p.2)).lookup k = (fs.lookup k).map f := by
  induction fs with
  | nil => rfl
  | cons p fs ih =>
    rw [List.map_cons, List.lookup_cons, List.lookup_cons, ih]
    split <;> rfl

theorem lookup_filter_keys {α : Type} (keep : String → Bool) {k : String} (hk : keep k = true)
    (fs : List (String × α)) : (fs.filter fun p => keep p.1).lookup k = fs.lookup k := by
  induction fs with
  | nil => rfl
  | cons p fs ih =>
    rw [List.filter_cons, List.lookup_cons]
    by_cases h : k = p.1
    · subst h
      rw [if_pos hk, List.lookup_cons]
      simp
    · have hne : (k == p.1) = false := beq_false_of_ne h
      split
      · rw [List.lookup_cons, hne]
        exact ih
      · rw [hne]
        exact ih

/-- The name is its own normal form, and no other key of the object has it. -/
def Named (n : Nfc) (name : String) (v : Json) : Prop :=
  ∀ fs, v = .obj fs → ∀ k ∈ keysOf fs, n.normal k = name ↔ k = name

/-- Every key and string inside is its own normal form. -/
def Normal (n : Nfc) (v : Json) : Prop := normalized n v = v

theorem normal_arr {xs : List Json} (h : Normal n (.arr xs)) : ∀ x ∈ xs, Normal n x := by
  unfold Normal at h
  rw [normalized, normalizedList_eq_map] at h
  exact List.map_inj_left.mp ((Json.arr.inj h).trans (List.map_id xs).symm)

theorem named_of_normal {v : Json} (h : Normal n v) (name : String) : Named n name v := by
  rintro fs rfl k hk
  unfold Normal at h
  rw [normalized, normalizedFields_eq_map] at h
  obtain ⟨p, hp, rfl⟩ := List.mem_map.mp hk
  have hkey : n.normal p.1 = p.1 :=
    congrArg Prod.fst (List.map_inj_left.mp ((Json.obj.inj h).trans (List.map_id fs).symm) p hp)
  rw [hkey]

theorem lookup_map_normal {k : String} {fs : List (String × Json)}
    (h : ∀ p ∈ fs, n.normal p.1 = k ↔ p.1 = k) :
    (fs.map fun p => (n.normal p.1, wire n p.2)).lookup k = (fs.lookup k).map (wire n) := by
  induction fs with
  | nil => rfl
  | cons p fs ih =>
    have hkey : (k == n.normal p.1) = (k == p.1) := by
      rw [Bool.eq_iff_iff, beq_iff_eq, beq_iff_eq, eq_comm, h p List.mem_cons_self, eq_comm]
    rw [List.map_cons, List.lookup_cons, List.lookup_cons, hkey,
      ih fun q hq => h q (List.mem_cons_of_mem p hq)]
    split <;> rfl

theorem prop_wire {v : Json} {k : String} (h : Named n k v) :
    (wire n v).prop k = (v.prop k).map (wire n) := by
  cases v with
  | obj fs =>
    have hkeys : ∀ p ∈ sortKeys fs, n.normal p.1 = k ↔ p.1 = k := fun p hp =>
      h fs rfl p.1 (List.mem_map_of_mem ((perm_sortKeys fs).mem_iff.mp hp))
    rw [wire_obj, Json.prop_obj, Fields.get, lookup_map_normal hkeys, lookup_sortKeys]
    rfl
  | _ => rfl

theorem truthy_wire {v : Json} (h : Normal n v) : (wire n v).truthy = v.truthy := by
  cases v with
  | str s =>
    have hs : n.normal s = s := Json.str.inj h
    rw [wire, hs]
  | _ => rfl

theorem elemStrs_cons (x : Json) (xs : List Json) : Json.elemStrs (x :: xs) = (do
    let s ← joined (some x)
    let ss ← Json.elemStrs xs
    .ok (s :: ss)) := by
  cases x with
  | null =>
    rw [Json.elemStrs]
    cases Json.elemStrs xs <;> rfl
  | _ => rfl

theorem joined_wire {v : Json} (h : (wire n v).toStr = v.toStr) :
    joined (some (wire n v)) = joined (some v) := by
  cases v <;> first | rfl | exact h

/-- Normalization does not change the text of a value in normal form. -/
theorem toStr_wire {v : Json} : Normal n v → (wire n v).toStr = v.toStr := by
  induction v using by_parts with
  | hstr s =>
    intro h
    have hs : n.normal s = s := Json.str.inj h
    rw [wire, hs]
  | harr xs ih =>
    intro h
    have hxs := normal_arr h
    have helems : ∀ ys : List Json, (∀ y ∈ ys, (wire n y).toStr = y.toStr) →
        Json.elemStrs (ys.map (wire n)) = Json.elemStrs ys := by
      intro ys hys
      induction ys with
      | nil => rfl
      | cons y ys ihy =>
        rw [List.map_cons, elemStrs_cons, elemStrs_cons, ihy fun z hz => hys z (List.mem_cons_of_mem y hz),
          joined_wire (hys y List.mem_cons_self)]
    rw [wire, wireList_eq_map, Json.toStr, Json.toStr, helems xs fun x hx => ih x hx (hxs x hx)]
  | hobj fs ih =>
    intro h
    have hprop := prop_wire (named_of_normal h "toString")
    rw [wire_obj] at hprop ⊢
    have hown : Json.hasOwnToString ((sortKeys fs).map fun p => (n.normal p.1, wire n p.2)) =
        Json.hasOwnToString fs := by
      unfold Json.hasOwnToString
      rw [← Json.prop_obj, hprop, Option.isSome_map]
      rfl
    rw [Json.toStr, Json.toStr, hown]
  | _ => exact fun _ => rfl

/-- Values in normal form that are written alike are joined alike. -/
theorem joined_congr {a b : Option Json} (ha : ∀ v, a = some v → Normal n v)
    (hb : ∀ v, b = some v → Normal n v) (h : a.map (wire n) = b.map (wire n)) :
    joined a = joined b := by
  have hwire : ∀ {a : Option Json}, (∀ v, a = some v → Normal n v) → joined (a.map (wire n)) = joined a := by
    intro a ha
    cases a with
    | none => rfl
    | some v => exact joined_wire (toStr_wire (ha v rfl))
  rw [← hwire ha, h, hwire hb]

/-! ## One signature, one key -/

/-- The fields of the proof that are in the nonce key. -/
def nonceNames : List String :=
  ["identity", "key", "capability_id", "state_root", "request_hash", "nonce"]

/-- What goes into the nonce key is in normal form, and no other field is normalized to its name. -/
structure Plain (n : Nfc) (proof request : Json) : Prop where
  proofKeys : ∀ name ∈ nonceNames, Named n name proof
  proofFields : ∀ name ∈ nonceNames, ∀ v, proof.prop name = some v → Normal n v
  requestKeys : Named n "context" request
  contextKeys : ∀ c, request.prop "context" = some c → Named n "client_id" c
  clientId : ∀ v, field (request.prop "context") "client_id" = some v → Normal n v

/-- The two values are written alike. -/
def Alike (n : Nfc) (v w : Json) : Prop := wire n v = wire n w

theorem Alike.prop {v w : Json} {k : String} (h : Alike n v w) (hv : Named n k v) (hw : Named n k w) :
    (v.prop k).map (wire n) = (w.prop k).map (wire n) := by
  rw [← prop_wire hv, h, prop_wire hw]

theorem truthy_congr {a b : Option Json} (ha : ∀ v, a = some v → Normal n v)
    (hb : ∀ v, b = some v → Normal n v) (h : a.map (wire n) = b.map (wire n)) :
    Js.truthy a = Js.truthy b := by
  have hwire : ∀ {a : Option Json}, (∀ v, a = some v → Normal n v) →
      Js.truthy (a.map (wire n)) = Js.truthy a := by
    intro a ha
    cases a with
    | none => rfl
    | some v => exact truthy_wire (ha v rfl)
  rw [← hwire ha, h, hwire hb]

theorem joined_or_congr {a b : Option Json} (ha : ∀ v, a = some v → Normal n v)
    (hb : ∀ v, b = some v → Normal n v) (h : a.map (wire n) = b.map (wire n)) :
    joined (Js.or a (some (.str ""))) = joined (Js.or b (some (.str ""))) := by
  unfold Js.or
  rw [truthy_congr ha hb h]
  split
  · exact joined_congr ha hb h
  · rfl

theorem clientId_congr {r r' : Json} {p p' : Json} (hr : Plain n p r) (hr' : Plain n p' r')
    (h : Alike n r r') : joined (clientId r) = joined (clientId r') := by
  have hcontext := h.prop hr.requestKeys hr'.requestKeys
  have hfield : (field (r.prop "context") "client_id").map (wire n) =
      (field (r'.prop "context") "client_id").map (wire n) := by
    cases hc : r.prop "context" with
    | none =>
      rw [hc] at hcontext
      rw [Option.map_eq_none_iff.mp hcontext.symm]
    | some c =>
      rw [hc] at hcontext
      obtain ⟨c', hc', heq⟩ := Option.map_eq_some_iff.mp hcontext.symm
      rw [hc']
      exact Alike.prop heq.symm (hr.contextKeys c hc) (hr'.contextKeys c' hc')
  exact joined_or_congr hr.clientId hr'.clientId hfield

/-- What is signed of a proof. -/
def unsigned (fs : Fields) : Json := .obj (fs.filter fun p => p.1 ≠ "signature" ∧ p.1 ≠ "__proto__")

theorem prop_unsigned (fs : Fields) {k : String} (h : k ≠ "signature" ∧ k ≠ "__proto__") :
    (unsigned fs).prop k = (Json.obj fs).prop k :=
  lookup_filter_keys (fun k => decide (k ≠ "signature" ∧ k ≠ "__proto__")) (by simpa using h) fs

theorem named_unsigned {fs : Fields} {name : String} (h : Named n name (.obj fs)) :
    Named n name (unsigned fs) := by
  intro gs hgs k hk
  cases hgs
  obtain ⟨p, hp, rfl⟩ := List.mem_map.mp hk
  exact h fs rfl p.1 (List.mem_map_of_mem (List.mem_of_mem_filter hp))

theorem joined_unsigned_congr {fs fs' : Fields} {r r' : Json} (hp : Plain n (.obj fs) r)
    (hp' : Plain n (.obj fs') r') (hproof : Alike n (unsigned fs) (unsigned fs')) {name : String}
    (hname : name ∈ nonceNames) :
    joined ((Json.obj fs).prop name) = joined ((Json.obj fs').prop name) := by
  have hne : name ≠ "signature" ∧ name ≠ "__proto__" := by
    revert name
    decide
  have heq := hproof.prop (named_unsigned (hp.proofKeys name hname)) (named_unsigned (hp'.proofKeys name hname))
  rw [prop_unsigned fs hne, prop_unsigned fs' hne] at heq
  exact joined_congr (hp.proofFields name hname) (hp'.proofFields name hname) heq

/-- Proofs and requests that are written alike have one nonce key. -/
theorem buildNonceKey_congr {fs fs' : Fields} {r r' : Json} (hp : Plain n (.obj fs) r)
    (hp' : Plain n (.obj fs') r') (hproof : Alike n (unsigned fs) (unsigned fs')) (hrequest : Alike n r r') :
    buildNonceKey (.obj fs) r = buildNonceKey (.obj fs') r' := by
  have hname : ∀ name ∈ nonceNames, joined ((Json.obj fs).prop name) = joined ((Json.obj fs').prop name) :=
    fun _ => joined_unsigned_congr hp hp' hproof
  unfold buildNonceKey nonceFields
  simp only [List.mapM_cons, List.mapM_nil]
  rw [hname "identity" (by decide), hname "key" (by decide), clientId_congr hp hp' hrequest,
    hname "capability_id" (by decide), hname "state_root" (by decide), hname "request_hash" (by decide),
    hname "nonce" (by decide)]

/-! ## What an accepted call has passed -/

variable {h : Host} {input : Input} {passed : Passed} {store : List String}

theorem fromJs_eq_ok {α : Type} {x : JsM α} {a : α} : fromJs x = .ok a ↔ x = .ok a := by
  cases x with
  | error e => exact ⟨(fun h => by cases h), fun h => by cases h⟩
  | ok b => exact ⟨fun h => by cases h; rfl, fun h => by cases h; rfl⟩

theorem check_bind_eq_ok {α β : Type} {x : Check α} {f : α → Check β} {b : β} :
    x >>= f = .ok b ↔ ∃ a, x = .ok a ∧ f a = .ok b := by
  cases x with
  | error e => exact ⟨(fun h => by cases h), fun ⟨_, h, _⟩ => by cases h⟩
  | ok a => exact ⟨fun h => ⟨a, rfl, h⟩, fun ⟨_, h, hf⟩ => by cases h; exact hf⟩

theorem rejectUnless_bind_eq_ok {α : Type} {c : Bool} {code : FailureCode} {trace : List String}
    {f : Unit → Check α} {a : α} :
    rejectUnless c code trace >>= f = .ok a ↔ c = true ∧ f () = .ok a := by
  cases c with
  | false => exact ⟨(fun h => by cases h), fun h => by cases h.1⟩
  | true => exact ⟨fun h => ⟨rfl, h⟩, fun h => h.2⟩

theorem rejectUnless_eq_ok {c : Bool} {code : FailureCode} {trace : List String} {u : Unit} :
    rejectUnless c code trace = .ok u ↔ c = true := by
  cases c with
  | false => exact ⟨(fun h => by cases h), fun h => by cases h⟩
  | true => exact ⟨fun _ => rfl, fun _ => rfl⟩

/-- The signature is the hash of the proof without it. -/
theorem signature_of_valid {fs : Fields} (hvalid : fixtureSignatureIsValid h (.obj fs) = .ok true) :
    ∃ text, canonicalJson h.toNfc (unsigned fs) = .ok text ∧
      (Json.obj fs).prop "signature" = some (.str ("fixture:" ++ sha256Tagged h text)) := by
  obtain ⟨u, hu, hvalid⟩ := bind_eq_ok.mp hvalid
  cases hu
  obtain ⟨hash, hhash, hvalid⟩ := bind_eq_ok.mp hvalid
  obtain ⟨text, htext, hhash⟩ := bind_eq_ok.mp hhash
  cases hhash
  exact ⟨text, htext, strictEq_str_iff.mp (Except.ok.inj hvalid)⟩

/-- What the checks say of the proof and the request of a call they let through. -/
structure Bound (h : Host) (input : Input) (fs : Fields) (request : Json) (passed : Passed) : Prop where
  proof_eq : input.proof = some (.obj fs)
  request_eq : input.request = some request
  signed : ∃ text, canonicalJson h.toNfc (unsigned fs) = .ok text ∧
    (Json.obj fs).prop "signature" = some (.str ("fixture:" ++ sha256Tagged h text))
  requested : ∃ text, canonicalJson h.toNfc request = .ok text ∧
    (Json.obj fs).prop "request_hash" = some (.str (sha256Tagged h text))
  key : buildNonceKey (.obj fs) request = .ok passed.nonceKey

theorem canonicalParts_eq_ok {proof request : Json} (hparts : canonicalParts h input = .ok (proof, request)) :
    (∃ fs, proof = .obj fs) ∧ input.proof = some proof ∧ input.request = some request := by
  unfold canonicalParts at hparts
  dsimp only at hparts
  split at hparts
  · next text text' hp hr =>
    cases hparts
    obtain ⟨⟨fs, hfs⟩, -⟩ := canonicalJson_eq_ok.mp hp
    obtain ⟨⟨gs, hgs⟩, -⟩ := canonicalJson_eq_ok.mp hr
    refine ⟨⟨fs, hfs⟩, ?_, ?_⟩
    · cases hin : input.proof with
      | none => rw [hin] at hfs; cases hfs
      | some v => rfl
    · cases hin : input.request with
      | none => rw [hin] at hgs; cases hgs
      | some v => rfl
  · cases hparts

theorem valid_of_checkSignature {proof : Json} {context : Option Json} {u : Unit}
    (hcheck : checkSignature h proof context = .ok u) : fixtureSignatureIsValid h proof = .ok true := by
  obtain ⟨-, hcheck⟩ := rejectUnless_bind_eq_ok.mp hcheck
  obtain ⟨-, hcheck⟩ := rejectUnless_bind_eq_ok.mp hcheck
  obtain ⟨ruleset, -, hcheck⟩ := check_bind_eq_ok.mp hcheck
  obtain ⟨-, hcheck⟩ := rejectUnless_bind_eq_ok.mp hcheck
  obtain ⟨canonicalization, -, hcheck⟩ := check_bind_eq_ok.mp hcheck
  obtain ⟨-, hcheck⟩ := rejectUnless_bind_eq_ok.mp hcheck
  obtain ⟨valid, hvalid, hcheck⟩ := check_bind_eq_ok.mp hcheck
  rw [fromJs_eq_ok.mp hvalid, rejectUnless_eq_ok.mp hcheck]

theorem requested_of_checkRequest {proof request : Json} {state : Option Json} {capability : Found}
    {trace : List String} (hcheck : checkRequest h proof request state capability = .ok trace) :
    ∃ text, canonicalJson h.toNfc request = .ok text ∧
      proof.prop "request_hash" = some (.str (sha256Tagged h text)) := by
  obtain ⟨hash, hhash, hcheck⟩ := check_bind_eq_ok.mp hcheck
  obtain ⟨heq, -⟩ := rejectUnless_bind_eq_ok.mp hcheck
  obtain ⟨text, htext, hhash⟩ := bind_eq_ok.mp (fromJs_eq_ok.mp hhash)
  cases hhash
  exact ⟨text, htext, strictEq_str_iff.mp heq⟩

theorem bound_of_checks (hchecks : checks h input = .ok passed) :
    ∃ fs request, Bound h input fs request passed := by
  obtain ⟨⟨proof, request⟩, hparts, hchecks⟩ := check_bind_eq_ok.mp hchecks
  dsimp only at hchecks
  obtain ⟨u, hsignature, hchecks⟩ := check_bind_eq_ok.mp hchecks
  obtain ⟨capability, -, hchecks⟩ := check_bind_eq_ok.mp hchecks
  obtain ⟨trace, hrequest, hchecks⟩ := check_bind_eq_ok.mp hchecks
  obtain ⟨trace', -, hchecks⟩ := check_bind_eq_ok.mp hchecks
  obtain ⟨nonceKey, hkey, hchecks⟩ := check_bind_eq_ok.mp hchecks
  cases hchecks
  obtain ⟨⟨fs, rfl⟩, hproof, hreq⟩ := canonicalParts_eq_ok hparts
  exact ⟨fs, request, hproof, hreq, signature_of_valid (valid_of_checkSignature hsignature),
    requested_of_checkRequest hrequest, fromJs_eq_ok.mp hkey⟩

/-! ## Runs -/

def accepted : JsM Result → Bool
  | .ok (.accept ..) => true
  | _ => false

theorem accepted_verifyProof : accepted (verifyProof h input store).1 = true ↔
    ∃ passed, checks h input = .ok passed ∧ passed.nonceKey ∉ store := by
  unfold verifyProof
  cases hchecks : checks h input with
  | error stop =>
    cases stop <;> exact ⟨nofun, fun ⟨_, hpassed, _⟩ => nomatch hpassed⟩
  | ok passed =>
    by_cases hkey : passed.nonceKey ∈ store
    · dsimp only
      rw [if_pos hkey]
      exact ⟨nofun, fun ⟨_, hpassed, hnew⟩ => by cases hpassed; exact absurd hkey hnew⟩
    · dsimp only
      rw [if_neg hkey]
      exact ⟨fun _ => ⟨passed, rfl, hkey⟩, fun _ => rfl⟩

theorem store_of_accepted (hchecks : checks h input = .ok passed) (hnew : passed.nonceKey ∉ store) :
    (verifyProof h input store).2 = store ++ [passed.nonceKey] := by
  unfold verifyProof
  rw [hchecks]
  dsimp only
  rw [if_neg hnew]

theorem store_of_not_accepted (hnot : accepted (verifyProof h input store).1 = false) :
    (verifyProof h input store).2 = store := by
  unfold verifyProof at hnot ⊢
  cases hchecks : checks h input with
  | error stop => cases stop <;> rfl
  | ok passed =>
    rw [hchecks] at hnot
    dsimp only at hnot ⊢
    by_cases hkey : passed.nonceKey ∈ store
    · rw [if_pos hkey]
    · rw [if_neg hkey] at hnot
      cases hnot

/-- The store after the calls, one after the other. -/
def storeAfter (h : Host) (store : List String) (calls : List Input) : List String :=
  calls.foldl (fun s call => (verifyProof h call s).2) store

theorem subset_verifyProof : store ⊆ (verifyProof h input store).2 := by
  cases hacc : accepted (verifyProof h input store).1 with
  | false => exact fun _ hk => (store_of_not_accepted hacc).symm ▸ hk
  | true =>
    obtain ⟨passed, hchecks, hnew⟩ := accepted_verifyProof.mp hacc
    rw [store_of_accepted hchecks hnew]
    exact List.subset_append_left _ _

theorem subset_storeAfter (calls : List Input) : store ⊆ storeAfter h store calls := by
  induction calls generalizing store with
  | nil => exact fun _ hk => hk
  | cons call calls ih => exact fun k hk => ih (subset_verifyProof hk)

theorem storeAfter_append (pre post : List Input) :
    storeAfter h store (pre ++ post) = storeAfter h (storeAfter h store pre) post :=
  List.foldl_append

/-- The nonce keys of two accepted calls of a run differ. -/
theorem nonceKey_ne {pre mid : List Input} {first : Input} {p q : Passed}
    (hfirst : checks h first = .ok p) (hnew : p.nonceKey ∉ storeAfter h store pre)
    (hsecond : q.nonceKey ∉ storeAfter h store (pre ++ first :: mid)) : p.nonceKey ≠ q.nonceKey := by
  intro heq
  rw [storeAfter_append] at hsecond
  refine hsecond (subset_storeAfter (h := h) mid ?_)
  dsimp only
  rw [store_of_accepted hfirst hnew, ← heq]
  exact List.mem_append_right _ List.mem_cons_self

/-! ## The signature fixes the key -/

theorem text_of_tagged (hinj : Function.Injective h.sha256Hex) {t u : List Char}
    (heq : sha256Tagged h t = sha256Tagged h u) : t = u :=
  hinj ((String.append_right_inj _).mp heq)

theorem alike_of_canonicalJson {v w : Json} {t : List Char} (hv : canonicalJson n v = .ok t)
    (hw : canonicalJson n w = .ok t) : Alike n v w := by
  obtain ⟨-, hsv, htv⟩ := canonicalJson_eq_ok.mp hv
  obtain ⟨-, hsw, htw⟩ := canonicalJson_eq_ok.mp hw
  exact (text_wire_inj hsv hsw).mp (htv.symm.trans htw)

/-- The call's proof and request, if it has them, are plain. -/
def PlainCall (n : Nfc) (input : Input) : Prop :=
  ∀ proof request, input.proof = some proof → input.request = some request → Plain n proof request

def signatureOf (input : Input) : Option Json := field input.proof "signature"

theorem nonceKey_eq {first second : Input} {fs gs : Fields} {r r' : Json} {p q : Passed}
    (hinj : Function.Injective h.sha256Hex) (hfirst : Bound h first fs r p)
    (hsecond : Bound h second gs r' q) (hplain : Plain h.toNfc (.obj fs) r)
    (hplain' : Plain h.toNfc (.obj gs) r')
    (hsignature : (Json.obj fs).prop "signature" = (Json.obj gs).prop "signature") :
    p.nonceKey = q.nonceKey := by
  obtain ⟨t, ht, hsigned⟩ := hfirst.signed
  obtain ⟨u, hu, hsigned'⟩ := hsecond.signed
  have hproof : Alike h.toNfc (unsigned fs) (unsigned gs) := by
    rw [hsigned, hsigned'] at hsignature
    have htu := text_of_tagged hinj ((String.append_right_inj _).mp (Json.str.inj (Option.some.inj hsignature)))
    subst htu
    exact alike_of_canonicalJson ht hu
  obtain ⟨t', ht', hrequested⟩ := hfirst.requested
  obtain ⟨u', hu', hrequested'⟩ := hsecond.requested
  have hrequest : Alike h.toNfc r r' := by
    have hname : "request_hash" ∈ nonceNames := by decide
    have hne : "request_hash" ≠ "signature" ∧ "request_hash" ≠ "__proto__" := by decide
    have heq := hproof.prop (named_unsigned (hplain.proofKeys _ hname))
      (named_unsigned (hplain'.proofKeys _ hname))
    rw [prop_unsigned fs hne, prop_unsigned gs hne, hrequested, hrequested'] at heq
    have hnormal := Json.str.inj (hplain.proofFields _ hname _ hrequested)
    have hnormal' := Json.str.inj (hplain'.proofFields _ hname _ hrequested')
    have htu := Json.str.inj (Option.some.inj heq)
    rw [hnormal, hnormal'] at htu
    have htexts := text_of_tagged hinj htu
    subst htexts
    exact alike_of_canonicalJson ht' hu'
  exact Except.ok.inj (hfirst.key.symm.trans
    ((buildNonceKey_congr hplain hplain' hproof hrequest).trans hsecond.key))

/-- A call that is not accepted leaves the store; of the plain calls of a run that are accepted, no
two have one signature. -/
theorem accepted_once (h : Host) (hinj : Function.Injective h.sha256Hex) :
    (∀ input store, accepted (verifyProof h input store).1 = false → (verifyProof h input store).2 = store) ∧
    ∀ store pre first mid second, PlainCall h.toNfc first → PlainCall h.toNfc second →
      accepted (verifyProof h first (storeAfter h store pre)).1 = true →
      accepted (verifyProof h second (storeAfter h store (pre ++ first :: mid))).1 = true →
      signatureOf first ≠ signatureOf second := by
  refine ⟨fun input store => store_of_not_accepted, ?_⟩
  intro store pre first mid second hplain hplain' hfirst hsecond hsignature
  obtain ⟨p, hchecks, hnew⟩ := accepted_verifyProof.mp hfirst
  obtain ⟨q, hchecks', hnew'⟩ := accepted_verifyProof.mp hsecond
  obtain ⟨fs, r, hbound⟩ := bound_of_checks hchecks
  obtain ⟨gs, r', hbound'⟩ := bound_of_checks hchecks'
  unfold signatureOf at hsignature
  rw [hbound.proof_eq, hbound'.proof_eq] at hsignature
  exact nonceKey_ne hchecks hnew hnew' (nonceKey_eq hinj hbound hbound'
    (hplain _ _ hbound.proof_eq hbound.request_eq) (hplain' _ _ hbound'.proof_eq hbound'.request_eq)
    hsignature)

/-! ## Two spellings of one nonce -/

/-- Texts are their own hashes, and three moments of one minute have times. -/
def plainHost : Host where
  toNfc := composing
  sha256Hex := String.ofList
  parseDate s :=
    if s = "2026-01-01T00:00:00Z" then .int 1767225600000
    else if s = "2026-01-01T00:00:30Z" then .int 1767225630000
    else if s = "2026-01-01T00:01:00Z" then .int 1767225660000
    else .nan
  inherits _ _ := false

def loginRequest : Json :=
  .obj [("intent_type", .str "LOGIN"),
    ("context", .obj [("client_id", .str "client"), ("request_host", .str "host")])]

def loginFields (nonce : String) : Fields :=
  [("type", .str "sl1.proof.v1"), ("identity", .str "alice"), ("key", .str "phone"),
    ("capability_id", .str "login"), ("state_root", .str "root"), ("ruleset_hash", .str "rules"),
    ("canonicalization_hash", .str "canon"),
    ("request_hash", .str (sha256Tagged plainHost (wire composing loginRequest).text)),
    ("nonce", .str nonce), ("issued_at", .str "2026-01-01T00:00:00Z"),
    ("expires_at", .str "2026-01-01T00:01:00Z")]

def loginProof (nonce : String) : Fields :=
  loginFields nonce ++ [("signature",
    .str ("fixture:" ++ sha256Tagged plainHost (wire composing (.obj (loginFields nonce))).text))]

def loginCapability : Json :=
  .obj [("id", .str "login"), ("state", .str "active"), ("subject", .str "phone"),
    ("client_id", .str "client"), ("request_host", .str "host"), ("intent_type", .str "LOGIN"),
    ("policy_id", .str "policy")]

def loginState : Json :=
  .obj [("root", .str "root"),
    ("devices", .obj [("phone", .obj [("identity", .str "alice"), ("state", .str "active")])]),
    ("capabilities", .obj [("login", loginCapability)]),
    ("policies", .obj [("policy", .obj [("state", .str "active"), ("operator", .str "CAP"),
      ("capability_id", .str "login")])])]

def loginContext : Json :=
  .obj [("trusted_rulesets", .arr [.str "rules"]), ("trusted_canonicalizations", .arr [.str "canon"]),
    ("now", .str "2026-01-01T00:00:30Z"), ("max_proof_ttl_seconds", .num (.int 60))]

def login (nonce : String) : Input where
  proof := some (.obj (loginProof nonce))
  request := some loginRequest
  state := some loginState
  verifier_context := some loginContext

theorem canonicalJson_obj {fs : Fields} (hs : supported (.obj fs) = true) :
    canonicalJson n (.obj fs) = .ok (wire n (.obj fs)).text :=
  canonicalJson_eq_ok.mpr ⟨⟨fs, rfl⟩, hs, rfl⟩

theorem parts_login (nonce : String) :
    canonicalParts plainHost (login nonce) = .ok (.obj (loginProof nonce), loginRequest) := by
  have hproof : canonicalJson plainHost.toNfc (.obj (loginProof nonce)) = .ok _ := canonicalJson_obj (by rfl)
  have hrequest : canonicalJson plainHost.toNfc loginRequest = .ok _ := canonicalJson_obj (by rfl)
  unfold canonicalParts login
  dsimp only [Option.getD_some]
  rw [hproof, hrequest]

theorem signed_login (nonce : String) :
    fixtureSignatureIsValid plainHost (.obj (loginProof nonce)) = .ok true := by
  have hunsigned : withoutSignature (.obj (loginProof nonce)) = .ok (.obj (loginFields nonce)) := by rfl
  have htext : canonicalJson plainHost.toNfc (.obj (loginFields nonce)) = .ok _ := canonicalJson_obj (by rfl)
  unfold fixtureSignatureIsValid objectHash
  rw [hunsigned]
  dsimp only [bind, Except.bind]
  rw [htext]
  exact congrArg Except.ok (strictEq_str_iff.mpr rfl)

theorem checkSignature_login (nonce : String) :
    checkSignature plainHost (.obj (loginProof nonce)) (some loginContext) = .ok () := by
  unfold checkSignature
  rw [signed_login]
  rfl

theorem checkState_login (nonce : String) :
    checkState plainHost (.obj (loginProof nonce)) loginRequest (some loginState) = .ok (.own loginCapability) := by
  rfl

theorem checkRequest_login (nonce : String) : checkRequest plainHost (.obj (loginProof nonce)) loginRequest
    (some loginState) (.own loginCapability) = .ok
      ["RULESET_OK", "SIGNATURE_OK", "STATE_ROOT_OK", "DEVICE_OK", "CAPABILITY_OK", "REQUEST_OK", "CAP(login)"] := by
  have hrequest : canonicalJson plainHost.toNfc loginRequest = .ok _ := canonicalJson_obj (by rfl)
  unfold checkRequest objectHash
  rw [hrequest]
  rfl

theorem checkTime_login (nonce : String) (trace : List String) :
    checkTime plainHost (.obj (loginProof nonce)) (some loginState) (some loginContext) trace = .ok
      (trace ++ ["TIME_OK"] ++ ["FRESHNESS_OK"]) := by
  rfl

theorem nonceKey_login : ∃ pre, ∀ nonce,
    buildNonceKey (.obj (loginProof nonce)) loginRequest = .ok (pre ++ nonce) :=
  ⟨_, fun _ => rfl⟩

theorem checks_login : ∃ pre trace, ∀ nonce, checks plainHost (login nonce) =
    .ok { proof := .obj (loginProof nonce), nonceKey := pre ++ nonce, trace } := by
  obtain ⟨pre, hpre⟩ := nonceKey_login
  refine ⟨pre, ["RULESET_OK", "SIGNATURE_OK", "STATE_ROOT_OK", "DEVICE_OK", "CAPABILITY_OK", "REQUEST_OK",
    "CAP(login)", "TIME_OK", "FRESHNESS_OK"], fun nonce => ?_⟩
  refine check_bind_eq_ok.mpr ⟨_, parts_login nonce, ?_⟩
  refine check_bind_eq_ok.mpr ⟨_, checkSignature_login nonce, ?_⟩
  refine check_bind_eq_ok.mpr ⟨_, checkState_login nonce, ?_⟩
  refine check_bind_eq_ok.mpr ⟨_, checkRequest_login nonce, ?_⟩
  refine check_bind_eq_ok.mpr ⟨_, checkTime_login nonce _, ?_⟩
  exact check_bind_eq_ok.mpr ⟨_, fromJs_eq_ok.mpr (hpre nonce), rfl⟩

/-- Logins with different nonces are accepted one after the other. -/
theorem accepted_login (first second : String) (hne : first ≠ second) :
    accepted (verifyProof plainHost (login first) []).1 = true ∧
    accepted (verifyProof plainHost (login second) (storeAfter plainHost [] [login first])).1 = true := by
  obtain ⟨pre, trace, hpre⟩ := checks_login
  have hp := hpre first
  have hq := hpre second
  refine ⟨accepted_verifyProof.mpr ⟨_, hp, List.not_mem_nil⟩,
    accepted_verifyProof.mpr ⟨_, hq, fun hmem => hne ?_⟩⟩
  unfold storeAfter at hmem
  rw [List.foldl_cons, List.foldl_nil, store_of_accepted hp List.not_mem_nil] at hmem
  exact ((String.append_right_inj pre).mp (List.mem_singleton.mp hmem)).symm

theorem composing_normal {s : String} (h : s ≠ "e\u0301") : composing.normal s = s := if_neg h

theorem plain_loginFields {nonce : String} (hnonce : composing.normal nonce = nonce) :
    ∀ name ∈ nonceNames, ∃ s, (Json.obj (loginProof nonce)).prop name = some (.str s) ∧ composing.normal s = s := by
  have hhash : sha256Tagged plainHost (wire composing loginRequest).text ≠ "e\u0301" := by decide
  unfold nonceNames
  simp only [List.forall_mem_cons]
  refine ⟨⟨_, rfl, rfl⟩, ⟨_, rfl, rfl⟩, ⟨_, rfl, rfl⟩, ⟨_, rfl, rfl⟩,
    ⟨_, rfl, composing_normal hhash⟩, ⟨_, rfl, hnonce⟩, nofun⟩

theorem keysOf_loginProof (nonce : String) : keysOf (loginProof nonce) =
    ["type", "identity", "key", "capability_id", "state_root", "ruleset_hash", "canonicalization_hash",
      "request_hash", "nonce", "issued_at", "expires_at", "signature"] :=
  rfl

theorem plain_login {nonce : String} (hnonce : composing.normal nonce = nonce) :
    PlainCall composing (login nonce) := by
  rintro _ _ ⟨⟩ ⟨⟩
  refine ⟨?_, ?_, ?_, ?_, ?_⟩
  · rintro name hname fs ⟨⟩
    rw [keysOf_loginProof]
    revert name
    decide
  · intro name hname v hv
    obtain ⟨s, hs, hnormal⟩ := plain_loginFields hnonce name hname
    rw [hs] at hv
    cases hv
    exact congrArg Json.str hnormal
  · rintro fs ⟨⟩
    decide
  · rintro c ⟨⟩ fs ⟨⟩
    decide
  · rintro v ⟨⟩
    rfl

theorem logins_signed_apart : signatureOf (login "n1") ≠ signatureOf (login "n2") :=
  have h := accepted_login "n1" "n2" (by decide)
  (accepted_once plainHost fun _ _ => String.ofList_inj.mp).2 [] [] (login "n1") [] (login "n2")
    (plain_login rfl) (plain_login rfl) h.1 h.2

/-- The nonce spelled in two ways: one signature, two keys. -/
theorem respelled_nonce_accepted : ¬ ∀ (h : Host) (store : List String) (pre mid : List Input)
    (first second : Input), Function.Injective h.sha256Hex →
      accepted (verifyProof h first (storeAfter h store pre)).1 = true →
      accepted (verifyProof h second (storeAfter h store (pre ++ first :: mid))).1 = true →
      signatureOf first ≠ signatureOf second := by
  intro hall
  have h := accepted_login "e\u0301" "\u00e9" (by decide)
  exact hall plainHost [] [] [] _ _ (fun _ _ => String.ofList_inj.mp) h.1 h.2 rfl

end SimpleL1.Wire
