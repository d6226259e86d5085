import SimpleL1.Js.Json
import SimpleL1.Lib.Assoc
import Mathlib

/-!
# The runtime store

`MemoryConnectRuntimeStore`: ten maps of records that may expire. Whoever meets an expired record
deletes it. The clock is read anew at every such test, so the store carries the number of readings
there have been; an operation may end later than it began.
-/

namespace SimpleL1.Node.RuntimeStore

open SimpleL1.Js SimpleL1.Lib

/-! ## The store -/

/-- The collections; any other name throws `UNKNOWN_CONNECT_STORE_COLLECTION` and changes nothing. -/
inductive CollectionName where
  | authorizationCodes
  | proofTokens
  | authChallenges
  | registrationChallenges
  | deviceHandoffs
  | devicePairings
  | aliasReservations
  | authorizeRequests
  | rateLimits
  | consumedProofs
  deriving DecidableEq

def CollectionName.all : List CollectionName :=
  [authorizationCodes, proofTokens, authChallenges, registrationChallenges, deviceHandoffs,
    devicePairings, aliasReservations, authorizeRequests, rateLimits, consumedProofs]

/-- A record: the fields the store reads, as integers if they are there, and the others. -/
structure Record where
  expiresAtMs : Option Int
  count : Option Int
  value : Json

structure Store where
  collections : CollectionName → OrderedMap String Record
  /-- How often the clock has been read. -/
  reads : Nat

def Store.empty : Store := ⟨fun _ => OrderedMap.empty, 0⟩

def Store.find (s : Store) (name : CollectionName) (key : String) : Option Record :=
  (s.collections name).find key

def Store.put (s : Store) (name : CollectionName) (key : String) (record : Record) : Store :=
  { s with collections := fun n => if n = name then (s.collections n).insert key record else s.collections n }

def Store.remove (s : Store) (name : CollectionName) (key : String) : Store :=
  { s with collections := fun n => if n = name then (s.collections n).erase key else s.collections n }

def Store.tick (s : Store) : Store := { s with reads := s.reads + 1 }

section
variable (clock : Nat → Int)

/-- `this.now()` is read for a record with an `expiresAtMs` other than 0. -/
def isExpired (record : Record) (s : Store) : Bool × Store :=
  match record.expiresAtMs with
  | none => (false, s)
  | some expiresAtMs => if expiresAtMs = 0 then (false, s) else (expiresAtMs ≤ clock s.reads, s.tick)

def set (name : CollectionName) (key : String) (record : Record) (s : Store) : Record × Store :=
  (record, s.put name key record)

def get (name : CollectionName) (key : String) (s : Store) : Option Record × Store :=
  if key = "" then (none, s)
  else
    match s.find name key with
    | none => (none, s)
    | some record =>
      match isExpired clock record s with
      | (true, s) => (none, s.remove name key)
      | (false, s) => (some record, s)

def delete (name : CollectionName) (key : String) (s : Store) : Bool × Store :=
  ((s.find name key).isSome, s.remove name key)

def consume (name : CollectionName) (key : String) (s : Store) : Option Record × Store :=
  match get clock name key s with
  | (some record, s) => (some record, (delete name key s).2)
  | (none, s) => (none, s)

/-- The loop over the entries of a collection. -/
def sweep (name : CollectionName) : List (String × Record) → Store → List (String × Record) × Store
  | [], s => ([], s)
  | (key, record) :: rest, s =>
    match isExpired clock record s with
    | (true, s) => sweep name rest (s.remove name key)
    | (false, s) =>
      let (kept, s) := sweep name rest s
      ((key, record) :: kept, s)

def entries (name : CollectionName) (s : Store) : List (String × Record) × Store :=
  sweep clock name (s.collections name).entries s

/-- `onExpire` is told of the records that go, and does not touch the store. -/
def cleanup (s : Store) : Store :=
  CollectionName.all.foldl (fun s name => (entries clock name s).2) s

structure RateLimit where
  allowed : Bool
  remaining : Option Int
  resetAtMs : Option Int

def incrementRateLimit (bucket : String) (limit windowMs : Int) (s : Store) : RateLimit × Store :=
  let now := clock s.reads
  let (current, s) := get clock .rateLimits bucket s.tick
  let record := current.getD ⟨some (now + windowMs), some 0, .null⟩
  let record := { record with count := record.count.map (· + 1) }
  (⟨record.count.any (· ≤ limit), record.count.map fun count => max 0 (limit - count), record.expiresAtMs⟩,
    s.put .rateLimits bucket record)

def markProofConsumed (proofId : String) (expiresAtMs : Option Int) (s : Store) : Bool × Store :=
  if proofId = "" then (false, s)
  else
    match get clock .consumedProofs proofId s with
    | (some _, s) => (false, s)
    | (none, s) => (true, s.put .consumedProofs proofId ⟨expiresAtMs, none, .null⟩)

inductive Op where
  | set (name : CollectionName) (key : String) (record : Record)
  | get (name : CollectionName) (key : String)
  | delete (name : CollectionName) (key : String)
  | consume (name : CollectionName) (key : String)
  | entries (name : CollectionName)
  | cleanup
  | incrementRateLimit (bucket : String) (limit windowMs : Int)
  | markProofConsumed (proofId : String) (expiresAtMs : Option Int)

def step (s : Store) : Op → Store
  | .set name key record => (set name key record s).2
  | .get name key => (get clock name key s).2
  | .delete name key => (delete name key s).2
  | .consume name key => (consume clock name key s).2
  | .entries name => (entries clock name s).2
  | .cleanup => cleanup clock s
  | .incrementRateLimit bucket limit windowMs => (incrementRateLimit clock bucket limit windowMs s).2
  | .markProofConsumed proofId expiresAtMs => (markProofConsumed clock proofId expiresAtMs s).2

def run (s : Store) (ops : List Op) : Store := ops.foldl (step clock) s

end

/-! ## What an operation leaves -/

/-- Besides by its expiry, the operation may change the record. -/
def Op.Touches (name : CollectionName) (key : String) : Op → Prop
  | set n k _ | delete n k | consume n k => n = name ∧ k = key
  | incrementRateLimit bucket _ _ => .rateLimits = name ∧ bucket = key
  | markProofConsumed proofId _ => .consumedProofs = name ∧ proofId = key
  | get .. | entries _ | cleanup => False

/-- The clock has been at or past the expiry of the record. -/
def Lapsed (clock : Nat → Int) (record : Record) (reads : Nat) : Prop :=
  ∃ t, record.expiresAtMs = some t ∧ t ≠ 0 ∧ ∃ m < reads, t ≤ clock m

/-- The record under the key is there still, or has gone with its expiry. -/
structure Kept (clock : Nat → Int) (name : CollectionName) (key : String) (s s' : Store) : Prop where
  reads : s.reads ≤ s'.reads
  record : s'.find name key = s.find name key ∨
    (s'.find name key = none ∧ ∃ record, s.find name key = some record ∧ Lapsed clock record s'.reads)

section
variable {clock : Nat → Int} {name n : CollectionName} {key k : String} {s s' : Store} {record : Record}

theorem find_put : (s.put n k record).find name key =
    if n = name ∧ k = key then some record else s.find name key := by
  unfold Store.put Store.find
  dsimp only
  by_cases hname : n = name
  · subst hname
    rw [if_pos rfl, OrderedMap.find_insert]
    by_cases hkey : k = key
    · rw [if_pos hkey, if_pos ⟨rfl, hkey⟩]
    · rw [if_neg hkey, if_neg fun h => hkey h.2]
  · rw [if_neg (Ne.symm hname), if_neg fun h => hname h.1]

theorem find_remove : (s.remove n k).find name key =
    if n = name ∧ k = key then none else s.find name key := by
  unfold Store.remove Store.find
  dsimp only
  by_cases hname : n = name
  · subst hname
    rw [if_pos rfl, OrderedMap.find_erase]
    by_cases hkey : k = key
    · rw [if_pos hkey, if_pos ⟨rfl, hkey⟩]
    · rw [if_neg hkey, if_neg fun h => hkey h.2]
  · rw [if_neg (Ne.symm hname), if_neg fun h => hname h.1]

@[simp] theorem reads_put : (s.put n k record).reads = s.reads := rfl

@[simp] theorem reads_remove : (s.remove n k).reads = s.reads := rfl

theorem Lapsed.mono {reads reads' : Nat} (h : Lapsed clock record reads) (hle : reads ≤ reads') :
    Lapsed clock record reads' := by
  obtain ⟨t, ht, hne, m, hm, hclock⟩ := h
  exact ⟨t, ht, hne, m, hm.trans_le hle, hclock⟩

theorem Kept.refl (s : Store) : Kept clock name key s s := ⟨le_rfl, .inl rfl⟩

theorem Kept.trans {s'' : Store} (h : Kept clock name key s s') (h' : Kept clock name key s' s'') :
    Kept clock name key s s'' := by
  refine ⟨h.reads.trans h'.reads, ?_⟩
  rcases h'.record with hsame | ⟨hgone, record, hrecord, hlapsed⟩
  · rw [hsame]
    rcases h.record with hsame' | ⟨hgone', record, hrecord, hlapsed⟩
    · exact .inl hsame'
    · exact .inr ⟨hgone', record, hrecord, hlapsed.mono h'.reads⟩
  · rcases h.record with hsame' | ⟨hgone', -, -, -⟩
    · exact .inr ⟨hgone, record, hsame' ▸ hrecord, hlapsed⟩
    · cases hgone'.symm.trans hrecord

theorem Kept.of_collections (hcollections : s'.collections = s.collections) (hreads : s.reads ≤ s'.reads) :
    Kept clock name key s s' := by
  refine ⟨hreads, .inl ?_⟩
  unfold Store.find
  rw [hcollections]

theorem Kept.put (h : ¬ (n = name ∧ k = key)) : Kept clock name key s (s.put n k record) :=
  ⟨le_rfl, .inl (by rw [find_put, if_neg h])⟩

theorem Kept.remove (h : ¬ (n = name ∧ k = key)) : Kept clock name key s (s.remove n k) :=
  ⟨le_rfl, .inl (by rw [find_remove, if_neg h])⟩

/-- Only the clock is read, and what is found expired has lapsed. -/
theorem isExpired_spec (clock : Nat → Int) (record : Record) (s : Store) :
    (isExpired clock record s).2.collections = s.collections ∧
      s.reads ≤ (isExpired clock record s).2.reads ∧
      ((isExpired clock record s).1 = true → Lapsed clock record (isExpired clock record s).2.reads) ∧
      ((isExpired clock record s).1 = false → ∀ t, record.expiresAtMs = some t → t ≠ 0 →
        clock s.reads < t ∧ (isExpired clock record s).2.reads = s.reads + 1) := by
  unfold isExpired
  cases hexpires : record.expiresAtMs with
  | none => exact ⟨rfl, le_rfl, fun h => (nomatch h), fun _ t ht => (nomatch ht)⟩
  | some t =>
    dsimp only
    by_cases hzero : t = 0
    · rw [if_pos hzero]
      refine ⟨rfl, le_rfl, fun h => (nomatch h), fun _ t' ht hne => ?_⟩
      cases ht
      exact absurd hzero hne
    · rw [if_neg hzero]
      refine ⟨rfl, Nat.le_succ _, fun h => ?_, fun h t' ht _ => ?_⟩
      · exact ⟨t, hexpires, hzero, s.reads, Nat.lt_succ_self _, of_decide_eq_true h⟩
      · cases ht
        exact ⟨not_le.mp (of_decide_eq_false h), rfl⟩

/-- A record that is deleted as it is found expired. -/
theorem Kept.expire (hfind : s.find n k = some record) (hcollections : s'.collections = s.collections)
    (hreads : s.reads ≤ s'.reads) (hlapsed : Lapsed clock record s'.reads) :
    Kept clock name key s (s'.remove n k) := by
  by_cases hsame : n = name ∧ k = key
  · obtain ⟨rfl, rfl⟩ := hsame
    refine ⟨hreads, .inr ⟨?_, record, hfind, hlapsed⟩⟩
    rw [find_remove, if_pos ⟨rfl, rfl⟩]
  · exact (Kept.of_collections hcollections hreads).trans (Kept.remove hsame)

theorem kept_get (clock : Nat → Int) (name : CollectionName) (key : String) (n : CollectionName) (k : String)
    (s : Store) : Kept clock name key s (get clock n k s).2 := by
  unfold get
  split
  · exact .refl s
  · split
    · exact .refl s
    · rename_i record hfind
      obtain ⟨hcollections, hreads, hlapsed, -⟩ := isExpired_spec clock record s
      split
      · rename_i s' hexpired
        rw [hexpired] at hcollections hreads hlapsed
        exact .expire hfind hcollections hreads (hlapsed rfl)
      · rename_i s' hexpired
        rw [hexpired] at hcollections hreads
        exact .of_collections hcollections hreads

theorem kept_sweep {rest : List (String × Record)} (hnodup : (rest.map Prod.fst).Nodup)
    (hfind : ∀ e ∈ rest, s.find n e.1 = some e.2) : Kept clock name key s (sweep clock n rest s).2 := by
  induction rest generalizing s with
  | nil => exact .refl s
  | cons e rest ih =>
    obtain ⟨k, record⟩ := e
    obtain ⟨hfresh, hnodup⟩ := List.nodup_cons.mp hnodup
    have hrecord := hfind (k, record) List.mem_cons_self
    have hrest : ∀ e ∈ rest, s.find n e.1 = some e.2 := fun e he => hfind e (List.mem_cons_of_mem _ he)
    obtain ⟨hcollections, hreads, hlapsed, -⟩ := isExpired_spec clock record s
    unfold sweep
    split
    · rename_i s' hexpired
      rw [hexpired] at hcollections hreads hlapsed
      refine (Kept.expire hrecord hcollections hreads (hlapsed rfl)).trans (ih hnodup fun e he => ?_)
      rw [find_remove, if_neg]
      · unfold Store.find
        rw [hcollections]
        exact hrest e he
      · rintro ⟨-, rfl⟩
        exact hfresh (List.mem_map.mpr ⟨e, he, rfl⟩)
    · rename_i s' hexpired
      rw [hexpired] at hcollections hreads
      refine (Kept.of_collections hcollections hreads).trans (ih hnodup fun e he => ?_)
      unfold Store.find
      rw [hcollections]
      exact hrest e he

theorem kept_entries : Kept clock name key s (entries clock n s).2 :=
  kept_sweep (s.collections n).nodup fun e he => OrderedMap.find_eq_some.mpr he

theorem kept_cleanup : Kept clock name key s (cleanup clock s) := by
  unfold cleanup
  generalize CollectionName.all = names
  induction names generalizing s with
  | nil => exact .refl s
  | cons n names ih => exact kept_entries.trans ih

/-- An operation that does not touch the record leaves it to its expiry. -/
theorem kept_step (clock : Nat → Int) {op : Op} (h : ¬ op.Touches name key) :
    Kept clock name key s (step clock s op) := by
  cases op with
  | set n k record => exact .put h
  | get n k => exact kept_get clock name key n k s
  | delete n k => exact .remove h
  | consume n k =>
    show Kept clock name key s (consume clock n k s).2
    unfold consume
    have hget := kept_get clock name key n k s
    split
    · rename_i record s' hout
      rw [hout] at hget
      exact hget.trans (.remove h)
    · rename_i s' hout
      rw [hout] at hget
      exact hget
  | entries n => exact kept_entries
  | cleanup => exact kept_cleanup
  | incrementRateLimit bucket limit windowMs =>
    have htick : Kept clock name key s s.tick := .of_collections rfl (Nat.le_succ _)
    exact Kept.trans (htick.trans (kept_get clock name key .rateLimits bucket s.tick)) (Kept.put h)
  | markProofConsumed proofId expiresAtMs =>
    show Kept clock name key s (markProofConsumed clock proofId expiresAtMs s).2
    unfold markProofConsumed
    have hget := kept_get clock name key .consumedProofs proofId s
    split
    · exact .refl s
    · split
      · rename_i record s' hout
        rw [hout] at hget
        exact hget
      · rename_i s' hout
        rw [hout] at hget
        exact hget.trans (.put h)

theorem reads_le_step (op : Op) : s.reads ≤ (step clock s op).reads := by
  by_cases htokens : op.Touches .proofTokens ""
  · have hother : ¬ op.Touches .authChallenges "" := by
      intro h
      cases op with
      | set | delete | consume => cases htokens.1.symm.trans h.1
      | get | entries | cleanup => exact h
      | incrementRateLimit | markProofConsumed => cases h.1
    exact (kept_step clock hother).reads
  · exact (kept_step clock htokens).reads

theorem reads_le_run (ops : List Op) : s.reads ≤ (run clock s ops).reads := by
  induction ops generalizing s with
  | nil => exact le_rfl
  | cons op ops ih => exact (reads_le_step op).trans ih

/-- A record that has lapsed is not found again; one that is found was read before its expiry. -/
theorem get_cases (clock : Nat → Int) (name : CollectionName) (s : Store) (hkey : key ≠ "") :
    (∃ record, (get clock name key s).1 = some record ∧ s.find name key = some record ∧
      (get clock name key s).2.find name key = some record ∧
      ∀ t, record.expiresAtMs = some t → t ≠ 0 → clock s.reads < t) ∨
    ((get clock name key s).1 = none ∧ (get clock name key s).2.find name key = none ∧
      ∀ record, s.find name key = some record → Lapsed clock record (get clock name key s).2.reads) := by
  unfold get
  rw [if_neg hkey]
  cases hfind : s.find name key with
  | none => exact .inr ⟨rfl, hfind, fun record h => (nomatch h)⟩
  | some record =>
    obtain ⟨hcollections, -, hlapsed, hfresh⟩ := isExpired_spec clock record s
    dsimp only
    split
    · rename_i s' hexpired
      rw [hexpired] at hlapsed
      refine .inr ⟨rfl, ?_, fun record' h => ?_⟩
      · rw [find_remove, if_pos ⟨rfl, rfl⟩]
      · cases h
        exact hlapsed rfl
    · rename_i s' hexpired
      rw [hexpired] at hcollections hfresh
      refine .inl ⟨record, rfl, rfl, ?_, fun t ht hne => (hfresh rfl t ht hne).1⟩
      unfold Store.find at hfind ⊢
      rw [hcollections, hfind]

end

/-! ## What is handed out -/

/-- The internal collections are written through their own operations only. -/
def Op.Proper : Op → Prop
  | set name _ _ | delete name _ | consume name _ => name ≠ .rateLimits ∧ name ≠ .consumedProofs
  | get .. | entries _ | cleanup | incrementRateLimit .. | markProofConsumed .. => True

/-- What `consume` answers was stored since the record under the key was last written or taken, and
is not expired. -/
def HandsOutOnce (clock : Nat → Int) (ops : List Op) : Prop :=
  ∀ pre name key post record, ops = pre ++ .consume name key :: post →
    (consume clock name key (run clock Store.empty pre)).1 = some record →
    (∃ pre₁ pre₂, pre = pre₁ ++ .set name key record :: pre₂ ∧ ∀ op ∈ pre₂, ¬ op.Touches name key) ∧
      ∀ t, record.expiresAtMs = some t → t ≠ 0 → clock (run clock Store.empty pre).reads < t

section
variable {clock : Nat → Int} {name : CollectionName} {key : String} {s : Store} {record : Record}

theorem consume_eq_some (h : (consume clock name key s).1 = some record) :
    s.find name key = some record ∧ ∀ t, record.expiresAtMs = some t → t ≠ 0 → clock s.reads < t := by
  have hget : (get clock name key s).1 = some record := by
    unfold consume at h
    split at h
    · rename_i hget
      rw [hget]
      exact h
    · cases h
  by_cases hkey : key = ""
  · unfold get at hget
    rw [if_pos hkey] at hget
    cases hget
  · rcases get_cases clock name s hkey with
      ⟨record', hrecord, hfind, -, hfresh⟩ | ⟨hnone, -, -⟩
    · rw [hrecord] at hget
      cases hget
      exact ⟨hfind, hfresh⟩
    · cases hnone.symm.trans hget

theorem consume_removes (hkey : key ≠ "") : (consume clock name key s).2.find name key = none := by
  have hcases := get_cases clock name s hkey
  unfold consume
  split
  · unfold delete
    rw [find_remove, if_pos ⟨rfl, rfl⟩]
  · rename_i s' hget
    rw [hget] at hcases
    rcases hcases with ⟨record, hrecord, -⟩ | ⟨-, hnone, -⟩
    · cases hrecord
    · exact hnone

theorem consume_empty : consume clock name "" s = (none, s) := by
  unfold consume get
  rfl

theorem run_concat {ops : List Op} {op : Op} : run clock s (ops ++ [op]) = step clock (run clock s ops) op := by
  unfold run
  rw [List.foldl_append]
  rfl

/-- A record outside the internal collections was put there by `set`. -/
theorem find_run {ops : List Op} (hproper : name ≠ .rateLimits ∧ name ≠ .consumedProofs) (hkey : key ≠ "")
    (h : (run clock Store.empty ops).find name key = some record) :
    ∃ pre post, ops = pre ++ .set name key record :: post ∧ ∀ op ∈ post, ¬ op.Touches name key := by
  induction ops using List.reverseRecOn with
  | nil => cases h
  | append_singleton ops op ih =>
    rw [run_concat] at h
    by_cases htouches : op.Touches name key
    · cases op with
      | set n k r =>
        obtain ⟨rfl, rfl⟩ := htouches
        have hfind : (Store.put (run clock Store.empty ops) n k r).find n k = some record := h
        rw [find_put, if_pos ⟨rfl, rfl⟩] at hfind
        cases hfind
        exact ⟨ops, [], rfl, fun op hop => (nomatch hop)⟩
      | get | entries | cleanup => exact htouches.elim
      | delete n k =>
        obtain ⟨rfl, rfl⟩ := htouches
        have hfind : (Store.remove (run clock Store.empty ops) n k).find n k = some record := h
        rw [find_remove, if_pos ⟨rfl, rfl⟩] at hfind
        cases hfind
      | consume n k =>
        obtain ⟨rfl, rfl⟩ := htouches
        cases (consume_removes hkey).symm.trans h
      | incrementRateLimit => exact absurd htouches.1.symm hproper.1
      | markProofConsumed => exact absurd htouches.1.symm hproper.2
    · rcases (kept_step clock htouches).record with hsame | ⟨hgone, -⟩
      · obtain ⟨pre, post, rfl, hpost⟩ := ih (hsame.symm.trans h)
        refine ⟨pre, post ++ [op], by simp, fun op' hop' => ?_⟩
        rcases List.mem_append.mp hop' with hmem | hmem
        · exact hpost op' hmem
        · rw [List.mem_singleton.mp hmem]
          exact htouches
      · cases hgone.symm.trans h

theorem handsOutOnce {ops : List Op} (hproper : ∀ op ∈ ops, op.Proper) : HandsOutOnce clock ops := by
  intro pre name key post record hops hconsume
  have hname : Op.Proper (.consume name key) := hproper _ (by simp [hops])
  obtain ⟨hfind, hfresh⟩ := consume_eq_some hconsume
  have hkey : key ≠ "" := by
    rintro rfl
    rw [consume_empty] at hconsume
    cases hconsume
  exact ⟨find_run hname hkey hfind, hfresh⟩

end

/-! ## What is limited -/

/-- The answer of a call for the bucket, with the last reading of the clock. -/
def answer (clock : Nat → Int) (bucket : String) (s : Store) : Op → Option (RateLimit × Int)
  | .incrementRateLimit b limit windowMs =>
    if b = bucket then
      let (limited, s) := incrementRateLimit clock b limit windowMs s
      some (limited, clock (s.reads - 1))
    else none
  | .set .. | .get .. | .delete .. | .consume .. | .entries _ | .cleanup | .markProofConsumed .. => none

def answers (clock : Nat → Int) (bucket : String) : Store → List Op → List (RateLimit × Int)
  | _, [] => []
  | s, op :: ops => (answer clock bucket s op).toList ++ answers clock bucket (step clock s op) ops

/-- Until the clock reaches the time a call answers, the calls after it answer the same time, and
with it are allowed at most `limit` times. -/
def RateLimited (clock : Nat → Int) (ops : List Op) : Prop :=
  ∀ pre bucket limit windowMs post, ops = pre ++ .incrementRateLimit bucket limit windowMs :: post →
    bucket ≠ "" → (∀ l w, .incrementRateLimit bucket l w ∈ post → l = limit) →
    let s := run clock Store.empty pre
    let call := incrementRateLimit clock bucket limit windowMs s
    ∃ resetAtMs, call.1.resetAtMs = some resetAtMs ∧
      ((get clock .rateLimits bucket s.tick).1 = none → resetAtMs = clock s.reads + windowMs) ∧
      let later := (answers clock bucket call.2 post).filter (·.2 < resetAtMs)
      (∀ a ∈ later, a.1.resetAtMs = some resetAtMs) ∧
        (call.1 :: later.map Prod.fst).countP (·.allowed) ≤ limit.toNat

/-- The records of the limits are those that `incrementRateLimit` makes. -/
def Counted (s : Store) : Prop :=
  ∀ bucket record, s.find .rateLimits bucket = some record →
    ∃ resetAtMs count, record.expiresAtMs = some resetAtMs ∧ record.count = some count ∧ 1 ≤ count

section
variable {clock : Nat → Int} {bucket : String} {limit windowMs : Int} {s : Store}

/-- The call counts on in the record that is there, or in a new one where that has lapsed. -/
theorem increment_cases (clock : Nat → Int) (bucket : String) (limit windowMs : Int) (s : Store) :
    ∃ record, (incrementRateLimit clock bucket limit windowMs s).2.find .rateLimits bucket = some record ∧
      (incrementRateLimit clock bucket limit windowMs s).1.resetAtMs = record.expiresAtMs ∧
      (incrementRateLimit clock bucket limit windowMs s).1.allowed = record.count.any (· ≤ limit) ∧
      ((∃ old, (get clock .rateLimits bucket s.tick).1 = some old ∧ s.find .rateLimits bucket = some old ∧
          record = { old with count := old.count.map (· + 1) }) ∨
        (record = ⟨some (clock s.reads + windowMs), some 1, .null⟩ ∧
          (bucket ≠ "" → ∀ old, s.find .rateLimits bucket = some old →
            Lapsed clock old (incrementRateLimit clock bucket limit windowMs s).2.reads))) := by
  unfold incrementRateLimit
  dsimp only
  refine ⟨_, find_put.trans (if_pos ⟨rfl, rfl⟩), rfl, rfl, ?_⟩
  by_cases hbucket : bucket = ""
  · subst hbucket
    exact .inr ⟨rfl, fun h => absurd rfl h⟩
  · rcases get_cases clock .rateLimits s.tick hbucket with
      ⟨old, hget, hfind, -, -⟩ | ⟨hget, -, hlapsed⟩
    · refine .inl ⟨old, hget, hfind, ?_⟩
      rw [hget]
      rfl
    · refine .inr ⟨?_, fun _ => hlapsed⟩
      rw [hget]
      rfl

theorem counted_step {op : Op} (hproper : op.Proper) (h : Counted s) : Counted (step clock s op) := by
  intro bucket record hfind
  by_cases htouches : op.Touches .rateLimits bucket
  · cases op with
    | set | delete | consume => exact absurd htouches.1 hproper.1
    | get | entries | cleanup => exact htouches.elim
    | markProofConsumed => cases htouches.1
    | incrementRateLimit b limit windowMs =>
      obtain ⟨-, rfl⟩ := htouches
      obtain ⟨record', hfind', -, -, ⟨old, -, hold, hrecord⟩ | ⟨hrecord, -⟩⟩ :=
        increment_cases clock b limit windowMs s
      · obtain ⟨resetAtMs, count, hreset, hcount, hpos⟩ := h b old hold
        cases hfind'.symm.trans hfind
        subst hrecord
        exact ⟨resetAtMs, count + 1, hreset, by rw [hcount]; rfl, by omega⟩
      · cases hfind'.symm.trans hfind
        subst hrecord
        exact ⟨_, 1, rfl, rfl, le_rfl⟩
  · rcases (kept_step clock htouches).record with hsame | ⟨hgone, -⟩
    · exact h bucket record (hsame.symm.trans hfind)
    · cases hgone.symm.trans hfind

theorem counted_run {ops : List Op} (hproper : ∀ op ∈ ops, op.Proper) (h : Counted s) :
    Counted (run clock s ops) := by
  induction ops generalizing s with
  | nil => exact h
  | cons op ops ih =>
    exact ih (fun op' hop' => hproper op' (List.mem_cons_of_mem _ hop'))
      (counted_step (hproper op List.mem_cons_self) h)

theorem answers_call {ops : List Op} :
    answers clock bucket s (.incrementRateLimit bucket limit windowMs :: ops) =
      ((incrementRateLimit clock bucket limit windowMs s).1,
        clock ((incrementRateLimit clock bucket limit windowMs s).2.reads - 1)) ::
      answers clock bucket (incrementRateLimit clock bucket limit windowMs s).2 ops := by
  rw [answers, answer, if_pos rfl]
  rfl

theorem answers_other {op : Op} {ops : List Op} (h : ¬ op.Touches .rateLimits bucket) :
    answers clock bucket s (op :: ops) = answers clock bucket (step clock s op) ops := by
  have hnone : answer clock bucket s op = none := by
    cases op with
    | incrementRateLimit b limit windowMs => exact if_neg fun hb => h ⟨rfl, hb⟩
    | set | get | delete | consume | entries | cleanup | markProofConsumed => rfl
  rw [answers, hnone]
  rfl

theorem answer_time {op : Op} {a : RateLimit × Int} (h : answer clock bucket s op = some a) :
    a.2 = clock ((step clock s op).reads - 1) := by
  cases op with
  | incrementRateLimit b limit windowMs =>
    rw [answer] at h
    by_cases hb : b = bucket
    · rw [if_pos hb] at h
      cases h
      rfl
    · rw [if_neg hb] at h
      cases h
  | set | get | delete | consume | entries | cleanup | markProofConsumed => cases h

theorem Proper.call {op : Op} (hproper : op.Proper) (h : op.Touches .rateLimits bucket) :
    ∃ limit windowMs, op = .incrementRateLimit bucket limit windowMs := by
  cases op with
  | set | delete | consume => exact absurd h.1 hproper.1
  | get | entries | cleanup => exact h.elim
  | markProofConsumed => cases h.1
  | incrementRateLimit b limit windowMs => exact ⟨limit, windowMs, by rw [h.2]⟩

theorem Lapsed.le_last (hclock : Monotone clock) {record : Record} {resetAtMs : Int} {reads : Nat}
    (h : Lapsed clock record reads) (hreset : record.expiresAtMs = some resetAtMs) :
    resetAtMs ≤ clock (reads - 1) := by
  obtain ⟨t, ht, -, m, hm, hle⟩ := h
  cases hreset.symm.trans ht
  exact hle.trans (hclock (Nat.le_sub_one_of_lt hm))

/-- Once a record has lapsed, every later answer is past its expiry. -/
theorem late_answers (hclock : Monotone clock) {record : Record} {resetAtMs : Int} {ops : List Op}
    (hreset : record.expiresAtMs = some resetAtMs) (h : Lapsed clock record s.reads) :
    ∀ a ∈ answers clock bucket s ops, resetAtMs ≤ a.2 := by
  induction ops generalizing s with
  | nil => exact fun a ha => (nomatch ha)
  | cons op ops ih =>
    have hstep : Lapsed clock record (step clock s op).reads := h.mono (reads_le_step op)
    rw [answers]
    intro a ha
    rcases List.mem_append.mp ha with hcall | hrest
    · rw [answer_time (Option.mem_toList.mp hcall)]
      exact hstep.le_last hclock hreset
    · exact ih hstep a hrest

/-- While the record is not past its expiry, the calls count on in it. -/
theorem window_answers (hclock : Monotone clock) {record : Record} {resetAtMs count : Int} {ops : List Op}
    (hbucket : bucket ≠ "") (hproper : ∀ op ∈ ops, op.Proper)
    (hlimit : ∀ l w, .incrementRateLimit bucket l w ∈ ops → l = limit)
    (hfind : s.find .rateLimits bucket = some record) (hreset : record.expiresAtMs = some resetAtMs)
    (hcount : record.count = some count) :
    (∀ a ∈ (answers clock bucket s ops).filter (·.2 < resetAtMs), a.1.resetAtMs = some resetAtMs) ∧
      (((answers clock bucket s ops).filter (·.2 < resetAtMs)).map Prod.fst).countP (·.allowed) ≤
        (limit - count).toNat := by
  have hlate : ∀ {s' : Store} {ops : List Op}, Lapsed clock record s'.reads →
      (answers clock bucket s' ops).filter (·.2 < resetAtMs) = [] := by
    intro s' ops hlapsed
    refine List.filter_eq_nil_iff.mpr fun a ha hlt => ?_
    exact absurd (of_decide_eq_true hlt) (not_lt.mpr (late_answers hclock hreset hlapsed a ha))
  induction ops generalizing s record count with
  | nil => exact ⟨fun a ha => (nomatch ha), Nat.zero_le _⟩
  | cons op ops ih =>
    have hproper' : ∀ op ∈ ops, op.Proper := fun op' h => hproper op' (List.mem_cons_of_mem _ h)
    have hlimit' : ∀ l w, .incrementRateLimit bucket l w ∈ ops → l = limit :=
      fun l w h => hlimit l w (List.mem_cons_of_mem _ h)
    by_cases htouches : op.Touches .rateLimits bucket
    · obtain ⟨l, windowMs, rfl⟩ := Proper.call (hproper op List.mem_cons_self) htouches
      obtain rfl : l = limit := hlimit l windowMs List.mem_cons_self
      rw [answers_call]
      obtain ⟨next, hnext, hanswer, hallowed, ⟨old, -, hold, rfl⟩ | ⟨-, hlapsed⟩⟩ :=
        increment_cases clock bucket l windowMs s
      · cases hold.symm.trans hfind
        have hcount' : record.count.map (· + 1) = some (count + 1) := by
          rw [hcount]
          rfl
        obtain ⟨hsame, hbound⟩ := ih hproper' hlimit' hnext hreset hcount' hlate
        rw [List.filter_cons]
        split
        · refine ⟨List.forall_mem_cons.mpr ⟨hanswer.trans hreset, hsame⟩, ?_⟩
          rw [List.map_cons, List.countP_cons, hallowed, hcount, Option.map_some, Option.any_some]
          split
          · rename_i hle
            have := of_decide_eq_true hle
            omega
          · omega
        · exact ⟨hsame, hbound.trans (by omega)⟩
      · have hpast := (hlapsed hbucket record hfind).le_last hclock hreset
        rw [List.filter_cons, hlate (hlapsed hbucket record hfind), if_neg fun h => not_lt.mpr hpast (of_decide_eq_true h)]
        exact ⟨fun a ha => (nomatch ha), Nat.zero_le _⟩
    · rw [answers_other htouches]
      rcases (kept_step clock htouches).record with hsame | ⟨-, record', hrecord, hlapsed⟩
      · exact ih hproper' hlimit' (hsame.trans hfind) hreset hcount hlate
      · cases hrecord.symm.trans hfind
        rw [hlate hlapsed]
        exact ⟨fun a ha => (nomatch ha), Nat.zero_le _⟩

theorem counted_empty : Counted Store.empty := fun _ _ h => nomatch h

theorem rateLimited {ops : List Op} (hclock : Monotone clock) (hproper : ∀ op ∈ ops, op.Proper) :
    RateLimited clock ops := by
  intro pre bucket limit windowMs post hops hbucket hlimit s call
  have hpre : ∀ op ∈ pre, op.Proper := fun op hop => hproper op (by simp [hops, hop])
  have hpost : ∀ op ∈ post, op.Proper := fun op hop => hproper op (by simp [hops, hop])
  have hcounted : Counted s := counted_run hpre counted_empty
  obtain ⟨record, hfind, hanswer, hallowed, hrecord⟩ := increment_cases clock bucket limit windowMs s
  -- The call leaves a record that counts itself.
  have hleft : ∃ resetAtMs count, record.expiresAtMs = some resetAtMs ∧ record.count = some count ∧ 1 ≤ count ∧
      ((get clock .rateLimits bucket s.tick).1 = none → resetAtMs = clock s.reads + windowMs) := by
    rcases hrecord with ⟨old, hget, hold, rfl⟩ | ⟨rfl, -⟩
    · obtain ⟨resetAtMs, count, hreset, hcount, hpos⟩ := hcounted bucket old hold
      refine ⟨resetAtMs, count + 1, hreset, by rw [hcount]; rfl, by omega, fun hnone => ?_⟩
      cases hnone.symm.trans hget
    · exact ⟨_, 1, rfl, rfl, le_rfl, fun _ => rfl⟩
  obtain ⟨resetAtMs, count, hreset, hcount, hpos, hopened⟩ := hleft
  obtain ⟨hsame, hbound⟩ := window_answers (s := call.2) hclock hbucket hpost hlimit hfind hreset hcount
  refine ⟨resetAtMs, hanswer.trans hreset, hopened, hsame, ?_⟩
  rw [List.countP_cons, hallowed, hcount, Option.any_some]
  split
  · rename_i hle
    have := of_decide_eq_true hle
    omega
  · omega

end

/-! ## What is marked -/

/-- Two calls on one id are both answered `true` only past the expiry that the first gave. -/
def MarksOnce (clock : Nat → Int) (ops : List Op) : Prop :=
  ∀ pre proofId expiresAtMs mid expiresAtMs' post,
    ops = pre ++ .markProofConsumed proofId expiresAtMs :: mid ++
      .markProofConsumed proofId expiresAtMs' :: post →
    let first := markProofConsumed clock proofId expiresAtMs (run clock Store.empty pre)
    let second := markProofConsumed clock proofId expiresAtMs' (run clock first.2 mid)
    first.1 = true → second.1 = true →
      ∃ t, expiresAtMs = some t ∧ t ≠ 0 ∧ t ≤ clock (second.2.reads - 1)

section
variable {clock : Nat → Int} {proofId : String} {expiresAtMs : Option Int} {s : Store} {record : Record}

/-- A record that is there is left, or has lapsed. -/
theorem mark_cases (clock : Nat → Int) (proofId : String) (expiresAtMs : Option Int) (s : Store) :
    ((markProofConsumed clock proofId expiresAtMs s).1 = false ∧
      Kept clock .consumedProofs proofId s (markProofConsumed clock proofId expiresAtMs s).2) ∨
    ((markProofConsumed clock proofId expiresAtMs s).1 = true ∧
      (markProofConsumed clock proofId expiresAtMs s).2.find .consumedProofs proofId =
        some ⟨expiresAtMs, none, .null⟩ ∧
      ∀ record, s.find .consumedProofs proofId = some record →
        Lapsed clock record (markProofConsumed clock proofId expiresAtMs s).2.reads) := by
  unfold markProofConsumed
  by_cases hid : proofId = ""
  · rw [if_pos hid]
    exact .inl ⟨rfl, .refl s⟩
  · rw [if_neg hid]
    have hget := kept_get clock .consumedProofs proofId .consumedProofs proofId s
    have hcases := get_cases clock .consumedProofs s hid
    split
    · rename_i found s' hout
      rw [hout] at hget
      exact .inl ⟨rfl, hget⟩
    · rename_i s' hout
      rw [hout] at hcases
      rcases hcases with ⟨record, hrecord, -⟩ | ⟨-, -, hlapsed⟩
      · cases hrecord
      · exact .inr ⟨rfl, find_put.trans (if_pos ⟨rfl, rfl⟩), hlapsed⟩

theorem marked_step (clock : Nat → Int) {op : Op} (hproper : op.Proper) (hfind : s.find .consumedProofs proofId = some record) :
    (step clock s op).find .consumedProofs proofId = some record ∨ Lapsed clock record (step clock s op).reads := by
  have hkept : ∀ {s' : Store}, Kept clock .consumedProofs proofId s s' →
      s'.find .consumedProofs proofId = some record ∨ Lapsed clock record s'.reads := by
    intro s' h
    rcases h.record with hsame | ⟨-, record', hrecord, hlapsed⟩
    · exact .inl (hsame.trans hfind)
    · cases hrecord.symm.trans hfind
      exact .inr hlapsed
  by_cases htouches : op.Touches .consumedProofs proofId
  · cases op with
    | set | delete | consume => exact absurd htouches.1 hproper.2
    | get | entries | cleanup => exact htouches.elim
    | incrementRateLimit => cases htouches.1
    | markProofConsumed id expiresAtMs =>
      obtain ⟨-, rfl⟩ := htouches
      rcases mark_cases clock id expiresAtMs s with ⟨-, h⟩ | ⟨-, -, hlapsed⟩
      · exact hkept h
      · exact .inr (hlapsed record hfind)
  · exact hkept (kept_step clock htouches)

theorem marked_run (clock : Nat → Int) {ops : List Op} (hproper : ∀ op ∈ ops, op.Proper)
    (hfind : s.find .consumedProofs proofId = some record) :
    (run clock s ops).find .consumedProofs proofId = some record ∨ Lapsed clock record (run clock s ops).reads := by
  induction ops generalizing s with
  | nil => exact .inl hfind
  | cons op ops ih =>
    rcases marked_step clock (hproper op List.mem_cons_self) hfind with hnext | hlapsed
    · exact ih (fun op' hop' => hproper op' (List.mem_cons_of_mem _ hop')) hnext
    · exact .inr (hlapsed.mono (reads_le_run ops))

theorem marksOnce {ops : List Op} (hclock : Monotone clock) (hproper : ∀ op ∈ ops, op.Proper) :
    MarksOnce clock ops := by
  intro pre proofId expiresAtMs mid expiresAtMs' post hops first second hfirst hsecond
  have hmid : ∀ op ∈ mid, op.Proper := fun op hop => hproper op (by simp [hops, hop])
  have hmark : first.2.find .consumedProofs proofId = some ⟨expiresAtMs, none, .null⟩ := by
    rcases mark_cases clock proofId expiresAtMs (run clock Store.empty pre) with ⟨hfalse, -⟩ | ⟨-, hmark, -⟩
    · cases hfalse.symm.trans hfirst
    · exact hmark
  have hlapsed : Lapsed clock ⟨expiresAtMs, none, .null⟩ second.2.reads := by
    rcases mark_cases clock proofId expiresAtMs' (run clock first.2 mid) with ⟨hfalse, -⟩ | ⟨-, -, hagain⟩
    · cases hfalse.symm.trans hsecond
    · rcases marked_run clock hmid hmark with hfind | hlapsed
      · exact hagain _ hfind
      · exact hlapsed.mono (reads_le_step (.markProofConsumed proofId expiresAtMs'))
  obtain ⟨t, ht, hne, m, hm, hle⟩ := hlapsed
  exact ⟨t, ht, hne, hle.trans (hclock (Nat.le_sub_one_of_lt hm))⟩

end

/-- Over any run. -/
theorem keeps_limits (clock : Nat → Int) (hclock : Monotone clock) (ops : List Op)
    (hproper : ∀ op ∈ ops, op.Proper) :
    RateLimited clock ops ∧ HandsOutOnce clock ops ∧ MarksOnce clock ops :=
  ⟨rateLimited hclock hproper, handsOutOnce hproper, marksOnce hclock hproper⟩

/-- One call, a code that is handed out, and a mark. -/
def session : List Op :=
  [.incrementRateLimit "alice" 1 60000, .set .authorizationCodes "code" ⟨some 10, none, .null⟩,
    .consume .authorizationCodes "code", .markProofConsumed "proof" (some 20), .cleanup]

theorem session_keeps_limits :
    Monotone (fun reads : Nat => (reads : Int)) ∧ (∀ op ∈ session, op.Proper) ∧
      RateLimited (fun reads : Nat => (reads : Int)) session ∧
        HandsOutOnce (fun reads : Nat => (reads : Int)) session ∧
          MarksOnce (fun reads : Nat => (reads : Int)) session := by
  have hclock : Monotone fun reads : Nat => (reads : Int) := fun _ _ h => Int.ofNat_le.mpr h
  have hproper : ∀ op ∈ session, op.Proper := by
    unfold session
    simp [Op.Proper]
  exact ⟨hclock, hproper, keeps_limits _ hclock session hproper⟩

/-- The store deletes the count of a bucket for whoever names its collection: the limit starts anew
in the same window. -/
theorem deleted_count_allows_again :
    Monotone (fun reads : Nat => (reads : Int)) ∧
      ¬ RateLimited (fun reads : Nat => (reads : Int))
        [.incrementRateLimit "alice" 1 60000, .delete .rateLimits "alice",
          .incrementRateLimit "alice" 1 60000] := by
  refine ⟨fun _ _ h => Int.ofNat_le.mpr h, fun h => ?_⟩
  obtain ⟨resetAtMs, hreset, -, -, hcount⟩ := h [] "alice" 1 60000 _ rfl (by decide) (by simp)
  obtain rfl : 60000 = resetAtMs := Option.some.inj hreset
  exact absurd hcount (by decide +kernel)

end SimpleL1.Node.RuntimeStore
