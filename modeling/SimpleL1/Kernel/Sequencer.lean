import SimpleL1.Kernel.Conservation
import SimpleL1.Lib.KeepLeast
import Mathlib.Data.List.Sort
import Mathlib.Data.Prod.Lex

/-!
# The sequencer

Of the intents with one signer and nonce the sequencer keeps one whose signature
has the least hash, and orders those it keeps by nonce and signer. Signatures are
not checked before one intent takes the place of another.
-/

namespace SimpleL1.Kernel

open SimpleL1.Lib SimpleL1.Lib.Effect

structure Sequencer where
  mempool : List Intent

def Sequencer.new : Sequencer := ⟨[]⟩

def Sequencer.submit (s : Sequencer) (intent : Intent) : Sequencer := ⟨s.mempool ++ [intent]⟩

/-- What intents conflict by. -/
def Slot := Address ×ₗ Nat

instance linearOrderSlot : LinearOrder Slot := inferInstanceAs (LinearOrder (Address ×ₗ Nat))

def slot (intent : Intent) : Slot := toLex (intent.signer, intent.nonce.toNat)

def signatureHash (p : Primitives) (intent : Intent) : Hash := p.blake3 intent.signature

/-- The conflicts are resolved: the intent with the lower hash survives. -/
def Sequencer.deduplicated (p : Primitives) (s : Sequencer) : SortedMap Slot Intent :=
  keepLeast slot (signatureHash p) s.mempool

/-- By nonce, then by signer. -/
def comesBefore (a b : Intent) : Prop :=
  a.nonce.toNat < b.nonce.toNat ∨ (a.nonce = b.nonce ∧ a.signer ≤ b.signer)

instance decidableComesBefore : DecidableRel comesBefore := fun a b =>
  inferInstanceAs (Decidable (a.nonce.toNat < b.nonce.toNat ∨ (a.nonce = b.nonce ∧ a.signer ≤ b.signer)))

def Sequencer.sequence (p : Primitives) (s : Sequencer) : List Intent :=
  (s.deduplicated p).values.insertionSort comesBefore

section
variable {p : Primitives} {mempool : List Intent} {i j : Intent}

theorem slot_eq_slot : slot i = slot j ↔ i.signer = j.signer ∧ i.nonce = j.nonce := by
  unfold slot
  refine (EmbeddingLike.apply_eq_iff_eq toLex).trans ?_
  rw [Prod.mk.injEq, UInt64.toNat_inj]

/-- The intents that conflict with `i`, itself among them. -/
def competing (mempool : List Intent) (i : Intent) : List Intent :=
  mempool.filter (slot · = slot i)

theorem mem_competing : j ∈ competing mempool i ↔ j ∈ mempool ∧ slot j = slot i := by
  unfold competing
  rw [List.mem_filter, decide_eq_true_iff]

/-- The one intent of its slot in the sequence. -/
theorem mem_sequence : i ∈ Sequencer.sequence p ⟨mempool⟩ ↔
    (competing mempool i).argmin (signatureHash p) = some i := by
  exact (List.mem_insertionSort comesBefore).trans mem_values_keepLeast

/-- Some intent of the slot is in the sequence. -/
theorem exists_mem_sequence (h : i ∈ mempool) :
    ∃ kept ∈ Sequencer.sequence p ⟨mempool⟩, slot kept = slot i := by
  have hi : i ∈ competing mempool i := mem_competing.mpr ⟨h, rfl⟩
  cases hmin : (competing mempool i).argmin (signatureHash p) with
  | none =>
    rw [List.argmin_eq_none] at hmin
    rw [hmin] at hi
    cases hi
  | some kept =>
    have hslot := (mem_competing.mp (List.argmin_mem hmin)).2
    refine ⟨kept, mem_sequence.mpr ?_, hslot⟩
    unfold competing at hmin ⊢
    rw [hslot]
    exact hmin

/-! ## The order of arrival -/

/-- Of the intents with one signer and nonce, no two share the least hash. -/
def NoTie (p : Primitives) (mempool : List Intent) : Prop :=
  ∀ i ∈ mempool, ∀ j ∈ mempool, i.signer = j.signer → i.nonce = j.nonce →
    signatureHash p i = signatureHash p j →
    (∀ l ∈ mempool, l.signer = i.signer → l.nonce = i.nonce → signatureHash p i ≤ signatureHash p l) →
    i = j

theorem NoTie.uniqueLeast (h : NoTie p mempool) (k : Slot) :
    UniqueLeast (signatureHash p) (mempool.filter (slot · = k)) := by
  intro i hi j hj hleast hleast'
  obtain ⟨hmem, hslot⟩ := List.mem_filter.mp hi
  obtain ⟨hmem', hslot'⟩ := List.mem_filter.mp hj
  have hslot := of_decide_eq_true hslot
  obtain ⟨hsigner, hnonce⟩ := slot_eq_slot.mp (hslot.trans (of_decide_eq_true hslot').symm)
  refine h i hmem j hmem' hsigner hnonce (le_antisymm (hleast j hj) (hleast' i hi)) ?_
  intro l hl hlsigner hlnonce
  refine hleast l (List.mem_filter.mpr ⟨hl, decide_eq_true ?_⟩)
  exact (slot_eq_slot.mpr ⟨hlsigner, hlnonce⟩).trans hslot

/-- An intent of the least hash is kept when it arrives first. -/
theorem mem_sequence_first (hleast : ∀ l ∈ mempool, l.signer = i.signer → l.nonce = i.nonce →
    signatureHash p i ≤ signatureHash p l) : i ∈ Sequencer.sequence p ⟨i :: mempool.erase i⟩ := by
  rw [mem_sequence]
  unfold competing
  have hin : (i :: mempool.erase i).filter (slot · = slot i) =
      i :: (mempool.erase i).filter (slot · = slot i) := by simp
  rw [hin]
  refine argmin_cons_of_le fun l hl => ?_
  obtain ⟨hmem, hslot⟩ := List.mem_filter.mp hl
  obtain ⟨hsigner, hnonce⟩ := slot_eq_slot.mp (of_decide_eq_true hslot)
  exact hleast l (List.mem_of_mem_erase hmem) hsigner hnonce

theorem sequence_of_perm {mempool' : List Intent} (h : NoTie p mempool)
    (hperm : mempool'.Perm mempool) :
    Sequencer.sequence p ⟨mempool'⟩ = Sequencer.sequence p ⟨mempool⟩ := by
  have hmap : keepLeast slot (signatureHash p) mempool' = keepLeast slot (signatureHash p) mempool := by
    refine SortedMap.ext_find fun k => ?_
    rw [find_keepLeast, find_keepLeast]
    exact (h.uniqueLeast k).argmin_eq (hperm.filter _)
  unfold Sequencer.sequence Sequencer.deduplicated
  rw [hmap]

end

/-- Sequencing does not depend on the order of arrival exactly when no two intents tie. -/
theorem sequence_order_free_iff (p : Primitives) (mempool : List Intent) :
    (∀ mempool', mempool'.Perm mempool →
      Sequencer.sequence p ⟨mempool'⟩ = Sequencer.sequence p ⟨mempool⟩) ↔ NoTie p mempool := by
  refine ⟨fun h i hi j hj hsigner hnonce hhash hleast => ?_, fun h _ => sequence_of_perm h⟩
  have hkept := mem_sequence_first hleast
  have hkept' : j ∈ Sequencer.sequence p ⟨j :: mempool.erase j⟩ := by
    refine mem_sequence_first fun l hl hlsigner hlnonce => ?_
    rw [← hhash]
    exact hleast l hl (hlsigner.trans hsigner.symm) (hlnonce.trans hnonce.symm)
  rw [h _ (List.perm_cons_erase hi).symm, mem_sequence] at hkept
  rw [h _ (List.perm_cons_erase hj).symm, mem_sequence] at hkept'
  unfold competing at hkept hkept'
  rw [← slot_eq_slot.mpr ⟨hsigner, hnonce⟩] at hkept'
  exact Option.some.inj (hkept.symm.trans hkept')

/-- One signature on two amounts: the intent that arrives first is kept. -/
theorem order_decides :
    ∃ p mempool mempool', (∀ i ∈ mempool, ∀ j ∈ mempool,
        signatureHash p i = signatureHash p j → i.signature = j.signature) ∧
      mempool'.Perm mempool ∧ Sequencer.sequence p ⟨mempool'⟩ ≠ Sequencer.sequence p ⟨mempool⟩ := by
  refine ⟨plain, [aliceToBob 0 5 [1], aliceToBob 0 4 [1]], [aliceToBob 0 4 [1], aliceToBob 0 5 [1]],
    ?_, List.Perm.swap .., by decide +kernel⟩
  have hsignature : ∀ i ∈ [aliceToBob 0 5 [1], aliceToBob 0 4 [1]], i.signature = [1] := by
    simp [aliceToBob]
  intro i hi j hj _
  rw [hsignature i hi, hsignature j hj]

/-! ## Intents of others -/

def Verified (p : Primitives) (i : Intent) : Prop := verifyCryptography p i = .ok ()

instance decidableVerified (p : Primitives) : DecidablePred (Verified p) := fun i =>
  match h : verifyCryptography p i with
  | .ok _ => .isTrue h
  | .error _ => .isFalse fun h' => nomatch h.symm.trans h'

/-- Where a valid intent competes, the one that is kept is valid. -/
def KeepsValid (p : Primitives) (mempool : List Intent) : Prop :=
  ∀ i ∈ mempool, Verified p i → ∀ kept ∈ Sequencer.sequence p ⟨mempool⟩,
    kept.signer = i.signer → kept.nonce = i.nonce → Verified p kept

/-- A valid intent has a lower hash than every invalid one of the same signer and nonce, or the same
and arrived before it. -/
def ValidOutranks (p : Primitives) (mempool : List Intent) (i : Intent) : Prop :=
  ∃ before v after', competing mempool i = before ++ v :: after' ∧ Verified p v ∧
    (∀ j ∈ before, ¬ Verified p j → signatureHash p v < signatureHash p j) ∧
    ∀ j ∈ after', ¬ Verified p j → signatureHash p v ≤ signatureHash p j

section
variable {p : Primitives} {mempool : List Intent} {i : Intent}

theorem competing_congr {kept : Intent} (h : slot kept = slot i) :
    competing mempool kept = competing mempool i := by
  unfold competing
  rw [h]

theorem ValidOutranks.of_kept {kept : Intent} (hkept : kept ∈ Sequencer.sequence p ⟨mempool⟩)
    (hslot : slot kept = slot i) (hverified : Verified p kept) : ValidOutranks p mempool i := by
  rw [mem_sequence, competing_congr hslot] at hkept
  obtain ⟨before, after', heq, hbefore, hafter⟩ := argmin_eq_some_split hkept
  exact ⟨before, kept, after', heq, hverified, fun j hj _ => hbefore j hj, fun j hj _ => hafter j hj⟩

theorem ValidOutranks.verified {kept : Intent} (h : ValidOutranks p mempool i)
    (hkept : kept ∈ Sequencer.sequence p ⟨mempool⟩) (hslot : slot kept = slot i) :
    Verified p kept := by
  rw [mem_sequence, competing_congr hslot] at hkept
  obtain ⟨before, after', heq, hbefore, hafter⟩ := argmin_eq_some_split hkept
  obtain ⟨before', v, rest, heq', hverified, hlt, hle⟩ := h
  by_contra hinvalid
  rcases List.append_eq_append_iff.mp (heq.symm.trans heq') with ⟨mid, hb, ha⟩ | ⟨mid, hb, ha⟩
  · cases mid with
    | nil =>
      cases ha
      exact hinvalid hverified
    | cons x mid =>
      -- The kept intent came before the valid one, so its hash is higher.
      obtain ⟨rfl, rfl⟩ := List.cons.inj ha
      have hv := hlt kept (by rw [hb]; simp) hinvalid
      exact absurd (hafter v (by simp)) (not_le.mpr hv)
  · cases mid with
    | nil =>
      cases ha
      exact hinvalid hverified
    | cons x mid =>
      obtain ⟨rfl, rfl⟩ := List.cons.inj ha
      have hv := hle kept (by simp) hinvalid
      exact absurd (hbefore v (by rw [hb]; simp)) (not_lt.mpr hv)

end

/-- Nobody else pushes a valid intent out exactly where a valid one outranks the others. -/
theorem keepsValid_iff (p : Primitives) (mempool : List Intent) :
    KeepsValid p mempool ↔ ∀ i ∈ mempool, Verified p i → ValidOutranks p mempool i := by
  constructor
  · intro h i hi hverified
    obtain ⟨kept, hkept, hslot⟩ := exists_mem_sequence (p := p) hi
    obtain ⟨hsigner, hnonce⟩ := slot_eq_slot.mp hslot
    exact .of_kept hkept hslot (h i hi hverified kept hkept hsigner hnonce)
  · intro h i hi hverified kept hkept hsigner hnonce
    exact (h i hi hverified).verified hkept (slot_eq_slot.mpr ⟨hsigner, hnonce⟩)

/-- A forged intent with a lower hash takes the place of Alice's. -/
theorem forgery_pushes_out : ¬ KeepsValid plain [aliceToBob 0 4 [1], aliceToBob 0 9 [0]] := by
  intro h
  have hkept : aliceToBob 0 9 [0] ∈
      Sequencer.sequence plain ⟨[aliceToBob 0 4 [1], aliceToBob 0 9 [0]]⟩ := by decide +kernel
  have hforged := h (aliceToBob 0 4 [1]) List.mem_cons_self (by decide +kernel) _ hkept rfl rfl
  revert hforged
  decide +kernel

end SimpleL1.Kernel
