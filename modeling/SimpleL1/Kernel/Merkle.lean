import Mathlib.Data.List.Basic

/-!
# Merkle proofs

`generateProof` scans each level once and looks for the index in it while it replaces
the index by the one of the next level. The replaced index lies left of every pair still
to be scanned, so that a level adds one sibling to the proof and no more.
-/

namespace SimpleL1.Kernel.MerkleProofService

variable {α : Type} (hash : α → α → α)

/-! ## The service -/

/-- What the loop over one level leaves behind: the level above it, the proof and the index. -/
structure Level (α : Type) where
  next : List α
  proof : List α
  index : Nat

/-- The body of the `while` in `calculateRoot`. -/
def pairUp : List α → List α → List α
  | [], next => next
  | [left], next => next ++ [hash left left]
  | left :: right :: current, next => pairUp current (next ++ [hash left right])

/-- The step of `generateProof` at the pair `i`, `i + 1`. -/
def Level.visit (level : Level α) (i : Nat) (left right : α) : Level α :=
  if i = level.index ∨ i + 1 = level.index then
    { next := level.next ++ [hash left right]
      proof := level.proof ++ [if i = level.index then right else left]
      index := i / 2 }
  else
    { level with next := level.next ++ [hash left right] }

/-- The body of the `while` in `generateProof`, from the pair at `i` on. -/
def scan : List α → Nat → Level α → Level α
  | [], _, level => level
  | [left], i, level => level.visit hash i left left
  | left :: right :: current, i, level => scan current (i + 2) (level.visit hash i left right)

theorem length_pairUp (current next : List α) :
    (pairUp hash current next).length = next.length + (current.length + 1) / 2 := by
  fun_induction pairUp hash current next with
  | case1 => simp
  | case2 => simp
  | case3 left right current next ih =>
    simp only [ih, List.length_append, List.length_cons, List.length_nil]
    omega

@[simp] theorem next_visit (level : Level α) (i : Nat) (left right : α) :
    (level.visit hash i left right).next = level.next ++ [hash left right] := by
  unfold Level.visit
  split <;> rfl

/-- Both loops build the same levels. -/
theorem next_scan (current : List α) (i : Nat) (level : Level α) :
    (scan hash current i level).next = pairUp hash current level.next := by
  fun_induction scan hash current i level with
  | case1 => rfl
  | case2 => rw [next_visit]; rfl
  | case3 left right current i level ih => rw [ih, next_visit]; rfl

theorem length_next_scan (current : List α) (i index : Nat) (proof : List α) :
    (scan hash current i ⟨[], proof, index⟩).next.length = (current.length + 1) / 2 := by
  rw [next_scan, length_pairUp]
  simp

variable (zero : α)

def rootLoop (current : List α) : α :=
  if 1 < current.length then rootLoop (pairUp hash current []) else current.headD zero
termination_by current.length
decreasing_by
  rw [length_pairUp, List.length_nil]
  omega

/-- The root, which is the text `'0'` where there are no leaves. -/
def calculateRoot (leaves : List α) : α :=
  if leaves.isEmpty then zero else rootLoop hash zero leaves

def proofLoop (current : List α) (index : Nat) (proof : List α) : List α :=
  if 1 < current.length then
    let level := scan hash current 0 ⟨[], proof, index⟩
    proofLoop level.next level.index level.proof
  else
    proof
termination_by current.length
decreasing_by
  rw [length_next_scan]
  omega

def generateProof (leaves : List α) (index : Nat) : List α := proofLoop hash leaves index []

/-- The verifier's fold: the sibling stands on the right of an even index. -/
def foldProof : α → Nat → List α → α
  | node, _, [] => node
  | node, index, sibling :: proof =>
    foldProof (if index % 2 = 0 then hash node sibling else hash sibling node) (index / 2) proof

/-! ## One level -/

/-- The level above `current`. -/
def parents : List α → List α
  | [] => []
  | [left] => [hash left left]
  | left :: right :: current => hash left right :: parents current

/-- What stands beside the index in its pair; a last element without a partner stands
beside itself. -/
def sibling : List α → Nat → Option α
  | [], _ => none
  | [left], index => if index = 0 then some left else none
  | _ :: right :: _, 0 => some right
  | left :: _ :: _, 1 => some left
  | _ :: _ :: current, index + 2 => sibling current index

theorem pairUp_eq (current next : List α) :
    pairUp hash current next = next ++ parents hash current := by
  fun_induction pairUp hash current next with
  | case1 => simp [parents]
  | case2 => rfl
  | case3 left right current next ih => rw [ih, List.append_assoc]; rfl

theorem length_parents (current : List α) :
    (parents hash current).length = (current.length + 1) / 2 := by
  have h := length_pairUp hash current []
  rwa [pairUp_eq, List.nil_append, List.length_nil, Nat.zero_add] at h

/-- A pair right of the index changes neither the index nor the proof. -/
theorem visit_passed {level : Level α} {i : Nat} (h : level.index < i) (left right : α) :
    level.visit hash i left right = { level with next := level.next ++ [hash left right] } := by
  unfold Level.visit
  rw [if_neg (by omega)]

theorem scan_passed (current : List α) {i : Nat} {level : Level α} (h : level.index < i) :
    scan hash current i level = { level with next := pairUp hash current level.next } := by
  fun_induction scan hash current i level with
  | case1 => rfl
  | case2 => rw [visit_passed hash h]; rfl
  | case3 left right current i level ih =>
    rw [visit_passed hash h] at ih ⊢
    rw [ih (by dsimp only; omega)]
    rfl

/-- A whole level, when the index is still to come: it is found once, in its own pair, and
what replaces it is found in none of the pairs that follow. -/
theorem scan_found (current : List α) {i k : Nat} {level : Level α} (hi : i % 2 = 0)
    (h : level.index = i + k) (hk : k < current.length) :
    ∃ s, sibling current k = some s ∧ scan hash current i level =
      ⟨pairUp hash current level.next, level.proof ++ [s], level.index / 2⟩ := by
  fun_induction scan hash current i level generalizing k with
  | case1 => exact absurd hk (Nat.not_lt_zero k)
  | case2 left i level =>
    obtain rfl : k = 0 := by simpa using hk
    refine ⟨left, rfl, ?_⟩
    unfold Level.visit
    simp [h, pairUp]
  | case3 left right current i level ih =>
    match k, hk with
    | 0, _ =>
      refine ⟨right, rfl, ?_⟩
      have hv : level.visit hash i left right =
          ⟨level.next ++ [hash left right], level.proof ++ [right], i / 2⟩ := by
        have hhere : i = level.index := h.symm
        unfold Level.visit
        rw [if_pos (Or.inl hhere), if_pos hhere]
      rw [hv, scan_passed hash current (by dsimp only; omega), h]
      rfl
    | 1, _ =>
      refine ⟨left, rfl, ?_⟩
      have hv : level.visit hash i left right =
          ⟨level.next ++ [hash left right], level.proof ++ [left], i / 2⟩ := by
        have hhere : i + 1 = level.index := h.symm
        unfold Level.visit
        rw [if_pos (Or.inr hhere), if_neg (by omega)]
      rw [hv, scan_passed hash current (by dsimp only; omega), h]
      have hhalf : i / 2 = (i + 1) / 2 := by omega
      rw [hhalf]
      rfl
    | k + 2, hk =>
      have hv : level.visit hash i left right =
          { level with next := level.next ++ [hash left right] } := by
        unfold Level.visit
        rw [if_neg (by omega)]
      rw [hv] at ih ⊢
      obtain ⟨s, hs, hscan⟩ := @ih k (by omega) (by dsimp only; omega)
        (by simp only [List.length_cons] at hk; omega)
      exact ⟨s, hs, hscan⟩

/-- One step of the fold: from a node and its sibling to their parent. -/
theorem parents_half (current : List α) {k : Nat} {node s : α} (hn : current[k]? = some node)
    (hs : sibling current k = some s) :
    (parents hash current)[k / 2]? = some (if k % 2 = 0 then hash node s else hash s node) := by
  fun_induction sibling current k with
  | case1 => cases hn
  | case2 left =>
    cases hn
    cases hs
    rfl
  | case3 => cases hs
  | case4 left right current =>
    cases hn
    cases hs
    rfl
  | case5 left right current =>
    cases hn
    cases hs
    rfl
  | case6 left right current k ih =>
    have hhalf : (k + 2) / 2 = k / 2 + 1 := by omega
    have hparity : (k + 2) % 2 = k % 2 := by omega
    show (hash left right :: parents hash current)[(k + 2) / 2]? =
      some (if (k + 2) % 2 = 0 then hash node s else hash s node)
    rw [hhalf, hparity]
    exact ih hn hs

/-! ## All levels -/

/-- What an unfinished proof still lacks leads from the node to the root. -/
theorem proofLoop_spec (current : List α) (index : Nat) (proof : List α) {node : α}
    (h : current[index]? = some node) :
    ∃ rest, proofLoop hash current index proof = proof ++ rest ∧
      foldProof hash node index rest = rootLoop hash zero current := by
  fun_induction proofLoop hash current index proof generalizing node with
  | case1 current index proof hlen level =>
    rename_i ih
    obtain ⟨hk, -⟩ := List.getElem?_eq_some_iff.mp h
    obtain ⟨s, hs, hscan⟩ := @scan_found _ hash current 0 index ⟨[], proof, index⟩ rfl
      (Nat.zero_add index).symm hk
    rw [pairUp_eq, List.nil_append] at hscan
    have hlevel : level = ⟨parents hash current, proof ++ [s], index / 2⟩ := hscan
    rw [hlevel] at ih ⊢
    obtain ⟨rest, hrest, hroot⟩ := ih (parents_half hash current h hs)
    refine ⟨s :: rest, by rw [hrest, List.append_assoc]; rfl, ?_⟩
    rw [rootLoop, if_pos hlen, pairUp_eq, List.nil_append]
    exact hroot
  | case2 current index proof hlen =>
    refine ⟨[], (List.append_nil proof).symm, ?_⟩
    rw [rootLoop, if_neg hlen]
    match current, hlen with
    | [leaf], _ =>
      cases index with
      | zero => cases h; rfl
      | succ k => cases h
    | _ :: _ :: current, hlen =>
      simp only [List.length_cons] at hlen
      omega

/-- Folding the proof of a leaf over it gives the root. -/
theorem proof_leads_to_root (leaves : List α) (index : Nat) (h : index < leaves.length) :
    foldProof hash leaves[index] index (generateProof hash leaves index) =
      calculateRoot hash zero leaves := by
  obtain ⟨rest, hrest, hroot⟩ := proofLoop_spec hash zero leaves index []
    (List.getElem?_eq_getElem h)
  have hne : leaves.isEmpty = false := by
    rw [List.isEmpty_eq_false_iff]
    rintro rfl
    exact absurd h (Nat.not_lt_zero index)
  unfold generateProof calculateRoot
  rw [hrest, hne]
  exact hroot

/-- Three leaves: the last one is its own sibling at the bottom. -/
theorem proof_of_third :
    foldProof (fun left right => left ++ right) "c" 2
        (generateProof (fun left right => left ++ right) ["a", "b", "c"] 2) =
      calculateRoot (fun left right => left ++ right) "0" ["a", "b", "c"] :=
  proof_leads_to_root _ "0" ["a", "b", "c"] 2 (by decide)

end SimpleL1.Kernel.MerkleProofService
