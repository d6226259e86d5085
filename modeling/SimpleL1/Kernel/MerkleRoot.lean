import Mathlib.Algebra.Free
import Mathlib.Data.Nat.Log
import Mathlib.Tactic.Ring
import SimpleL1.Kernel.Merkle

/-!
# What a Merkle root commits to

A level of odd length repeats its last node, and neither the length nor the height goes
into the hash. `padded` writes the repetition out over the leaves: the root commits to
`padded leaves` and to nothing more.
-/

namespace SimpleL1.Kernel.MerkleProofService

variable {α : Type}

/-! ## Padding -/

/-- The leaves after the level whose nodes stand over `block` leaves each: of an odd
number of nodes the last one is there twice. -/
def padLevel (block : Nat) (leaves : List α) : List α :=
  if leaves.length / block % 2 = 1 then leaves ++ leaves.drop (leaves.length - block) else leaves

theorem length_padLevel {block : Nat} {leaves : List α} (h : block ≤ leaves.length) :
    (padLevel block leaves).length =
      leaves.length + leaves.length / block % 2 * block := by
  unfold padLevel
  split
  case isTrue hodd =>
    rw [hodd, List.length_append, List.length_drop]
    omega
  case isFalse heven =>
    have hzero : leaves.length / block % 2 = 0 := by omega
    rw [hzero, Nat.zero_mul, Nat.add_zero]

theorem le_length_of_blocks {block : Nat} {leaves : List α} (h : 1 < leaves.length / block) :
    block ≤ leaves.length := by
  by_contra hlt
  rw [Nat.div_eq_of_lt (by omega)] at h
  omega

/-- A level has half as many nodes as the one below it, rounded up. -/
theorem blocks_padLevel {block : Nat} {leaves : List α} (h : 1 < leaves.length / block) :
    (padLevel block leaves).length / (2 * block) = (leaves.length / block + 1) / 2 := by
  have hpos : 0 < block := by
    rcases Nat.eq_zero_or_pos block with rfl | hpos
    · rw [Nat.div_zero] at h
      omega
    · exact hpos
  rw [length_padLevel (le_length_of_blocks h), Nat.mul_comm 2 block, ← Nat.div_div_eq_div_mul,
    Nat.add_mul_div_right _ _ hpos]
  omega

/-- The levels of the tree from the one over `block` leaves on. -/
def padLoop (block : Nat) (leaves : List α) : List α :=
  if 1 < leaves.length / block then padLoop (2 * block) (padLevel block leaves) else leaves
termination_by leaves.length / block
decreasing_by
  rw [blocks_padLevel (by assumption)]
  omega

/-- The leaves with every repetition written out, level by level from the bottom. -/
def padded (leaves : List α) : List α := padLoop 1 leaves

theorem prefix_padLevel (block : Nat) (leaves : List α) : leaves <+: padLevel block leaves := by
  unfold padLevel
  split
  · exact List.prefix_append leaves _
  · exact List.prefix_rfl

theorem prefix_padLoop (block : Nat) (leaves : List α) : leaves <+: padLoop block leaves := by
  fun_induction padLoop block leaves with
  | case1 block leaves _ ih => exact (prefix_padLevel block leaves).trans ih
  | case2 => exact List.prefix_rfl

theorem prefix_padded (leaves : List α) : leaves <+: padded leaves := prefix_padLoop 1 leaves

theorem mem_padLevel {block : Nat} {leaves : List α} {x : α} (h : x ∈ padLevel block leaves) :
    x ∈ leaves := by
  unfold padLevel at h
  split at h
  · exact (List.mem_append.mp h).elim id List.mem_of_mem_drop
  · exact h

theorem mem_padLoop {block : Nat} {leaves : List α} {x : α} (h : x ∈ padLoop block leaves) :
    x ∈ leaves := by
  fun_induction padLoop block leaves with
  | case1 block leaves _ ih => exact mem_padLevel (ih h)
  | case2 => exact h

theorem mem_padded {leaves : List α} {x : α} (h : x ∈ padded leaves) : x ∈ leaves := mem_padLoop h

theorem padded_ne_nil {leaves : List α} (h : leaves ≠ []) : padded leaves ≠ [] := by
  intro hnil
  have hextends := prefix_padded leaves
  rw [hnil] at hextends
  exact h (List.prefix_nil.mp hextends)

/-- Every level ends with a whole number of pairs. -/
theorem dvd_padLevel {j : Nat} {leaves : List α} (hdvd : 2 ^ j ∣ leaves.length)
    (h : 1 < leaves.length / 2 ^ j) : 2 ^ (j + 1) ∣ (padLevel (2 ^ j) leaves).length := by
  obtain ⟨q, hq⟩ := hdvd
  have hblocks : leaves.length / 2 ^ j = q := by
    rw [hq, Nat.mul_div_cancel_left _ (Nat.two_pow_pos j)]
  rw [length_padLevel (le_length_of_blocks h), hblocks, hq]
  refine ⟨(q + 1) / 2, ?_⟩
  have hround : q + q % 2 = 2 * ((q + 1) / 2) := by omega
  calc 2 ^ j * q + q % 2 * 2 ^ j = 2 ^ j * (q + q % 2) := by ring
    _ = 2 ^ (j + 1) * ((q + 1) / 2) := by rw [hround]; ring

theorem length_padLoop {block j : Nat} (hblock : block = 2 ^ j) {leaves : List α}
    (hdvd : block ∣ leaves.length) (hne : leaves ≠ []) :
    ∃ k, (padLoop block leaves).length = 2 ^ k := by
  fun_induction padLoop block leaves generalizing j with
  | case1 block leaves h ih =>
    subst hblock
    have hpad : padLevel (2 ^ j) leaves ≠ [] := by
      intro hnil
      have hextends := prefix_padLevel (2 ^ j) leaves
      rw [hnil] at hextends
      exact hne (List.prefix_nil.mp hextends)
    have hdouble : 2 * 2 ^ j = 2 ^ (j + 1) := by rw [Nat.pow_succ, Nat.mul_comm]
    exact ih hdouble (hdouble ▸ dvd_padLevel hdvd h) hpad
  | case2 block leaves h =>
    obtain ⟨q, hq⟩ := hdvd
    have hpos : 0 < leaves.length := List.length_pos_iff.mpr hne
    rw [hq, Nat.mul_div_cancel_left _ (hblock ▸ Nat.two_pow_pos j)] at h
    obtain rfl : q = 1 := by
      rcases Nat.eq_zero_or_pos q with rfl | hq'
      · rw [Nat.mul_zero] at hq
        omega
      · omega
    exact ⟨j, by rw [hq, Nat.mul_one, hblock]⟩

theorem length_padded {leaves : List α} (hne : leaves ≠ []) :
    ∃ k, (padded leaves).length = 2 ^ k :=
  length_padLoop (Nat.pow_zero 2).symm (Nat.one_dvd _) hne

/-! ## Padding keeps the root -/

variable (hash : α → α → α)

theorem parents_append {xs : List α} (h : xs.length % 2 = 0) (ys : List α) :
    parents hash (xs ++ ys) = parents hash xs ++ parents hash ys := by
  fun_induction parents hash xs with
  | case1 => rfl
  | case2 => simp only [List.length_cons, List.length_nil] at h; omega
  | case3 left right xs ih =>
    simp only [List.length_cons] at h
    rw [List.cons_append, List.cons_append, parents, ih (by omega), List.cons_append]

theorem parents_drop (k : Nat) (xs : List α) :
    parents hash (xs.drop (2 * k)) = (parents hash xs).drop k := by
  induction k generalizing xs with
  | zero => rfl
  | succ k ih =>
    match xs with
    | [] => simp [parents]
    | [_] => simp [parents, Nat.mul_add]
    | left :: right :: xs =>
      show parents hash ((left :: right :: xs).drop (2 * k + 2)) = _
      rw [List.drop_succ_cons, List.drop_succ_cons, ih, parents, List.drop_succ_cons]

/-- The last node of an odd level is paired with itself either way. -/
theorem parents_repeat {xs : List α} (h : xs.length % 2 = 1) :
    parents hash (xs ++ xs.drop (xs.length - 1)) = parents hash xs := by
  fun_induction parents hash xs with
  | case1 => cases h
  | case2 => rfl
  | case3 left right xs ih =>
    simp only [List.length_cons] at h
    obtain ⟨n, hn⟩ : ∃ n, xs.length = n + 1 := ⟨xs.length - 1, by omega⟩
    have hlast : (left :: right :: xs).drop ((left :: right :: xs).length - 1) =
        xs.drop (xs.length - 1) := by
      simp only [List.length_cons, hn]
      rfl
    rw [hlast, List.cons_append, List.cons_append, parents, ih (by omega)]

variable (zero : α)

theorem rootLoop_parents {leaves : List α} (h : 1 < leaves.length) :
    rootLoop hash zero leaves = rootLoop hash zero (parents hash leaves) := by
  rw [rootLoop, if_pos h, pairUp_eq, List.nil_append]

/-- A level of the padding changes the level of the tree it belongs to and none above. -/
theorem rootLoop_padLevel (j : Nat) {leaves : List α} (hdvd : 2 ^ j ∣ leaves.length)
    (h : 1 < leaves.length / 2 ^ j) :
    rootLoop hash zero (padLevel (2 ^ j) leaves) = rootLoop hash zero leaves := by
  unfold padLevel
  split
  case isFalse => rfl
  case isTrue hodd =>
    induction j generalizing leaves with
    | zero =>
      rw [Nat.pow_zero, Nat.div_one] at h hodd
      rw [rootLoop_parents hash zero h, rootLoop_parents hash zero (by
        rw [List.length_append]; omega), Nat.pow_zero, parents_repeat hash hodd]
    | succ j ih =>
      obtain ⟨q, hq⟩ := hdvd
      have hpos := Nat.two_pow_pos j
      have hq' : leaves.length = 2 * (2 ^ j * q) := by rw [hq]; ring
      have hlong : 1 < leaves.length := by
        rw [hq, Nat.mul_div_cancel_left _ (Nat.two_pow_pos _)] at h
        have := Nat.mul_le_mul hpos h
        omega
      have hup : (parents hash leaves).length = 2 ^ j * q := by
        rw [length_parents]
        omega
      have hblocks : (parents hash leaves).length / 2 ^ j = leaves.length / 2 ^ (j + 1) := by
        rw [hup, hq, Nat.mul_div_cancel_left _ hpos, Nat.mul_div_cancel_left _ (Nat.two_pow_pos _)]
      have hhalf : leaves.length - 2 ^ (j + 1) = 2 * ((parents hash leaves).length - 2 ^ j) := by
        rw [hup, hq', Nat.pow_succ]
        omega
      rw [rootLoop_parents hash zero hlong, rootLoop_parents hash zero (by
        rw [List.length_append]; omega), parents_append hash (by omega), hhalf, parents_drop]
      exact ih ⟨q, hup⟩ (by rw [hblocks]; exact h) (by rw [hblocks]; exact hodd)

theorem rootLoop_padLoop {block j : Nat} (hblock : block = 2 ^ j) {leaves : List α}
    (hdvd : block ∣ leaves.length) :
    rootLoop hash zero (padLoop block leaves) = rootLoop hash zero leaves := by
  fun_induction padLoop block leaves generalizing j with
  | case1 block leaves h ih =>
    subst hblock
    have hdouble : 2 * 2 ^ j = 2 ^ (j + 1) := by rw [Nat.pow_succ, Nat.mul_comm]
    rw [ih hdouble (hdouble ▸ dvd_padLevel hdvd h), rootLoop_padLevel hash zero j hdvd h]
  | case2 => rfl

theorem rootLoop_padded (leaves : List α) :
    rootLoop hash zero (padded leaves) = rootLoop hash zero leaves :=
  rootLoop_padLoop hash zero (Nat.pow_zero 2).symm (Nat.one_dvd _)

/-! ## An injective hash -/

theorem parents_ne_nil {xs : List α} (h : xs ≠ []) : parents hash xs ≠ [] := by
  rw [← List.length_pos_iff] at h ⊢
  rw [length_parents]
  omega

theorem levels_ne_nil {xs : List α} (h : xs ≠ []) (k : Nat) :
    (parents hash)^[k] xs ≠ [] := by
  induction k with
  | zero => exact h
  | succ k ih =>
    rw [Function.iterate_succ_apply']
    exact parents_ne_nil hash ih

/-- The root is the first node of the level where there is one node left. -/
theorem rootLoop_eq (leaves : List α) :
    rootLoop hash zero leaves =
      ((parents hash)^[Nat.clog 2 leaves.length] leaves).headD zero := by
  fun_induction rootLoop hash zero leaves with
  | case1 leaves h ih =>
    rw [pairUp_eq, List.nil_append] at ih
    rw [pairUp_eq, List.nil_append, ih, length_parents, Nat.clog_of_two_le (by omega) h]
    rfl
  | case2 leaves h => rw [Nat.clog_of_right_le_one (by omega)]; rfl

/-- The first node of a level is made of the first node of the level below. -/
theorem headD_parents {xs : List α} (h : xs ≠ []) :
    ∃ right, (parents hash xs).headD zero = hash (xs.headD zero) right := by
  match xs, h with
  | [left], _ => exact ⟨left, rfl⟩
  | left :: right :: _, _ => exact ⟨right, rfl⟩

variable {hash} (hinj : ∀ a b c d, hash a b = hash c d → a = c ∧ b = d)

include hinj

theorem parents_injective {xs ys : List α} (hlen : xs.length = ys.length)
    (h : parents hash xs = parents hash ys) : xs = ys := by
  fun_induction parents hash xs generalizing ys with
  | case1 => exact (List.eq_nil_of_length_eq_zero hlen.symm).symm
  | case2 a =>
    match ys, hlen with
    | [b], _ =>
      obtain ⟨rfl, -⟩ := hinj _ _ _ _ (List.cons.inj h).1
      rfl
  | case3 a b xs ih =>
    match ys, hlen with
    | c :: d :: ys, hlen =>
      obtain ⟨hnode, hrest⟩ := List.cons.inj h
      obtain ⟨rfl, rfl⟩ := hinj _ _ _ _ hnode
      simp only [List.length_cons] at hlen
      rw [ih (by omega) hrest]

/-- Among the lists of one length the root determines the list. -/
theorem rootLoop_injective {xs ys : List α} (hlen : xs.length = ys.length) (hne : xs ≠ [])
    (h : rootLoop hash zero xs = rootLoop hash zero ys) : xs = ys := by
  fun_induction rootLoop hash zero xs generalizing ys with
  | case1 xs hlong ih =>
    rw [pairUp_eq, List.nil_append] at ih h
    rw [rootLoop_parents hash zero (hlen ▸ hlong : 1 < ys.length)] at h
    refine parents_injective hinj hlen (ih ?_ (parents_ne_nil hash hne) h)
    rw [length_parents, length_parents, hlen]
  | case2 xs hshort =>
    match xs, ys, hlen, hne, hshort with
    | [a], [b], _, _, _ =>
      rw [rootLoop, if_neg (show ¬1 < [b].length from Nat.lt_irrefl 1)] at h
      rw [show a = b from h]
    | _ :: _ :: _, _, _, _, hshort =>
      simp only [List.length_cons] at hshort
      omega

/-- Equal nodes have equal nodes under them, as far down as both trees go. -/
theorem heads_down (d : Nat) {xs ys : List α} (e : Nat) (hx : xs ≠ []) (hy : ys ≠ [])
    (h : ((parents hash)^[d] xs).headD zero = ((parents hash)^[e + d] ys).headD zero) :
    xs.headD zero = ((parents hash)^[e] ys).headD zero := by
  induction d with
  | zero => exact h
  | succ d ih =>
    rw [Function.iterate_succ_apply', ← Nat.add_assoc, Function.iterate_succ_apply'] at h
    obtain ⟨_, hleft⟩ := headD_parents hash zero (levels_ne_nil hash hx d)
    obtain ⟨_, hright⟩ := headD_parents hash zero (levels_ne_nil hash hy (e + d))
    rw [hleft, hright] at h
    exact ih (hinj _ _ _ _ h).1

/-- Where no leaf is a hash, equal roots stand at one height: a lower tree would have a
leaf where the higher one has a node. -/
theorem clog_le_of_rootLoop_eq {xs ys : List α} (hx : xs ≠ []) (hy : ys ≠ [])
    (hfresh : ∀ a b, hash a b ∉ xs) (h : rootLoop hash zero xs = rootLoop hash zero ys) :
    Nat.clog 2 ys.length ≤ Nat.clog 2 xs.length := by
  by_contra hlt
  obtain ⟨e, he⟩ : ∃ e, Nat.clog 2 ys.length = e + 1 + Nat.clog 2 xs.length :=
    ⟨Nat.clog 2 ys.length - Nat.clog 2 xs.length - 1, by omega⟩
  rw [rootLoop_eq, rootLoop_eq, he] at h
  have hleaf := heads_down zero hinj _ (e + 1) hx hy h
  rw [Function.iterate_succ_apply'] at hleaf
  obtain ⟨right, hnode⟩ := headD_parents hash zero (levels_ne_nil hash hy e)
  rw [hnode] at hleaf
  have hhead : xs.headD zero ∈ xs := by
    match xs, hx with
    | x :: xs, _ => exact List.mem_cons_self
  rw [hleaf] at hhead
  exact hfresh _ _ hhead

theorem padded_eq_of_rootLoop_eq {xs ys : List α} (hx : xs ≠ []) (hy : ys ≠ [])
    (hfresh : ∀ a b, hash a b ∉ xs ∧ hash a b ∉ ys)
    (h : rootLoop hash zero xs = rootLoop hash zero ys) : padded xs = padded ys := by
  rw [← rootLoop_padded hash zero xs, ← rootLoop_padded hash zero ys] at h
  have hfx : ∀ a b, hash a b ∉ padded xs := fun a b hm => (hfresh a b).1 (mem_padded hm)
  have hfy : ∀ a b, hash a b ∉ padded ys := fun a b hm => (hfresh a b).2 (mem_padded hm)
  have hle := clog_le_of_rootLoop_eq zero hinj (padded_ne_nil hx) (padded_ne_nil hy) hfx h
  have hge := clog_le_of_rootLoop_eq zero hinj (padded_ne_nil hy) (padded_ne_nil hx) hfy h.symm
  obtain ⟨k, hk⟩ := length_padded hx
  obtain ⟨l, hl⟩ := length_padded hy
  rw [hk, hl, Nat.clog_pow 2 _ (by omega), Nat.clog_pow 2 _ (by omega)] at hle hge
  obtain rfl : k = l := Nat.le_antisymm hge hle
  exact rootLoop_injective zero hinj (hk.trans hl.symm) (padded_ne_nil hx) h

omit hinj in
theorem calculateRoot_eq {leaves : List α} (hne : leaves ≠ []) :
    calculateRoot hash zero leaves = rootLoop hash zero leaves := by
  unfold calculateRoot
  rw [List.isEmpty_eq_false_iff.mpr hne]
  rfl

theorem calculateRoot_eq_iff {xs ys : List α} (hx : xs ≠ []) (hy : ys ≠ [])
    (hfresh : ∀ a b, hash a b ∉ xs ∧ hash a b ∉ ys) :
    calculateRoot hash zero xs = calculateRoot hash zero ys ↔ padded xs = padded ys := by
  rw [calculateRoot_eq zero hx, calculateRoot_eq zero hy]
  refine ⟨padded_eq_of_rootLoop_eq zero hinj hx hy hfresh, fun h => ?_⟩
  rw [← rootLoop_padded hash zero xs, h, rootLoop_padded hash zero ys]

/-- Leaves that are all different are committed to: a longer list would have to end with
leaves it has already. -/
theorem distinct_leaves_determined {xs ys : List α} (hx : xs ≠ []) (hy : ys ≠ [])
    (hfresh : ∀ a b, hash a b ∉ xs ∧ hash a b ∉ ys) (hxs : xs.Nodup) (hys : ys.Nodup)
    (h : calculateRoot hash zero xs = calculateRoot hash zero ys) : xs = ys := by
  have hpad := (calculateRoot_eq_iff zero hinj hx hy hfresh).mp h
  have hsame : xs.Perm ys := by
    refine (List.perm_ext_iff_of_nodup hxs hys).mpr fun a => ⟨fun ha => ?_, fun ha => ?_⟩
    · exact mem_padded (hpad ▸ (prefix_padded xs).subset ha)
    · exact mem_padded (hpad ▸ (prefix_padded ys).subset ha)
  rw [calculateRoot_eq zero hx, calculateRoot_eq zero hy] at h
  exact rootLoop_injective zero hinj hsame.length_eq hx h

/-- The root of two lists is one exactly when the lists are one after padding; the shorter
of the two then begins the longer, so that lists of one length are equal. -/
theorem root_commits_to_padding {xs ys : List α} (hx : xs ≠ []) (hy : ys ≠ [])
    (hfresh : ∀ a b, hash a b ∉ xs ∧ hash a b ∉ ys) :
    (calculateRoot hash zero xs = calculateRoot hash zero ys ↔ padded xs = padded ys) ∧
      (calculateRoot hash zero xs = calculateRoot hash zero ys →
        xs.length ≤ ys.length → xs <+: ys) ∧
      (calculateRoot hash zero xs = calculateRoot hash zero ys →
        xs.length = ys.length → xs = ys) := by
  have hiff := calculateRoot_eq_iff zero hinj hx hy hfresh
  have hextends (h : calculateRoot hash zero xs = calculateRoot hash zero ys)
      (hle : xs.length ≤ ys.length) : xs <+: ys := by
    have hbegin : ys <+: padded xs := by
      rw [hiff.mp h]
      exact prefix_padded ys
    exact List.prefix_of_prefix_length_le (prefix_padded xs) hbegin hle
  exact ⟨hiff, hextends, fun h hlen => (hextends h hlen.le).eq_of_length hlen⟩

omit hinj in
theorem freeMagma_pair (a b c d : FreeMagma Nat) (h : a * b = c * d) : a = c ∧ b = d := by
  injection h with hleft hright
  exact ⟨hleft, hright⟩

omit hinj in
theorem freeMagma_fresh (leaves : List Nat) (a b : FreeMagma Nat) :
    a * b ∉ leaves.map FreeMagma.of := by
  intro hmem
  obtain ⟨n, -, hn⟩ := List.mem_map.mp hmem
  cases hn

omit hinj in
/-- Free pairs as hashes. -/
theorem third_leaf_padded :
    ((calculateRoot (· * ·) (FreeMagma.of 0) ([1, 2, 3].map FreeMagma.of) =
        calculateRoot (· * ·) (FreeMagma.of 0) ([1, 2, 3, 3].map FreeMagma.of)) ↔
      padded ([1, 2, 3].map (FreeMagma.of : Nat → FreeMagma Nat)) = padded ([1, 2, 3, 3].map FreeMagma.of)) :=
  (root_commits_to_padding (FreeMagma.of 0) freeMagma_pair (by decide) (by decide)
    fun a b => ⟨freeMagma_fresh _ a b, freeMagma_fresh _ a b⟩).1

omit hinj in
/-- A third leaf alone and the same leaf twice: two lists with one root. -/
theorem repeated_leaf_collides :
    ¬ ∀ (α : Type) (hash : α → α → α) (zero : α) (xs ys : List α),
      (∀ a b c d, hash a b = hash c d → a = c ∧ b = d) →
      (∀ a b, hash a b ∉ xs ∧ hash a b ∉ ys) → xs ≠ [] → ys ≠ [] →
      calculateRoot hash zero xs = calculateRoot hash zero ys → xs = ys := by
  intro h
  have hroots : calculateRoot (· * ·) (FreeMagma.of 0) ([1, 2, 3].map FreeMagma.of) =
      calculateRoot (· * ·) (FreeMagma.of 0) ([1, 2, 3, 3].map (FreeMagma.of : Nat → FreeMagma Nat)) := by
    simp [calculateRoot, rootLoop, pairUp]
  have heq := h (FreeMagma Nat) (· * ·) (FreeMagma.of 0) _ _ freeMagma_pair
    (fun a b => ⟨freeMagma_fresh _ a b, freeMagma_fresh _ a b⟩) (by decide) (by decide) hroots
  have hlen := congrArg List.length heq
  simp at hlen

end SimpleL1.Kernel.MerkleProofService
