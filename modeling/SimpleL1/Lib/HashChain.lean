import Mathlib.Data.List.Forall2
import Mathlib.Data.List.Induction
import Mathlib.Data.List.Nodup

/-!
# Hash chains

A chain starts at a genesis digest and links one block after the other:
`head link g bs` is the digest after the blocks `bs`. A `link` is binding when
equal digests come from equal predecessors and related blocks and no digest is
the genesis. Then the head commits to the whole chain, and no two prefixes of a
chain share a head.
-/

namespace SimpleL1.Lib.HashChain

variable {D B : Type*} {link : D → B → D} {g : D} {R : B → B → Prop}

/-- The digest after the blocks of a chain. -/
def head (link : D → B → D) (d : D) (bs : List B) : D := bs.foldl link d

@[simp] theorem head_nil (d : D) : head link d [] = d := rfl

@[simp] theorem head_cons (d : D) (b : B) (bs : List B) :
    head link d (b :: bs) = head link (link d b) bs := rfl

theorem head_append (d : D) (bs cs : List B) :
    head link d (bs ++ cs) = head link (head link d bs) cs := List.foldl_append

theorem head_snoc (d : D) (bs : List B) (b : B) :
    head link d (bs ++ [b]) = link (head link d bs) b := by rw [head_append]; rfl

/-- The digest after each block. -/
def heads (link : D → B → D) (d : D) : List B → List D
  | [] => []
  | b :: bs => link d b :: heads link (link d b) bs

theorem length_heads (d : D) (bs : List B) : (heads link d bs).length = bs.length := by
  induction bs generalizing d with
  | nil => rfl
  | cons b bs ih => rw [heads, List.length_cons, List.length_cons, ih]

theorem getElem_heads (d : D) (bs : List B) (i : Nat) (h : i < (heads link d bs).length) :
    (heads link d bs)[i] = head link d (bs.take (i + 1)) := by
  induction bs generalizing d i with
  | nil => cases h
  | cons b bs ih =>
    cases i with
    | zero => rfl
    | succ i => exact ih (link d b) i (by simpa [heads] using h)

/-- Related blocks with one link each give one list of digests. -/
theorem heads_congr (hlink : ∀ d b c, R b c → link d b = link d c) {bs cs : List B}
    (h : List.Forall₂ R bs cs) (d : D) : heads link d bs = heads link d cs := by
  induction h generalizing d with
  | nil => rfl
  | cons hbc _ ih => rw [heads, heads, hlink d _ _ hbc, ih]

/-- Equal digests come from one predecessor and related blocks, and none is the genesis. -/
structure Binding (link : D → B → D) (g : D) (R : B → B → Prop) : Prop where
  separates : ∀ {d e b c}, link d b = link e c → d = e ∧ R b c
  ne_genesis : ∀ d b, link d b ≠ g

namespace Binding

/-- Chains with one head have related blocks, position by position. -/
theorem commits (h : Binding link g R) {bs cs : List B} (heq : head link g bs = head link g cs) :
    List.Forall₂ R bs cs := by
  induction bs using List.reverseRecOn generalizing cs with
  | nil =>
    rcases cs.eq_nil_or_concat' with rfl | ⟨cs, c, rfl⟩
    · exact .nil
    · rw [head_snoc] at heq; exact absurd heq.symm (h.ne_genesis _ _)
  | append_singleton bs b ih =>
    rcases cs.eq_nil_or_concat' with rfl | ⟨cs, c, rfl⟩
    · rw [head_snoc] at heq; exact absurd heq (h.ne_genesis _ _)
    · rw [head_snoc, head_snoc] at heq
      obtain ⟨hd, hbc⟩ := h.separates heq
      exact List.rel_append (ih hd) (.cons hbc .nil)

theorem length_eq (h : Binding link g R) {bs cs : List B}
    (heq : head link g bs = head link g cs) : bs.length = cs.length :=
  (h.commits heq).length_eq

/-- No digest of a chain comes twice. -/
theorem nodup_heads (h : Binding link g R) (bs : List B) : (heads link g bs).Nodup := by
  rw [List.nodup_iff_injective_get]
  rintro ⟨i, hi⟩ ⟨j, hj⟩ heq
  simp only [List.get_eq_getElem, getElem_heads] at heq
  have hlen := h.length_eq heq
  rw [length_heads] at hi hj
  simp only [List.length_take] at hlen
  congr 1
  omega

end Binding

end SimpleL1.Lib.HashChain
