import Mathlib.Data.List.Basic

/-!
# Catching up with a chain of blocks

A machine executes blocks; its height goes up with what a block achieves, and a
block that does not raise it leaves the state as it was. A list of blocks presents
a chain when its blocks, executed one after another, give the blocks of the chain
with idle blocks in between. A part of one presentation, cut out by height, takes
up where another one ends.
-/

namespace SimpleL1.Lib

structure BlockMachine (σ β : Type) where
  exec : σ → β → Option σ
  height : σ → Nat
  blockHeight : β → Nat
  mono : ∀ {s s' : σ} {b : β}, exec s b = some s' → height s ≤ height s'
  idle : ∀ {s s' : σ} {b : β}, exec s b = some s' → height s' = height s → s' = s

namespace BlockMachine

variable {σ β : Type} (m : BlockMachine σ β)

def run (s : σ) (blocks : List β) : Option σ := blocks.foldlM m.exec s

/-- From the state `s` the blocks give the chain, and the state at its end. -/
inductive Presents : σ → List β → List β → σ → Prop where
  | nil (s : σ) : Presents s [] [] s
  | idle {s t : σ} {b : β} {blocks chain : List β} : m.exec s b = some s →
      m.blockHeight b = m.height s → Presents s blocks chain t → Presents s (b :: blocks) chain t
  | advance {s s' t : σ} {b : β} {blocks chain : List β} : m.exec s b = some s' →
      m.height s < m.height s' → m.blockHeight b = m.height s' → Presents s' blocks chain t →
      Presents s (b :: blocks) (b :: chain) t

/-- The blocks of the chain up to the height `n`. -/
def upTo (chain : List β) (n : Nat) : List β := chain.filter (m.blockHeight · ≤ n)

/-- The blocks above the height `a`, up to the height `e`. -/
def between (blocks : List β) (a e : Nat) : List β :=
  blocks.filter fun b => a < m.blockHeight b ∧ m.blockHeight b ≤ e

variable {m} {s t u : σ} {b : β} {blocks blocks' chain chain' : List β} {a e n : Nat}

theorem run_cons : m.run s (b :: blocks) = (m.exec s b).bind fun s' => m.run s' blocks := rfl

theorem run_append : m.run s (blocks ++ blocks') = (m.run s blocks).bind fun s' => m.run s' blocks' :=
  List.foldlM_append

theorem upTo_cons_of_le (h : m.blockHeight b ≤ n) :
    m.upTo (b :: chain) n = b :: m.upTo chain n := by
  simp [upTo, h]

theorem upTo_cons_of_lt (h : n < m.blockHeight b) : m.upTo (b :: chain) n = m.upTo chain n := by
  simp [upTo, Nat.not_le.mpr h]

theorem between_cons_of_mem (h : a < m.blockHeight b ∧ m.blockHeight b ≤ e) :
    m.between (b :: blocks) a e = b :: m.between blocks a e := by
  simp [between, h]

theorem between_cons_of_not (h : ¬ (a < m.blockHeight b ∧ m.blockHeight b ≤ e)) :
    m.between (b :: blocks) a e = m.between blocks a e := by
  unfold between
  exact List.filter_cons_of_neg (by simpa using h)

theorem between_eq_nil (h : ∀ b ∈ blocks, e < m.blockHeight b) : m.between blocks a e = [] := by
  refine List.filter_eq_nil_iff.mpr fun b hb hin => ?_
  have := h b hb
  have := of_decide_eq_true hin
  omega

namespace Presents

theorem append (h : m.Presents s blocks chain t) (h' : m.Presents t blocks' chain' u) :
    m.Presents s (blocks ++ blocks') (chain ++ chain') u := by
  induction h with
  | nil s => exact h'
  | idle hexec hheight _ ih => exact .idle hexec hheight (ih h')
  | advance hexec hlt hheight _ ih => exact .advance hexec hlt hheight (ih h')

/-- A block that is executed, with the height it leaves. -/
theorem single (hexec : m.exec s b = some t) (hheight : m.blockHeight b = m.height t) :
    (m.height t = m.height s ∧ m.Presents s [b] [] t) ∨
      (m.height s < m.height t ∧ m.Presents s [b] [b] t) := by
  rcases Nat.lt_or_eq_of_le (m.mono hexec) with hlt | heq
  · exact .inr ⟨hlt, .advance hexec hlt hheight (.nil t)⟩
  · have hidle := m.idle hexec heq.symm
    subst hidle
    exact .inl ⟨rfl, .idle hexec hheight (.nil t)⟩

theorem height_le (h : m.Presents s blocks chain t) : m.height s ≤ m.height t := by
  induction h with
  | nil s => exact Nat.le_refl _
  | idle _ _ _ ih => exact ih
  | advance _ hlt _ _ ih => omega

theorem le_blockHeight (h : m.Presents s blocks chain t) :
    ∀ b ∈ blocks, m.height s ≤ m.blockHeight b := by
  induction h with
  | nil s => exact nofun
  | idle _ hheight _ ih => exact List.forall_mem_cons.mpr ⟨by omega, ih⟩
  | advance _ hlt hheight _ ih =>
    refine List.forall_mem_cons.mpr ⟨by omega, fun b hb => ?_⟩
    have := ih b hb
    omega

theorem blockHeight_le (h : m.Presents s blocks chain t) :
    ∀ b ∈ blocks, m.blockHeight b ≤ m.height t := by
  induction h with
  | nil s => exact nofun
  | idle _ hheight hrest ih =>
    have := hrest.height_le
    exact List.forall_mem_cons.mpr ⟨by omega, ih⟩
  | advance _ _ hheight hrest ih =>
    have := hrest.height_le
    exact List.forall_mem_cons.mpr ⟨by omega, ih⟩

theorem lt_blockHeight (h : m.Presents s blocks chain t) :
    ∀ b ∈ chain, m.height s < m.blockHeight b := by
  induction h with
  | nil s => exact nofun
  | idle _ _ _ ih => exact ih
  | advance _ hlt hheight _ ih =>
    refine List.forall_mem_cons.mpr ⟨by omega, fun b hb => ?_⟩
    have := ih b hb
    omega

theorem sorted (h : m.Presents s blocks chain t) :
    chain.Pairwise fun b b' => m.blockHeight b < m.blockHeight b' := by
  induction h with
  | nil s => exact .nil
  | idle _ _ _ ih => exact ih
  | advance _ _ hheight hrest ih =>
    exact List.pairwise_cons.mpr ⟨fun b hb => hheight ▸ hrest.lt_blockHeight b hb, ih⟩

theorem chain_le (h : m.Presents s blocks chain t) :
    ∀ b ∈ chain, m.blockHeight b ≤ m.height t := by
  induction h with
  | nil s => exact nofun
  | idle _ _ _ ih => exact ih
  | advance _ _ hheight hrest ih =>
    have := hrest.height_le
    exact List.forall_mem_cons.mpr ⟨by omega, ih⟩

theorem run_chain (h : m.Presents s blocks chain t) : m.run s chain = some t := by
  induction h with
  | nil s => rfl
  | idle _ _ _ ih => exact ih
  | advance hexec _ _ _ ih =>
    rw [run_cons, hexec]
    exact ih

theorem run_blocks (h : m.Presents s blocks chain t) : m.run s blocks = some t := by
  induction h with
  | nil s => rfl
  | idle hexec _ _ ih =>
    rw [run_cons, hexec]
    exact ih
  | advance hexec _ _ _ ih =>
    rw [run_cons, hexec]
    exact ih

/-- The height is that of the last block of the chain. -/
theorem height_eq (h : m.Presents s blocks chain t) :
    (chain = [] ∧ t = s) ∨ ∃ b ∈ chain, m.blockHeight b = m.height t := by
  induction h with
  | nil s => exact .inl ⟨rfl, rfl⟩
  | idle _ _ _ ih => exact ih
  | advance _ _ hheight _ ih =>
    right
    rcases ih with ⟨-, rfl⟩ | ⟨b, hb, heq⟩
    · exact ⟨_, List.mem_cons_self, hheight⟩
    · exact ⟨b, List.mem_cons_of_mem _ hb, heq⟩

/-! ## Cutting by height -/

/-- A chain starts above the height of its state. -/
theorem upTo_eq_nil (h : m.Presents s blocks chain t) (hn : n ≤ m.height s) :
    m.upTo chain n = [] := by
  refine List.filter_eq_nil_iff.mpr fun b hb hle => ?_
  have := h.lt_blockHeight b hb
  have := of_decide_eq_true hle
  omega

/-- The blocks of a presentation above the height `a` take up where the chain up to `a` ends. -/
theorem cut (h : m.Presents s blocks chain t) (a : Nat) :
    ∃ u, m.run s (m.upTo chain a) = some u ∧ ∀ e, a ≤ e → ∃ v,
      m.Presents u (m.between blocks a e) (m.between chain a e) v := by
  induction h with
  | nil s => exact ⟨s, rfl, fun e _ => ⟨s, .nil s⟩⟩
  | @idle s t b blocks chain hexec hheight hrest ih =>
    obtain ⟨u, hrun, hcut⟩ := ih
    refine ⟨u, hrun, fun e hae => ?_⟩
    obtain ⟨v, hv⟩ := hcut e hae
    by_cases hin : a < m.blockHeight b ∧ m.blockHeight b ≤ e
    · -- The whole chain is above `a`, so the cut starts at `s`.
      rw [hrest.upTo_eq_nil (by omega)] at hrun
      cases hrun
      rw [between_cons_of_mem hin]
      exact ⟨v, .idle hexec hheight hv⟩
    · rw [between_cons_of_not hin]
      exact ⟨v, hv⟩
  | @advance s s' t b blocks chain hexec hlt hheight hrest ih =>
    obtain ⟨u, hrun, hcut⟩ := ih
    by_cases ha : m.blockHeight b ≤ a
    · refine ⟨u, ?_, fun e hae => ?_⟩
      · rw [upTo_cons_of_le ha, run_cons, hexec]
        exact hrun
      · rw [between_cons_of_not (by omega), between_cons_of_not (by omega)]
        exact hcut e hae
    · have hnil := hrest.upTo_eq_nil (n := a) (by omega)
      rw [hnil] at hrun
      cases hrun
      refine ⟨s, ?_, fun e hae => ?_⟩
      · rw [upTo_cons_of_lt (Nat.lt_of_not_le ha), hnil]
        rfl
      · by_cases he : m.blockHeight b ≤ e
        · obtain ⟨v, hv⟩ := hcut e hae
          rw [between_cons_of_mem ⟨by omega, he⟩, between_cons_of_mem ⟨by omega, he⟩]
          exact ⟨v, .advance hexec hlt hheight hv⟩
        · -- All blocks are above `e`.
          have habove : ∀ b' ∈ b :: blocks, e < m.blockHeight b' := by
            refine List.forall_mem_cons.mpr ⟨by omega, fun b' hb' => ?_⟩
            have := hrest.le_blockHeight b' hb'
            omega
          have habove' : ∀ b' ∈ b :: chain, e < m.blockHeight b' := by
            refine List.forall_mem_cons.mpr ⟨by omega, fun b' hb' => ?_⟩
            have := hrest.lt_blockHeight b' hb'
            omega
          rw [between_eq_nil habove, between_eq_nil habove']
          exact ⟨s, .nil s⟩

/-- The chain up to a height is what the first blocks of the presentation run to. -/
theorem exists_take (h : m.Presents s blocks chain t) (n : Nat) :
    ∃ k, m.run s (blocks.take k) = m.run s (m.upTo chain n) := by
  induction h with
  | nil s => exact ⟨0, rfl⟩
  | @idle s t b blocks chain hexec _ _ ih =>
    obtain ⟨k, hk⟩ := ih
    refine ⟨k + 1, ?_⟩
    rw [List.take_succ_cons, run_cons, hexec]
    exact hk
  | @advance s s' t b blocks chain hexec hlt hheight hrest ih =>
    by_cases hn : m.blockHeight b ≤ n
    · obtain ⟨k, hk⟩ := ih
      refine ⟨k + 1, ?_⟩
      rw [List.take_succ_cons, upTo_cons_of_le hn, run_cons, run_cons, hexec]
      exact hk
    · refine ⟨0, ?_⟩
      rw [upTo_cons_of_lt (Nat.lt_of_not_le hn), hrest.upTo_eq_nil (by omega)]
      rfl

end Presents

/-! ## Parts of a chain -/

/-- The chain up to `a`, and the part between `a` and `e`, make the chain up to `e`. -/
theorem upTo_append_between (hsorted : chain.Pairwise fun b b' => m.blockHeight b < m.blockHeight b')
    (hae : a ≤ e) : m.upTo chain a ++ m.between chain a e = m.upTo chain e := by
  induction chain with
  | nil => rfl
  | cons b chain ih =>
    obtain ⟨hall, htail⟩ := List.pairwise_cons.mp hsorted
    by_cases ha : m.blockHeight b ≤ a
    · rw [upTo_cons_of_le ha, between_cons_of_not (by omega), upTo_cons_of_le (by omega),
        List.cons_append, ih htail]
    · have hnil : m.upTo chain a = [] := by
        refine List.filter_eq_nil_iff.mpr fun b' hb' hle => ?_
        have := hall b' hb'
        have := of_decide_eq_true hle
        omega
      have ih := ih htail
      rw [hnil, List.nil_append] at ih
      rw [upTo_cons_of_lt (Nat.lt_of_not_le ha), hnil, List.nil_append]
      by_cases he : m.blockHeight b ≤ e
      · rw [between_cons_of_mem ⟨by omega, he⟩, upTo_cons_of_le he, ih]
      · rw [between_cons_of_not (by omega), upTo_cons_of_lt (Nat.lt_of_not_le he), ih]

theorem upTo_upTo (chain : List β) (n k : Nat) :
    m.upTo (m.upTo chain n) k = m.upTo chain (min n k) := by
  unfold upTo
  rw [List.filter_filter]
  refine List.filter_congr fun b _ => ?_
  rw [← Bool.decide_and]
  exact decide_eq_decide.mpr (by omega)

theorem between_upTo (chain : List β) (n a e : Nat) :
    m.between (m.upTo chain n) a e = m.between chain a (min n e) := by
  unfold between upTo
  rw [List.filter_filter]
  refine List.filter_congr fun b _ => ?_
  rw [← Bool.decide_and]
  exact decide_eq_decide.mpr (by omega)

/-! ## Replicas -/

/-- The replica of the chain has executed its blocks up to the height of its state. -/
def Holds (m : BlockMachine σ β) (s : σ) (chain blocks : List β) (t : σ) : Prop :=
  m.Presents s blocks (m.upTo chain (m.height t)) t

/-- The blocks of the leader, and the chain they present. -/
abbrev Leads (m : BlockMachine σ β) (s : σ) (chain blocks : List β) (t : σ) : Prop :=
  m.Presents s blocks chain t

namespace Holds

variable {leader : List β} {head : σ}

theorem height_le_head (hleads : m.Leads s chain leader head) (h : m.Holds s chain blocks t) :
    m.height t ≤ m.height head := by
  rcases h.height_eq with ⟨-, rfl⟩ | ⟨b, hb, heq⟩
  · exact hleads.height_le
  · rw [← heq]
    obtain ⟨hb, -⟩ := List.mem_filter.mp hb
    rcases hleads.height_eq with ⟨rfl, -⟩ | ⟨last, hlast, hlasteq⟩
    · cases hb
    · exact hleads.chain_le b hb

theorem of_presents (hleads : m.Leads s chain leader head) (h : m.Presents s blocks (m.upTo chain n) t) :
    m.Holds s chain blocks t := by
  have hsame : m.upTo chain n = m.upTo chain (m.height t) := by
    refine List.filter_congr fun b hb => decide_eq_decide.mpr ?_
    rcases h.height_eq with ⟨hnil, rfl⟩ | ⟨last, hlast, heq⟩
    · have habove := hleads.lt_blockHeight b hb
      refine ⟨fun hle => ?_, fun hle => by omega⟩
      have hmem : b ∈ m.upTo chain n := List.mem_filter.mpr ⟨hb, decide_eq_true hle⟩
      rw [hnil] at hmem
      cases hmem
    · have hlast := of_decide_eq_true (List.mem_filter.mp hlast).2
      refine ⟨fun hle => ?_, fun hle => by omega⟩
      exact h.chain_le b (List.mem_filter.mpr ⟨hb, decide_eq_true hle⟩)
  unfold Holds
  rw [← hsame]
  exact h

/-- The leader is a replica too. -/
theorem of_leads (hleads : m.Leads s chain leader head) : m.Holds s chain leader head := by
  have hall : m.upTo chain (m.height head) = chain :=
    List.filter_eq_self.mpr fun b hb => decide_eq_true (hleads.chain_le b hb)
  unfold Holds
  rw [hall]
  exact hleads

theorem run_eq (h : m.Holds s chain blocks t) : m.run s (m.upTo chain (m.height t)) = some t :=
  h.run_chain

/-- Replicas of one height are in one state. -/
theorem eq_of_height (h : m.Holds s chain blocks t) (h' : m.Holds s chain blocks' u)
    (heq : m.height t = m.height u) : t = u := by
  have hrun := h.run_eq
  rw [heq, h'.run_eq] at hrun
  exact (Option.some.inj hrun).symm

theorem exists_take (hleads : m.Leads s chain leader head) (h : m.Holds s chain blocks t) :
    ∃ k, m.run s (leader.take k) = some t := by
  obtain ⟨k, hk⟩ := Presents.exists_take hleads (m.height t)
  exact ⟨k, hk.trans h.run_eq⟩

/-- The blocks of one replica above the height of another one bring that one further. -/
theorem catch_up (hleads : m.Leads s chain leader head) (h : m.Holds s chain blocks t)
    (h' : m.Holds s chain blocks' u) (hte : m.height t ≤ e) :
    ∃ v, m.Holds s chain (blocks ++ m.between blocks' (m.height t) e) v := by
  by_cases hge : m.height t ≤ m.height u
  · obtain ⟨u', hrun, hcut⟩ := Presents.cut h' (m.height t)
    rw [upTo_upTo, Nat.min_eq_right hge, h.run_eq] at hrun
    cases hrun
    obtain ⟨v, hv⟩ := hcut e hte
    rw [between_upTo] at hv
    refine ⟨v, of_presents hleads (n := min (m.height u) e) ?_⟩
    rw [← upTo_append_between hleads.sorted (show m.height t ≤ min (m.height u) e by omega)]
    exact Presents.append h hv
  · -- The other one has no block above that height.
    have hnil : m.between blocks' (m.height t) e = [] := by
      refine List.filter_eq_nil_iff.mpr fun b hb hin => ?_
      have := Presents.blockHeight_le h' b hb
      have := of_decide_eq_true hin
      omega
    rw [hnil, List.append_nil]
    exact ⟨t, h⟩

/-- A new block of the leader is above every replica. -/
theorem grow (hleads : m.Leads s chain leader head) (h : m.Holds s chain blocks t)
    (hb : m.height head < m.blockHeight b) : m.Holds s (chain ++ [b]) blocks t := by
  have hle := h.height_le_head hleads
  have hsame : m.upTo (chain ++ [b]) (m.height t) = m.upTo chain (m.height t) := by
    unfold upTo
    rw [List.filter_append]
    have hout : [b].filter (m.blockHeight · ≤ m.height t) = [] := by
      simp
      omega
    rw [hout, List.append_nil]
  unfold Holds
  rw [hsame]
  exact h

end Holds

end BlockMachine

end SimpleL1.Lib
