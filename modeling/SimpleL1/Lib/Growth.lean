import SimpleL1.Lib.Effect

/-!
# Computations that only move forward

Between states there is an order `R`. `Advances R P m Q`: from a state with `P` the computation ends,
however it ends, in a state that comes after it, and what it returns satisfies `Q` there. What lasts
from a state to all later ones can be carried along; a run of computations moves forward too.
-/

namespace SimpleL1.Lib.Effect

variable {ε σ α β : Type}

def Advances (R : σ → σ → Prop) (P : σ → Prop) (m : EStateM ε σ α) (Q : α → σ → Prop) : Prop :=
  ∀ s, P s → R s (after m s) ∧ ∀ a, outcome m s = .ok a → Q a (after m s)

/-- What holds of a state holds of all later ones. -/
def Persistent (R : σ → σ → Prop) (P : σ → Prop) : Prop := ∀ {s s'}, R s s' → P s → P s'

section
variable {R : σ → σ → Prop} {P P' F : σ → Prop} {m : EStateM ε σ α} {Q Q' : α → σ → Prop}
  {f : α → EStateM ε σ β} {T : β → σ → Prop}

theorem Advances.weaken (h : Advances R P m Q) (hpre : ∀ s, P' s → P s)
    (hpost : ∀ a s, Q a s → Q' a s) : Advances R P' m Q' := fun s hs =>
  ⟨(h s (hpre s hs)).1, fun a ha => hpost a _ ((h s (hpre s hs)).2 a ha)⟩

/-- What lasts is carried along. -/
theorem Advances.carry (h : Advances R P m Q) (hF : Persistent R F) :
    Advances R (fun s => P s ∧ F s) m (fun a s => Q a s ∧ F s) := fun s hs =>
  ⟨(h s hs.1).1, fun a ha => ⟨(h s hs.1).2 a ha, hF (h s hs.1).1 hs.2⟩⟩

theorem Advances.bind [IsTrans σ R] (hm : Advances R P m Q) (hf : ∀ a, Advances R (Q a) (f a) T) :
    Advances R P (m >>= f) T := by
  intro s hs
  obtain ⟨hafter, hret⟩ := hm s hs
  rw [after_bind, outcome_bind]
  cases hout : outcome m s with
  | error e => exact ⟨hafter, fun b hb => by cases hb⟩
  | ok a =>
    obtain ⟨hnext, hb⟩ := hf a _ (hret a hout)
    exact ⟨IsTrans.trans _ _ _ hafter hnext, hb⟩

theorem Advances.map {g : α → β} (hm : Advances R P m fun a => T (g a)) : Advances R P (g <$> m) T := by
  intro s hs
  obtain ⟨hafter, hret⟩ := hm s hs
  rw [after_map, outcome_map]
  cases hout : outcome m s with
  | error e => exact ⟨hafter, fun b hb => by cases hb⟩
  | ok a => exact ⟨hafter, fun b hb => by cases hb; exact hret a hout⟩

theorem advances_ite {c : Prop} [Decidable c] {n : EStateM ε σ α} (hm : c → Advances R P m Q)
    (hn : ¬ c → Advances R P n Q) : Advances R P (if c then m else n) Q := by
  by_cases h : c
  · rw [if_pos h]
    exact hm h
  · rw [if_neg h]
    exact hn h

theorem advances_modify {g : σ → σ} {Q : PUnit → σ → Prop} (h : ∀ s, P s → R s (g s) ∧ Q ⟨⟩ (g s)) :
    Advances R P (modify g : EStateM ε σ PUnit) Q := fun s hs =>
  ⟨(h s hs).1, fun b hb => by cases hb; exact (h s hs).2⟩

variable [Std.Refl R]

theorem advances_pure {a : α} (h : ∀ s, P s → Q a s) :
    Advances R P (pure a : EStateM ε σ α) Q := fun s hs =>
  ⟨Std.Refl.refl s, fun b hb => by cases hb; exact h s hs⟩

theorem advances_throw {e : ε} : Advances R P (throw e : EStateM ε σ α) Q := fun s _ =>
  ⟨Std.Refl.refl s, fun b hb => by cases hb⟩

theorem advances_get : Advances R P (get : EStateM ε σ σ) fun a s => a = s ∧ P s := fun s hs =>
  ⟨Std.Refl.refl s, fun b hb => by cases hb; exact ⟨rfl, hs⟩⟩

theorem advances_lift {x : Except ε α} :
    Advances R P (liftM x : EStateM ε σ α) fun a s => x = .ok a ∧ P s := by
  intro s hs
  rw [after_lift, outcome_lift]
  exact ⟨Std.Refl.refl s, fun a ha => ⟨ha, hs⟩⟩

end

/-- A fact of the precondition that does not concern the state. -/
theorem advances_of_pure {R : σ → σ → Prop} {P : σ → Prop} {m : EStateM ε σ α} {Q : α → σ → Prop}
    {c : Prop} (h : c → Advances R P m Q) : Advances R (fun s => c ∧ P s) m Q :=
  fun s hs => h hs.1 s hs.2

end SimpleL1.Lib.Effect
