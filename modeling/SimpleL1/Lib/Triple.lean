import SimpleL1.Lib.Effect

/-!
# Pre- and postconditions

`Triple P m Q E`: from a state with `P`, the computation returns a value and a
state with `Q`, or throws in a state with `E`. The rules follow the way a
computation is put together; a loop is a list of computations one after the other.
-/

namespace SimpleL1.Lib.Effect

variable {ε σ α β : Type}

def Triple (P : σ → Prop) (m : EStateM ε σ α) (Q : α → σ → Prop) (E : σ → Prop) : Prop :=
  ∀ s, P s → match m s with
    | .ok a s' => Q a s'
    | .error _ s' => E s'

/-- What holds before holds after, however the computation ends. -/
abbrev Keeps (I : σ → Prop) (m : EStateM ε σ α) : Prop := Triple I m (fun _ => I) I

variable {P P' I E : σ → Prop} {m : EStateM ε σ α} {Q Q' : α → σ → Prop} {R : β → σ → Prop}

theorem Triple.weaken (h : Triple P m Q E) (hpre : ∀ s, P' s → P s)
    (hpost : ∀ a s, Q a s → Q' a s) : Triple P' m Q' E := by
  intro s hs
  have h := h s (hpre s hs)
  split at h
  · exact hpost _ _ h
  · exact h

theorem Triple.pre (h : Triple P m Q E) (hpre : ∀ s, P' s → P s) : Triple P' m Q E :=
  h.weaken hpre fun _ _ => id

theorem Triple.post (h : Triple P m Q E) (hpost : ∀ a s, Q a s → Q' a s) : Triple P m Q' E :=
  h.weaken (fun _ => id) hpost

theorem Triple.bind {f : α → EStateM ε σ β} (hm : Triple P m Q E)
    (hf : ∀ a, Triple (Q a) (f a) R E) : Triple P (m >>= f) R E := by
  intro s hs
  have h := hm s hs
  split at h
  · next a s' heq =>
    rw [bind_of_ok heq]
    exact hf a s' h
  · next heq =>
    rw [bind_of_error heq]
    exact h

theorem triple_pure {a : α} (h : ∀ s, P s → Q a s) :
    Triple P (pure a : EStateM ε σ α) Q E :=
  fun s hs => h s hs

theorem triple_get : Triple P (get : EStateM ε σ σ) (fun a s => a = s ∧ P s) E :=
  fun _ hs => ⟨rfl, hs⟩

theorem triple_modify {g : σ → σ} {Q : PUnit → σ → Prop} (h : ∀ s, P s → Q ⟨⟩ (g s)) :
    Triple P (modify g : EStateM ε σ PUnit) Q E :=
  fun s hs => h s hs

theorem triple_lift {x : Except ε α} (h : ∀ s, P s → E s) :
    Triple P (liftM x : EStateM ε σ α) (fun a s => x = .ok a ∧ P s) E := by
  intro s hs
  cases x with
  | ok a => exact ⟨rfl, hs⟩
  | error e => exact h s hs

theorem triple_ite {c : Prop} [Decidable c] {m n : EStateM ε σ α} (hm : c → Triple P m Q E)
    (hn : ¬ c → Triple P n Q E) : Triple P (if c then m else n) Q E := by
  by_cases h : c
  · rw [if_pos h]
    exact hm h
  · rw [if_neg h]
    exact hn h

/-- A fact of the precondition that does not concern the state. -/
theorem triple_of_pure {c : Prop} (h : c → Triple P m Q E) : Triple (fun s => c ∧ P s) m Q E :=
  fun s hs => h hs.1 s hs.2

theorem keeps_forM {f : α → EStateM ε σ PUnit} (h : ∀ a, Keeps I (f a)) (xs : List α) :
    Keeps I (forM xs f) := by
  induction xs with
  | nil => exact triple_pure fun _ => id
  | cons x xs ih =>
    rw [List.forM_cons]
    exact (h x).bind fun _ => ih

theorem Triple.after (h : Triple P m (fun _ => I) I) {s : σ} (hs : P s) : I (after m s) := by
  have h := h s hs
  unfold Effect.after
  cases heq : m s with
  | ok a s' => rw [heq] at h; exact h
  | error e s' => rw [heq] at h; exact h

end SimpleL1.Lib.Effect
