import Mathlib.Data.List.Infix

/-!
# Runs that always go on

A run takes one total step for every input. What holds in every state it passes
through is decided step by step, where a step keeps it just when the step meets a
condition of its own.
-/

namespace SimpleL1.Lib.Steps

variable {σ α : Type} {step : σ → α → σ} {P I : σ → Prop} {Q : σ → α → Prop} {s : σ} {xs : List α}

/-- `P` in the first state and in every later one. -/
def Throughout (step : σ → α → σ) (P : σ → Prop) (s : σ) (xs : List α) : Prop :=
  ∀ ys, ys <+: xs → P (ys.foldl step s)

/-- `Q` at every step that is taken. -/
def EveryStep (step : σ → α → σ) (Q : σ → α → Prop) : σ → List α → Prop
  | _, [] => True
  | s, a :: xs => Q s a ∧ EveryStep step Q (step s a) xs

theorem throughout_nil : Throughout step P s [] ↔ P s := by
  constructor
  · intro h
    exact h [] List.prefix_rfl
  · intro h ys hys
    rw [List.prefix_nil.mp hys]
    exact h

theorem throughout_cons {a : α} :
    Throughout step P s (a :: xs) ↔ P s ∧ Throughout step P (step s a) xs := by
  constructor
  · intro h
    refine ⟨h [] (List.nil_prefix), fun ys hys => ?_⟩
    exact h (a :: ys) (List.cons_prefix_cons.mpr ⟨rfl, hys⟩)
  · rintro ⟨h0, h⟩ ys hys
    cases ys with
    | nil => exact h0
    | cons b ys =>
      obtain ⟨rfl, htail⟩ := List.cons_prefix_cons.mp hys
      exact h ys htail

theorem throughout_start (h : Throughout step P s xs) : P s := h [] List.nil_prefix

/-- An invariant that every step keeps holds throughout. -/
theorem throughout_of_invariant (hstep : ∀ s a, I s → I (step s a)) (h : I s) :
    Throughout step I s xs := by
  induction xs generalizing s with
  | nil => exact throughout_nil.mpr h
  | cons a xs ih => exact throughout_cons.mpr ⟨h, ih (hstep s a h)⟩

theorem invariant_foldl (hstep : ∀ s a, I s → I (step s a)) (h : I s) (xs : List α) :
    I (xs.foldl step s) :=
  throughout_of_invariant hstep h xs List.prefix_rfl

/-- Where a step keeps `P` just when it meets `Q`, a run keeps `P` just when every step does. -/
theorem throughout_iff (hinv : ∀ s a, I s → I (step s a))
    (hstep : ∀ s a, I s → P s → (P (step s a) ↔ Q s a)) (hI : I s) (hP : P s) :
    Throughout step P s xs ↔ EveryStep step Q s xs := by
  induction xs generalizing s with
  | nil => exact ⟨fun _ => trivial, fun _ => throughout_nil.mpr hP⟩
  | cons a xs ih =>
    rw [throughout_cons]
    constructor
    · rintro ⟨-, h⟩
      have hP' := throughout_start h
      exact ⟨(hstep s a hI hP).mp hP', (ih (hinv s a hI) hP').mp h⟩
    · rintro ⟨hQ, h⟩
      have hP' := (hstep s a hI hP).mpr hQ
      exact ⟨hP, (ih (hinv s a hI) hP').mpr h⟩

theorem everyStep_and {Q' : σ → α → Prop} :
    EveryStep step Q s xs ∧ EveryStep step Q' s xs ↔ EveryStep step (fun s a => Q s a ∧ Q' s a) s xs := by
  induction xs generalizing s with
  | nil => exact and_self_iff
  | cons a xs ih =>
    unfold EveryStep
    rw [← ih]
    exact and_and_and_comm

/-- `R` between every state of the run and every later one. -/
def Onward (step : σ → α → σ) (R : σ → σ → Prop) (s : σ) (xs : List α) : Prop :=
  ∀ ys zs, ys ++ zs <+: xs → R (ys.foldl step s) ((ys ++ zs).foldl step s)

/-- A preorder holds onward just when every step keeps it. -/
theorem onward_iff {R : σ → σ → Prop} (hrefl : ∀ s, R s s) (htrans : ∀ s t u, R s t → R t u → R s u) :
    Onward step R s xs ↔ EveryStep step (fun s a => R s (step s a)) s xs := by
  induction xs generalizing s with
  | nil =>
    refine ⟨fun _ => trivial, fun _ ys zs h => ?_⟩
    obtain ⟨rfl, rfl⟩ := List.append_eq_nil_iff.mp (List.prefix_nil.mp h)
    exact hrefl s
  | cons a xs ih =>
    unfold EveryStep
    rw [← ih]
    constructor
    · intro h
      refine ⟨h [] [a] (List.cons_prefix_cons.mpr ⟨rfl, List.nil_prefix⟩), fun ys zs hys => ?_⟩
      exact h (a :: ys) zs (List.cons_prefix_cons.mpr ⟨rfl, hys⟩)
    · rintro ⟨hone, h⟩ ys zs hys
      cases ys with
      | nil =>
        cases zs with
        | nil => exact hrefl s
        | cons b zs =>
          obtain ⟨rfl, hzs⟩ := List.cons_prefix_cons.mp hys
          exact htrans _ _ _ hone (h [] zs hzs)
      | cons b ys =>
        obtain ⟨rfl, htail⟩ := List.cons_prefix_cons.mp hys
        exact h ys zs htail

end SimpleL1.Lib.Steps
