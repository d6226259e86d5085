import Mathlib.Data.Set.Basic

/-!
# Computations that write and throw

`EStateM ε σ` is a computation on a mutable state: what was written before an
exception stays written. A state is seen through its cells; a computation is `Local` to a set of cells
when it writes no other cell and neither its result nor what it writes depends
on one. Computations local to disjoint sets of cells can be exchanged.
-/

namespace SimpleL1.Lib.Effect

variable {ε σ α β : Type}

/-- The state a computation leaves, whether it returns or throws. -/
def after (m : EStateM ε σ α) (s : σ) : σ :=
  match m s with
  | .ok _ s' | .error _ s' => s'

/-- What a computation returns or throws. -/
def outcome (m : EStateM ε σ α) (s : σ) : Except ε α :=
  match m s with
  | .ok a _ => .ok a
  | .error e _ => .error e

def Throws (m : EStateM ε σ α) (s : σ) : Prop := ∃ e s', m s = .error e s'

/-- An exception of `x` ends the computation, which has written nothing. -/
def lift (x : Except ε α) : EStateM ε σ α := fun s =>
  match x with
  | .ok a => .ok a s
  | .error e => .error e s

instance monadLift : MonadLift (Except ε) (EStateM ε σ) := ⟨lift⟩

/-- Compute from the state without writing. -/
def reading (f : σ → Except ε α) : EStateM ε σ α := fun s => lift (f s) s

section
variable {m : EStateM ε σ α} {f : α → EStateM ε σ β} {s s' : σ}

theorem bind_of_ok {a : α} (h : m s = .ok a s') : (m >>= f) s = f a s' := by
  show EStateM.bind m f s = _
  unfold EStateM.bind
  rw [h]

theorem bind_of_error {e : ε} (h : m s = .error e s') : (m >>= f) s = .error e s' := by
  show EStateM.bind m f s = _
  unfold EStateM.bind
  rw [h]

theorem run_bind_eq_ok {b : β} {s'' : σ} :
    (m >>= f) s = .ok b s'' ↔ ∃ a s', m s = .ok a s' ∧ f a s' = .ok b s'' := by
  cases h : m s with
  | ok a s' =>
    rw [bind_of_ok h]
    exact ⟨fun hf => ⟨a, s', rfl, hf⟩, fun ⟨_, _, h', hf⟩ => by cases h'; exact hf⟩
  | error e s' =>
    rw [bind_of_error h]
    exact ⟨nofun, fun ⟨_, _, h', _⟩ => nomatch h'⟩

theorem run_bind_eq_error {e : ε} {s'' : σ} :
    (m >>= f) s = .error e s'' ↔
      m s = .error e s'' ∨ ∃ a s', m s = .ok a s' ∧ f a s' = .error e s'' := by
  cases h : m s with
  | ok a s' =>
    rw [bind_of_ok h]
    refine ⟨fun hf => .inr ⟨a, s', rfl, hf⟩, ?_⟩
    rintro (h' | ⟨_, _, h', hf⟩)
    · cases h'
    · cases h'; exact hf
  | error e' s' =>
    rw [bind_of_error h]
    refine ⟨fun h' => .inl (by cases h'; rfl), ?_⟩
    rintro (h' | ⟨_, _, h', _⟩)
    · cases h'; rfl
    · cases h'

end

@[simp] theorem pure_apply (a : α) (s : σ) : (pure a : EStateM ε σ α) s = .ok a s := rfl

@[simp] theorem modify_apply (g : σ → σ) (s : σ) : (modify g : EStateM ε σ PUnit) s = .ok ⟨⟩ (g s) :=
  rfl

@[simp] theorem get_apply (s : σ) : (get : EStateM ε σ σ) s = .ok s s := rfl

@[simp] theorem lift_ok (a : α) (s : σ) : (lift (.ok a) : EStateM ε σ α) s = .ok a s := rfl

@[simp] theorem lift_error (e : ε) (s : σ) : (lift (.error e) : EStateM ε σ α) s = .error e s := rfl

theorem lift_eq_ok {x : Except ε α} {s s' : σ} {a : α} :
    lift x s = .ok a s' ↔ x = .ok a ∧ s' = s := by
  cases x with
  | ok b => simp only [lift_ok, EStateM.Result.ok.injEq, Except.ok.injEq, eq_comm]
  | error e => exact ⟨nofun, nofun⟩

theorem lift_eq_error {x : Except ε α} {s s' : σ} {e : ε} :
    lift x s = .error e s' ↔ x = .error e ∧ s' = s := by
  cases x with
  | ok b => exact ⟨nofun, nofun⟩
  | error e => simp only [lift_error, EStateM.Result.error.injEq, Except.error.injEq, eq_comm]

/-- A computation that goes on after a result has it. -/
theorem lift_bind_eq_ok {x : Except ε α} {f : α → EStateM ε σ β} {s s' : σ} {b : β} :
    (lift x >>= f) s = .ok b s' ↔ ∃ a, x = .ok a ∧ f a s = .ok b s' := by
  rw [run_bind_eq_ok]
  constructor
  · rintro ⟨a, t, hlift, hf⟩
    obtain ⟨hx, rfl⟩ := lift_eq_ok.mp hlift
    exact ⟨a, hx, hf⟩
  · rintro ⟨a, hx, hf⟩
    exact ⟨a, s, lift_eq_ok.mpr ⟨hx, rfl⟩, hf⟩

theorem lift_bind_eq_error {x : Except ε α} {f : α → EStateM ε σ β} {s s' : σ} {e : ε} :
    (lift x >>= f) s = .error e s' ↔
      (x = .error e ∧ s' = s) ∨ ∃ a, x = .ok a ∧ f a s = .error e s' := by
  rw [run_bind_eq_error, lift_eq_error]
  refine or_congr_right ⟨?_, ?_⟩
  · rintro ⟨a, t, hlift, hf⟩
    obtain ⟨hx, rfl⟩ := lift_eq_ok.mp hlift
    exact ⟨a, hx, hf⟩
  · rintro ⟨a, hx, hf⟩
    exact ⟨a, s, lift_eq_ok.mpr ⟨hx, rfl⟩, hf⟩

theorem get_bind_apply (f : σ → EStateM ε σ β) (s : σ) :
    ((get : EStateM ε σ σ) >>= f) s = f s s := rfl

theorem modify_bind_apply (g : σ → σ) (f : PUnit → EStateM ε σ β) (s : σ) :
    ((modify g : EStateM ε σ PUnit) >>= f) s = f ⟨⟩ (g s) := rfl

theorem after_of_ok {m : EStateM ε σ α} {s s' : σ} {a : α} (h : m s = .ok a s') : after m s = s' := by
  rw [after, h]

theorem after_of_error {m : EStateM ε σ α} {s s' : σ} {e : ε} (h : m s = .error e s') :
    after m s = s' := by
  rw [after, h]

theorem not_throws_of_ok {m : EStateM ε σ α} {s s' : σ} {a : α} (h : m s = .ok a s') :
    ¬ Throws m s := by
  rintro ⟨e, s'', h'⟩
  rw [h] at h'
  cases h'

theorem after_bind_of_ok {m : EStateM ε σ α} {f : α → EStateM ε σ β} {s s' : σ} {a : α}
    (h : m s = .ok a s') : after (m >>= f) s = after (f a) s' := by
  rw [after, bind_of_ok h, ← after]

theorem outcome_bind_of_ok {m : EStateM ε σ α} {f : α → EStateM ε σ β} {s s' : σ} {a : α}
    (h : m s = .ok a s') : outcome (m >>= f) s = outcome (f a) s' := by
  rw [outcome, bind_of_ok h, ← outcome]

/-! ## Stepping through a computation -/

theorem after_bind (m : EStateM ε σ α) (f : α → EStateM ε σ β) (s : σ) :
    after (m >>= f) s =
      match outcome m s with
      | .ok a => after (f a) (after m s)
      | .error _ => after m s := by
  unfold after outcome
  show (match EStateM.bind m f s with | .ok _ s' | .error _ s' => s') = _
  unfold EStateM.bind
  cases m s <;> rfl

theorem outcome_bind (m : EStateM ε σ α) (f : α → EStateM ε σ β) (s : σ) :
    outcome (m >>= f) s = outcome m s >>= fun a => outcome (f a) (after m s) := by
  unfold after outcome
  show (match EStateM.bind m f s with | .ok b _ => Except.ok b | .error e _ => .error e) = _
  unfold EStateM.bind
  cases m s <;> rfl

@[simp] theorem after_map (g : α → β) (m : EStateM ε σ α) (s : σ) :
    after (g <$> m) s = after m s := by
  unfold after
  show (match EStateM.map g m s with | .ok _ s' | .error _ s' => s') = _
  unfold EStateM.map
  cases m s <;> rfl

@[simp] theorem outcome_map (g : α → β) (m : EStateM ε σ α) (s : σ) :
    outcome (g <$> m) s = g <$> outcome m s := by
  unfold outcome
  show (match EStateM.map g m s with | .ok b _ => Except.ok b | .error e _ => .error e) = _
  unfold EStateM.map
  cases m s <;> rfl

@[simp] theorem after_pure (a : α) (s : σ) : after (pure a : EStateM ε σ α) s = s := rfl

@[simp] theorem outcome_pure (a : α) (s : σ) : outcome (pure a : EStateM ε σ α) s = .ok a := rfl

@[simp] theorem after_throw (e : ε) (s : σ) : after (throw e : EStateM ε σ α) s = s := rfl

@[simp] theorem outcome_throw (e : ε) (s : σ) : outcome (throw e : EStateM ε σ α) s = .error e := rfl

@[simp] theorem after_lift (x : Except ε α) (s : σ) : after (liftM x : EStateM ε σ α) s = s := by
  cases x <;> rfl

@[simp] theorem outcome_lift (x : Except ε α) (s : σ) : outcome (liftM x : EStateM ε σ α) s = x := by
  cases x <;> rfl

@[simp] theorem after_modify (g : σ → σ) (s : σ) :
    after (modify g : EStateM ε σ PUnit) s = g s := rfl

@[simp] theorem outcome_modify (g : σ → σ) (s : σ) :
    outcome (modify g : EStateM ε σ PUnit) s = .ok ⟨⟩ := rfl

@[simp] theorem after_get (s : σ) : after (get : EStateM ε σ σ) s = s := rfl

@[simp] theorem outcome_get (s : σ) : outcome (get : EStateM ε σ σ) s = .ok s := rfl

@[simp] theorem after_reading (f : σ → Except ε α) (s : σ) : after (reading f) s = s := by
  unfold after reading
  cases f s <;> rfl

@[simp] theorem outcome_reading (f : σ → Except ε α) (s : σ) : outcome (reading f) s = f s := by
  unfold outcome reading
  cases f s <;> rfl

theorem throws_or_ok (m : EStateM ε σ α) (s : σ) : Throws m s ∨ ∃ a s', m s = .ok a s' := by
  cases h : m s with
  | ok a s' => exact .inr ⟨a, s', rfl⟩
  | error e s' => exact .inl ⟨e, s', h⟩

theorem throws_bind {m : EStateM ε σ α} {f : α → EStateM ε σ β} {s : σ} :
    Throws (m >>= f) s ↔ Throws m s ∨ ∃ a s', m s = .ok a s' ∧ Throws (f a) s' := by
  unfold Throws
  simp only [run_bind_eq_error]
  constructor
  · rintro ⟨e, s'', h | ⟨a, s', h, hf⟩⟩
    · exact .inl ⟨e, s'', h⟩
    · exact .inr ⟨a, s', h, e, s'', hf⟩
  · rintro (⟨e, s'', h⟩ | ⟨a, s', h, e, s'', hf⟩)
    · exact ⟨e, s'', .inl h⟩
    · exact ⟨e, s'', .inr ⟨a, s', h, hf⟩⟩

/-! ## Cells -/

section
variable {Cell : Type} {V : Cell → Type} (view : (c : Cell) → σ → V c)

/-- The states look the same in the cells of `C`. -/
def Agree (C : Set Cell) (s t : σ) : Prop := ∀ c ∈ C, view c s = view c t

/-- The function looks at the cells of `C` only. -/
def DependsOn (C : Set Cell) (g : σ → α) : Prop := ∀ s t, Agree view C s t → g s = g t

/-- The computation looks at the cells of `C` only, and writes no other cell. -/
structure Local (C : Set Cell) (m : EStateM ε σ α) : Prop where
  frame : ∀ s, ∀ c ∉ C, view c (after m s) = view c s
  outcome_eq : ∀ s t, Agree view C s t → outcome m s = outcome m t
  agree : ∀ s t, Agree view C s t → Agree view C (after m s) (after m t)

variable {view} {C D : Set Cell}

theorem Agree.symm {s t : σ} (h : Agree view C s t) : Agree view C t s := fun c hc => (h c hc).symm

theorem Agree.trans {s t u : σ} (h : Agree view C s t) (h' : Agree view C t u) : Agree view C s u :=
  fun c hc => (h c hc).trans (h' c hc)

theorem Agree.mono {s t : σ} (h : Agree view D s t) (hsub : C ⊆ D) : Agree view C s t :=
  fun c hc => h c (hsub hc)

theorem outcome_of_ok {m : EStateM ε σ α} {s s' : σ} {a : α} (h : m s = .ok a s') :
    outcome m s = .ok a := by
  rw [outcome, h]

theorem outcome_of_error {m : EStateM ε σ α} {s s' : σ} {e : ε} (h : m s = .error e s') :
    outcome m s = .error e := by
  rw [outcome, h]

theorem throws_iff {m : EStateM ε σ α} {s : σ} : Throws m s ↔ ∃ e, outcome m s = .error e := by
  unfold Throws outcome
  cases m s with
  | ok a s' => exact ⟨nofun, nofun⟩
  | error e s' => exact ⟨fun _ => ⟨e, rfl⟩, fun _ => ⟨e, s', rfl⟩⟩

namespace Local

/-- A local computation keeps agreement on a larger set of cells too. -/
theorem mono {m : EStateM ε σ α} (h : Local view C m) (hsub : C ⊆ D) : Local view D m where
  frame s c hc := h.frame s c fun hcC => hc (hsub hcC)
  outcome_eq s t hst := h.outcome_eq s t (hst.mono hsub)
  agree s t hst c hc := by
    by_cases hcC : c ∈ C
    · exact h.agree s t (hst.mono hsub) c hcC
    · rw [h.frame s c hcC, h.frame t c hcC]
      exact hst c hc

theorem of_pure (a : α) : Local view C (pure a : EStateM ε σ α) where
  frame _ _ _ := rfl
  outcome_eq _ _ _ := rfl
  agree _ _ h := h

theorem of_throw (e : ε) : Local view C (throw e : EStateM ε σ α) where
  frame _ _ _ := rfl
  outcome_eq _ _ _ := rfl
  agree _ _ h := h

/-- One computation after another; the second one may use that the first returned `a`. -/
theorem bind {m : EStateM ε σ α} {f : α → EStateM ε σ β} (hm : Local view C m)
    (hf : ∀ a, (∃ s, outcome m s = .ok a) → Local view C (f a)) : Local view C (m >>= f) where
  frame s c hc := by
    have hs := hm.frame s c hc
    cases h : m s with
    | ok a s' =>
      rw [after_of_ok h] at hs
      rw [after_bind_of_ok h, (hf a ⟨s, outcome_of_ok h⟩).frame s' c hc, hs]
    | error e s' =>
      rw [after_of_error h] at hs
      rw [after_of_error (bind_of_error h), hs]
  outcome_eq s t hst := by
    have ho := hm.outcome_eq s t hst
    have ha := hm.agree s t hst
    cases h : m s with
    | ok a s' =>
      rw [outcome_of_ok h] at ho
      rw [after_of_ok h] at ha
      cases h' : m t with
      | ok b t' =>
        rw [outcome_of_ok h'] at ho
        rw [after_of_ok h'] at ha
        cases ho
        rw [outcome_bind_of_ok h, outcome_bind_of_ok h']
        exact (hf a ⟨s, outcome_of_ok h⟩).outcome_eq s' t' ha
      | error e t' => rw [outcome_of_error h'] at ho; cases ho
    | error e s' =>
      rw [outcome_of_error h] at ho
      cases h' : m t with
      | ok b t' => rw [outcome_of_ok h'] at ho; cases ho
      | error e' t' =>
        rw [outcome_of_error h'] at ho
        cases ho
        rw [outcome_of_error (bind_of_error h), outcome_of_error (bind_of_error h')]
  agree s t hst := by
    have ho := hm.outcome_eq s t hst
    have ha := hm.agree s t hst
    cases h : m s with
    | ok a s' =>
      rw [outcome_of_ok h] at ho
      rw [after_of_ok h] at ha
      cases h' : m t with
      | ok b t' =>
        rw [outcome_of_ok h'] at ho
        rw [after_of_ok h'] at ha
        cases ho
        rw [after_bind_of_ok h, after_bind_of_ok h']
        exact (hf a ⟨s, outcome_of_ok h⟩).agree s' t' ha
      | error e t' => rw [outcome_of_error h'] at ho; cases ho
    | error e s' =>
      rw [outcome_of_error h] at ho
      rw [after_of_error h] at ha
      cases h' : m t with
      | ok b t' => rw [outcome_of_ok h'] at ho; cases ho
      | error e' t' =>
        rw [after_of_error h'] at ha
        rw [after_of_error (bind_of_error h), after_of_error (bind_of_error h')]
        exact ha

theorem of_lift (x : Except ε α) : Local view C (liftM x : EStateM ε σ α) := by
  cases x with
  | ok a => exact of_pure a
  | error e => exact of_throw e

/-- A computation that does not touch the state, then a local one. -/
theorem lift_bind {x : Except ε α} {f : α → EStateM ε σ β}
    (hf : ∀ a, x = .ok a → Local view C (f a)) : Local view C (liftM x >>= f) := by
  refine (of_lift x).bind fun a ⟨s, h⟩ => hf a ?_
  cases x with
  | ok b => cases h; rfl
  | error e => cases h

theorem of_reading {f : σ → Except ε α} (hf : DependsOn view C f) : Local view C (reading f) where
  frame s c _ := by rw [after_reading]
  outcome_eq s t hst := by rw [outcome_reading, outcome_reading, hf s t hst]
  agree s t hst := by rwa [after_reading, after_reading]

/-- Read a part of the state, then go on with what was read. -/
theorem reading_bind {f : σ → Except ε α} {k : α → EStateM ε σ β} (hf : DependsOn view C f)
    (hk : ∀ s a, f s = .ok a → Local view C (k a)) : Local view C (reading f >>= k) :=
  (of_reading hf).bind fun a ⟨s, h⟩ => hk s a (by rwa [outcome_reading] at h)

theorem of_modify {g : σ → σ} (hframe : ∀ s, ∀ c ∉ C, view c (g s) = view c s)
    (hagree : ∀ s t, Agree view C s t → Agree view C (g s) (g t)) :
    Local view C (modify g : EStateM ε σ PUnit) where
  frame := hframe
  outcome_eq _ _ _ := rfl
  agree := hagree

/-- Computations local to disjoint sets of cells can be exchanged. -/
theorem comm {m : EStateM ε σ α} {n : EStateM ε σ β} (hm : Local view C m) (hn : Local view D n)
    (hdisj : ∀ c ∈ C, c ∉ D) (s : σ) :
    Agree view Set.univ (after n (after m s)) (after m (after n s)) := by
  have hmn : Agree view C (after n s) s := fun c hc =>
    hn.frame s c (hdisj c hc)
  have hnm : Agree view D (after m s) s := fun c hc =>
    hm.frame s c fun hC => hdisj c hC hc
  intro c _
  by_cases hC : c ∈ C
  · rw [hn.frame _ c (hdisj c hC)]
    exact (hm.agree _ _ hmn c hC).symm
  · by_cases hD : c ∈ D
    · rw [hm.frame _ c hC]
      exact hn.agree _ _ hnm c hD
    · rw [hn.frame _ c hD, hm.frame _ c hC, hm.frame _ c hC, hn.frame _ c hD]

end Local

end

end SimpleL1.Lib.Effect
