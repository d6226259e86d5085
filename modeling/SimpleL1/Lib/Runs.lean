import Mathlib.Data.List.Induction

/-!
# Runs that can stop, prefix by prefix

A run takes the inputs of a list in turn and stops at the first exception. An
invariant holds after every prefix just when every step taken keeps it. A run is
compared with the run that is not given some of its inputs: the two show the
same after every prefix just when the inputs left out change nothing where they
come.
-/

namespace SimpleL1.Lib.Runs

variable {σ ε α β : Type}

def run (step : σ → α → Except ε σ) (s : σ) (xs : List α) : Except ε σ := xs.foldlM step s

variable {step : σ → α → Except ε σ} {s t : σ} {xs ys : List α} {a : α}

@[simp] theorem run_nil : run step s [] = .ok s := rfl

theorem run_append : run step s (xs ++ ys) = (run step s xs).bind (run step · ys) :=
  List.foldlM_append ..

theorem run_snoc : run step s (xs ++ [a]) = (run step s xs).bind (step · a) := by
  rw [run_append]
  cases run step s xs with
  | error e => rfl
  | ok t =>
    show (step t a).bind _ = step t a
    cases step t a <;> rfl

theorem run_snoc_of_ok (h : run step s xs = .ok t) : run step s (xs ++ [a]) = step t a := by
  rw [run_snoc, h]
  rfl

theorem run_snoc_of_error {e : ε} (h : run step s xs = .error e) :
    run step s (xs ++ [a]) = .error e := by
  rw [run_snoc, h]
  rfl

theorem run_snoc_eq_ok {t' : σ} :
    run step s (xs ++ [a]) = .ok t' ↔ ∃ t, run step s xs = .ok t ∧ step t a = .ok t' := by
  rw [run_snoc]
  cases run step s xs with
  | error e =>
    constructor
    · intro h
      cases h
    · rintro ⟨_, h, _⟩
      cases h
  | ok t =>
    constructor
    · intro h
      exact ⟨t, rfl, h⟩
    · rintro ⟨_, ht, h⟩
      cases ht
      exact h

theorem prefix_of_snoc (h : xs ++ [a] <+: ys) : xs <+: ys := (List.prefix_append xs [a]).trans h

theorem mem_of_snoc (h : xs ++ [a] <+: ys) : a ∈ ys := h.subset (List.mem_append_right xs (.head []))

/-! ## Inputs that are read first -/

section Read

variable {γ : Type} {f : γ → Except ε α} {cs ds : List γ}

theorem mapM_append_eq_ok {zs : List α} : (cs ++ ds).mapM f = .ok zs ↔
    ∃ xs ys, cs.mapM f = .ok xs ∧ ds.mapM f = .ok ys ∧ zs = xs ++ ys := by
  rw [List.mapM_append]
  cases cs.mapM f with
  | error e => exact ⟨fun h => (nomatch h), fun ⟨_, _, h, _⟩ => (nomatch h)⟩
  | ok xs =>
    cases ds.mapM f with
    | error e => exact ⟨fun h => (nomatch h), fun ⟨_, _, _, h, _⟩ => (nomatch h)⟩
    | ok ys =>
      constructor
      · intro h
        cases h
        exact ⟨xs, ys, rfl, rfl, rfl⟩
      · rintro ⟨_, _, hxs, hys, rfl⟩
        cases hxs
        cases hys
        rfl

theorem mapM_cons_eq_ok {c : γ} :
    (c :: cs).mapM f = .ok ys ↔ ∃ x xs, f c = .ok x ∧ cs.mapM f = .ok xs ∧ ys = x :: xs := by
  rw [List.mapM_cons]
  cases f c with
  | error e => exact ⟨fun h => (nomatch h), fun ⟨_, _, h, _⟩ => (nomatch h)⟩
  | ok x =>
    cases cs.mapM f with
    | error e => exact ⟨fun h => (nomatch h), fun ⟨_, _, _, h, _⟩ => (nomatch h)⟩
    | ok xs =>
      constructor
      · intro h
        cases h
        exact ⟨x, xs, rfl, rfl, rfl⟩
      · rintro ⟨_, _, hx, hxs, rfl⟩
        cases hx
        cases hxs
        rfl

theorem length_mapM (h : cs.mapM f = .ok xs) : xs.length = cs.length := by
  induction cs generalizing xs with
  | nil =>
    cases h
    rfl
  | cons c cs ih =>
    obtain ⟨x, ys, -, hys, rfl⟩ := mapM_cons_eq_ok.mp h
    rw [List.length_cons, List.length_cons, ih hys]

/-- What a shorter list reads. -/
theorem mapM_prefix (h : cs.mapM f = .ok xs) (hds : ds <+: cs) :
    ∃ ys, ds.mapM f = .ok ys ∧ ys <+: xs := by
  obtain ⟨rest, rfl⟩ := hds
  obtain ⟨ys, zs, hys, -, rfl⟩ := mapM_append_eq_ok.mp h
  exact ⟨ys, hys, List.prefix_append ys zs⟩

/-- Where a part of what was read comes from. -/
theorem exists_prefix_of_mapM (h : cs.mapM f = .ok xs) (hys : ys <+: xs) :
    ∃ ds, ds <+: cs ∧ ds.mapM f = .ok ys := by
  obtain ⟨zs, hzs, hprefix⟩ := mapM_prefix h (List.take_prefix ys.length cs)
  refine ⟨_, List.take_prefix ys.length cs, ?_⟩
  have hlength : zs.length = ys.length := by
    rw [length_mapM hzs, List.length_take, ← length_mapM h]
    exact Nat.min_eq_left hys.length_le
  rw [hzs, (List.prefix_of_prefix_length_le hprefix hys (Nat.le_of_eq hlength)).eq_of_length hlength]

theorem mapM_filter {keep : γ → Bool} {keep' : α → Bool} (h : cs.mapM f = .ok xs)
    (hkeep : ∀ c x, f c = .ok x → keep c = keep' x) :
    (cs.filter keep).mapM f = .ok (xs.filter keep') := by
  induction cs generalizing xs with
  | nil =>
    cases h
    rfl
  | cons c cs ih =>
    obtain ⟨x, ys, hx, hys, rfl⟩ := mapM_cons_eq_ok.mp h
    rw [List.filter_cons, List.filter_cons, hkeep c x hx]
    split
    · exact mapM_cons_eq_ok.mpr ⟨x, _, hx, ih hys, rfl⟩
    · exact ih hys

end Read

/-! ## Invariants -/

/-- The state at every prefix meets `I`. -/
def Always (step : σ → α → Except ε σ) (s : σ) (xs : List α) (I : σ → Prop) : Prop :=
  ∀ p, p <+: xs → ∀ t, run step s p = .ok t → I t

/-- Every step that is taken meets `C`. -/
def EveryStep (step : σ → α → Except ε σ) (s : σ) (xs : List α) (C : σ → α → Prop) : Prop :=
  ∀ p a, p ++ [a] <+: xs → ∀ t t', run step s p = .ok t → step t a = .ok t' → C t a

theorem Always.last {I : σ → Prop} (h : Always step s xs I) (hrun : run step s xs = .ok t) : I t :=
  h xs (List.prefix_refl xs) t hrun

/-- The invariant `J` is known; `I` is kept by the steps that meet `C`. -/
theorem always_of_step {I J : σ → Prop} {C : σ → α → Prop} (hinit : I s) (hJ : Always step s xs J)
    (hstep : ∀ t a t', a ∈ xs → J t → I t → step t a = .ok t' → C t a → I t')
    (h : EveryStep step s xs C) : Always step s xs I := by
  intro p
  induction p using List.reverseRecOn with
  | nil =>
    intro _ t ht
    cases ht
    exact hinit
  | append_singleton p a ih =>
    intro hp t' ht'
    obtain ⟨t, ht, ha⟩ := run_snoc_eq_ok.mp ht'
    have hp' := prefix_of_snoc hp
    exact hstep t a t' (mem_of_snoc hp) (hJ p hp' t ht) (ih hp' t ht) ha (h p a hp t t' ht ha)

theorem invariant {I : σ → Prop} (hinit : I s)
    (hstep : ∀ t a t', a ∈ xs → I t → step t a = .ok t' → I t') : Always step s xs I :=
  always_of_step (J := fun _ => True) (C := fun _ _ => True) hinit (fun _ _ _ _ => trivial)
    (fun t a t' ha _ hI h _ => hstep t a t' ha hI h) fun _ _ _ _ _ _ _ => trivial

/-- `I` is kept by just the steps that meet `C`. -/
theorem always_iff {I J : σ → Prop} {C : σ → α → Prop} (hinit : I s) (hJ : Always step s xs J)
    (hstep : ∀ t a t', a ∈ xs → J t → I t → step t a = .ok t' → (I t' ↔ C t a)) :
    Always step s xs I ↔ EveryStep step s xs C := by
  constructor
  · intro h p a hp t t' ht ha
    have hI := h p (prefix_of_snoc hp) t ht
    have hI' := h (p ++ [a]) hp t' (run_snoc_eq_ok.mpr ⟨t, ht, ha⟩)
    exact (hstep t a t' (mem_of_snoc hp) (hJ p (prefix_of_snoc hp) t ht) hI ha).mp hI'
  · exact always_of_step hinit hJ fun t a t' ha hJ hI h hC => (hstep t a t' ha hJ hI h).mpr hC

/-! ## Inputs left out -/

/-- Both threw the same, or both returned related values. -/
def Both (R : σ → σ → Prop) : Except ε σ → Except ε σ → Prop
  | .ok s, .ok t => R s t
  | .error e, .error e' => e = e'
  | _, _ => False

/-- The runs with and without the inputs that `keep` leaves out. -/
structure Purge (step : σ → α → Except ε σ) (s : σ) (xs : List α) (keep : α → Bool)
    (obs : σ → β) (R : σ → σ → Prop) (idle : σ → α → Prop) : Prop where
  init : R s s
  obs_eq : ∀ {t u}, R t u → obs t = obs u
  kept : ∀ {t u a}, a ∈ xs → keep a = true → R t u → Both R (step t a) (step u a)
  idle_step : ∀ {t u a}, a ∈ xs → keep a = false → R t u → idle t a → ∃ t', step t a = .ok t' ∧ R t' u
  moves : ∀ {t u a}, a ∈ xs → keep a = false → R t u → ¬ idle t a → (step t a).map obs ≠ .ok (obs t)

namespace Purge

variable {keep : α → Bool} {obs : σ → β} {R : σ → σ → Prop} {idle : σ → α → Prop}

theorem map_eq (h : Purge step s xs keep obs R idle) {x y : Except ε σ} (hb : Both R x y) :
    x.map obs = y.map obs := by
  cases x <;> cases y
  · exact congrArg Except.error hb
  · exact hb.elim
  · exact hb.elim
  · exact congrArg Except.ok (h.obs_eq hb)

/-- An input at the end of both runs. -/
theorem both_kept (h : Purge step s xs keep obs R idle) {p : List α} (ha : a ∈ xs)
    (hkeep : keep a = true) (hb : Both R (run step s p) (run step s (p.filter keep))) :
    Both R (run step s (p ++ [a])) (run step s ((p ++ [a]).filter keep)) := by
  rw [List.filter_append, List.filter_cons_of_pos hkeep, List.filter_nil]
  cases hx : run step s p <;> cases hy : run step s (p.filter keep) <;> rw [hx, hy] at hb
  · rw [run_snoc_of_error hx, run_snoc_of_error hy]
    exact hb
  · exact hb.elim
  · exact hb.elim
  · rw [run_snoc_of_ok hx, run_snoc_of_ok hy]
    exact h.kept ha hkeep hb

/-- An input that only the full run is given. -/
theorem both_idle (h : Purge step s xs keep obs R idle) {p : List α} (ha : a ∈ xs)
    (hkeep : keep a = false) (hb : Both R (run step s p) (run step s (p.filter keep)))
    (hidle : ∀ t, run step s p = .ok t → idle t a) :
    Both R (run step s (p ++ [a])) (run step s ((p ++ [a]).filter keep)) := by
  rw [List.filter_append, List.filter_cons_of_neg (by simp [hkeep]), List.filter_nil, List.append_nil]
  cases hx : run step s p <;> cases hy : run step s (p.filter keep) <;> rw [hx, hy] at hb
  · rw [run_snoc_of_error hx]
    exact hb
  · exact hb.elim
  · exact hb.elim
  · obtain ⟨t', ht', hR⟩ := h.idle_step ha hkeep hb (hidle _ hx)
    rw [run_snoc_of_ok hx, ht']
    exact hR

/-- If the prefixes show the same, an input left out is idle where it comes. -/
theorem idle_of_eq (h : Purge step s xs keep obs R idle) {p : List α} (ha : a ∈ xs)
    (hkeep : keep a = false) (hb : Both R (run step s p) (run step s (p.filter keep)))
    (heq : (run step s (p ++ [a])).map obs = (run step s ((p ++ [a]).filter keep)).map obs)
    (hx : run step s p = .ok t) : idle t a := by
  rw [List.filter_append, List.filter_cons_of_neg (by simp [hkeep]), List.filter_nil,
    List.append_nil, run_snoc_of_ok hx] at heq
  cases hy : run step s (p.filter keep) <;> rw [hx, hy] at hb
  · exact hb.elim
  · next u =>
    by_contra hidle
    refine h.moves ha hkeep hb hidle ?_
    rw [heq, hy, h.obs_eq hb]
    rfl

/-- The two runs show the same after every prefix just when every input left out is idle. -/
theorem same_iff (h : Purge step s xs keep obs R idle) :
    (∀ p, p <+: xs → (run step s p).map obs = (run step s (p.filter keep)).map obs) ↔
      ∀ p a, p ++ [a] <+: xs → keep a = false → ∀ t, run step s p = .ok t → idle t a := by
  constructor
  · intro heq
    have hboth : ∀ p, p <+: xs → Both R (run step s p) (run step s (p.filter keep)) := by
      intro p
      induction p using List.reverseRecOn with
      | nil => exact fun _ => h.init
      | append_singleton p a ih =>
        intro hp
        have hb := ih (prefix_of_snoc hp)
        cases hkeep : keep a with
        | true => exact h.both_kept (mem_of_snoc hp) hkeep hb
        | false =>
          exact h.both_idle (mem_of_snoc hp) hkeep hb fun t ht =>
            h.idle_of_eq (mem_of_snoc hp) hkeep hb (heq _ hp) ht
    exact fun p a hp hkeep t ht =>
      h.idle_of_eq (mem_of_snoc hp) hkeep (hboth p (prefix_of_snoc hp)) (heq _ hp) ht
  · intro hidle p hp
    refine h.map_eq ?_
    induction p using List.reverseRecOn with
    | nil => exact h.init
    | append_singleton p a ih =>
      have hb := ih (prefix_of_snoc hp)
      cases hkeep : keep a with
      | true => exact h.both_kept (mem_of_snoc hp) hkeep hb
      | false => exact h.both_idle (mem_of_snoc hp) hkeep hb (hidle p a hp hkeep)

end Purge

end SimpleL1.Lib.Runs
