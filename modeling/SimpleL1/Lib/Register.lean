/-!
# Registers and traces

A register is a list of records; a record is put in the place of the first one
that is the same to it, else at the end. The trace of a run keeps what each step
answered. What a trace has put in a register stays there, as long as no later
record is the same as another one of the trace.
-/

namespace SimpleL1.Lib

/-! ## Traces -/

section
variable {σ ι ρ : Type}

/-- The runs from `s₀` with steps on inputs that are `ok`, and the answers on the way. -/
inductive Trace (step : σ → ι → σ) (answers : σ → ι → List ρ) (ok : List ρ → σ → ι → Prop)
    (s₀ : σ) : List ρ → σ → Prop where
  | start : Trace step answers ok s₀ [] s₀
  | step {history : List ρ} {s : σ} (i : ι) : Trace step answers ok s₀ history s →
      ok history s i → Trace step answers ok s₀ (history ++ answers s i) (step s i)

/-- What one step keeps, a run keeps. -/
theorem Trace.invariant {step : σ → ι → σ} {answers : σ → ι → List ρ}
    {ok : List ρ → σ → ι → Prop} {s₀ : σ} {I : List ρ → σ → Prop} (hstart : I [] s₀)
    (hstep : ∀ history s i, I history s → ok history s i → I (history ++ answers s i) (step s i))
    {history : List ρ} {s : σ} (h : Trace step answers ok s₀ history s) : I history s := by
  induction h with
  | start => exact hstart
  | step i _ hok ih => exact hstep _ _ i ih hok

/-- Answers that differ from all that came before are pairwise different. -/
theorem pairwise_snoc {R : ρ → ρ → Prop} {history : List ρ} {x : ρ} (h : history.Pairwise R)
    (hx : ∀ r ∈ history, R r x) : (history ++ [x]).Pairwise R := by
  rw [List.pairwise_append]
  refine ⟨h, List.pairwise_singleton R x, fun r hr y hy => ?_⟩
  rw [List.mem_singleton.mp hy]
  exact hx r hr

end

/-! ## Registers -/

section
variable {α : Type} {same : α → α → Bool} {x y : α} {xs : List α}

def put (same : α → α → Bool) (x : α) : List α → List α
  | [] => [x]
  | y :: ys => if same y x then x :: ys else y :: put same x ys

theorem mem_put_self : x ∈ put same x xs := by
  induction xs with
  | nil => exact List.mem_singleton_self x
  | cons z zs ih =>
    unfold put
    split
    · exact List.mem_cons_self
    · exact List.mem_cons_of_mem _ ih

theorem mem_put_of_mem (hy : y ∈ xs) (h : same y x = true → y = x) : y ∈ put same x xs := by
  induction xs with
  | nil => cases hy
  | cons z zs ih =>
    unfold put
    rcases List.mem_cons.mp hy with rfl | hy
    · split
      · next hsame => rw [h hsame]; exact List.mem_cons_self
      · exact List.mem_cons_self
    · split
      · exact List.mem_cons_of_mem _ hy
      · exact List.mem_cons_of_mem _ (ih hy)

/-- The records of `history` and the new one are in the register. -/
theorem kept_put {ρ : Type} (record : ρ → α) {history : List ρ} {r : ρ}
    (h : ∀ r ∈ history, record r ∈ xs)
    (hr : ∀ r' ∈ history, same (record r') (record r) = true → record r' = record r) :
    ∀ r' ∈ history ++ [r], record r' ∈ put same (record r) xs := by
  intro r' hr'
  rcases List.mem_append.mp hr' with hold | hnew
  · exact mem_put_of_mem (h r' hold) (hr r' hold)
  · rw [List.mem_singleton.mp hnew]
    exact mem_put_self

end

end SimpleL1.Lib
