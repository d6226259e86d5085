import Mathlib.Data.List.Basic

/-!
# The first that decides

The items of a list are looked at in turn until one decides; a look may throw.
What comes after the item a list is decided by does not count.
-/

namespace SimpleL1.Lib.Scan

variable {α δ ε : Type} {look : α → Except ε (Option δ)} {xs : List α} {x : α}

/-- None of the items decides. -/
def Open (look : α → Except ε (Option δ)) (xs : List α) : Prop := ∀ x ∈ xs, look x = .ok none

theorem open_nil : Open look [] := List.forall_mem_nil _

theorem open_cons : Open look (x :: xs) ↔ look x = .ok none ∧ Open look xs := List.forall_mem_cons

/-- A list is open, has a first item that decides or has a first item that throws. -/
theorem open_or_first (look : α → Except ε (Option δ)) (xs : List α) :
    Open look xs
    ∨ (∃ pre x post d, xs = pre ++ x :: post ∧ Open look pre ∧ look x = .ok (some d))
    ∨ ∃ pre x post e, xs = pre ++ x :: post ∧ Open look pre ∧ look x = .error e := by
  induction xs with
  | nil => exact .inl open_nil
  | cons x xs ih =>
    cases hx : look x with
    | error e => exact .inr (.inr ⟨[], x, xs, e, rfl, open_nil, hx⟩)
    | ok found =>
      cases found with
      | some d => exact .inr (.inl ⟨[], x, xs, d, rfl, open_nil, hx⟩)
      | none =>
        rcases ih with hopen | ⟨pre, y, post, d, rfl, hopen, hy⟩ | ⟨pre, y, post, e, rfl, hopen, hy⟩
        · exact .inl (open_cons.mpr ⟨hx, hopen⟩)
        · exact .inr (.inl ⟨x :: pre, y, post, d, rfl, open_cons.mpr ⟨hx, hopen⟩, hy⟩)
        · exact .inr (.inr ⟨x :: pre, y, post, e, rfl, open_cons.mpr ⟨hx, hopen⟩, hy⟩)

/-! ## The last of its kind -/

theorem find_reverse_eq_some_iff {p : α → Bool} :
    xs.reverse.find? p = some x ↔
      ∃ pre post, xs = pre ++ x :: post ∧ p x = true ∧ ∀ y ∈ post, p y = false := by
  rw [List.find?_eq_some_iff_append]
  constructor
  · rintro ⟨hx, post, pre, hxs, hpost⟩
    refine ⟨pre.reverse, post.reverse, ?_, hx, fun y hy => by simpa using hpost y (List.mem_reverse.mp hy)⟩
    rw [← List.reverse_reverse xs, hxs, List.reverse_append, List.reverse_cons, List.append_assoc]
    rfl
  · rintro ⟨pre, post, rfl, hx, hpost⟩
    refine ⟨hx, post.reverse, pre.reverse, ?_, fun y hy => by simpa using hpost y (List.mem_reverse.mp hy)⟩
    rw [List.reverse_append, List.reverse_cons, List.append_assoc]
    rfl

theorem find_reverse_eq_none_iff {p : α → Bool} : xs.reverse.find? p = none ↔ ∀ y ∈ xs, p y = false := by
  simp [List.find?_eq_none]

end SimpleL1.Lib.Scan
