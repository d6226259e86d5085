import SimpleL1.Js.Json

/-!
# Array methods with callbacks that throw

`filter` and `find` call the predicate on one entry after the other; the first
exception ends the call. A predicate that never throws gives the methods of lists.
-/

namespace SimpleL1.Js

variable {α : Type}

/-- `xs.filter(p)`. -/
def filter (p : α → JsM Bool) : List α → JsM (List α)
  | [] => return []
  | x :: xs => do
    let keep ← p x
    let rest ← filter p xs
    return if keep then x :: rest else rest

/-- `xs.find(p)`. -/
def find (p : α → JsM Bool) : List α → JsM (Option α)
  | [] => return none
  | x :: xs => do
    if ← p x then return some x else find p xs

theorem filter_eq {p : α → JsM Bool} {q : α → Bool} {xs : List α}
    (h : ∀ x ∈ xs, p x = .ok (q x)) : filter p xs = .ok (xs.filter q) := by
  induction xs with
  | nil => rfl
  | cons x xs ih =>
    rw [filter, h x List.mem_cons_self, ok_bind, ih fun y hy => h y (List.mem_cons_of_mem x hy),
      ok_bind, List.filter_cons]
    rfl

theorem filter_append {p : α → JsM Bool} {xs ys xs' ys' : List α} (hx : filter p xs = .ok xs')
    (hy : filter p ys = .ok ys') : filter p (xs ++ ys) = .ok (xs' ++ ys') := by
  induction xs generalizing xs' with
  | nil => cases hx; exact hy
  | cons x xs ih =>
    obtain ⟨keep, hkeep, hx⟩ := bind_eq_ok.mp hx
    obtain ⟨rest, hrest, hx⟩ := bind_eq_ok.mp hx
    rw [List.cons_append, filter, hkeep, ok_bind, ih hrest, ok_bind]
    cases keep <;> cases hx <;> rfl

/-- What was kept is kept again. -/
theorem filter_filter {p : α → JsM Bool} {xs ys : List α} (h : filter p xs = .ok ys) :
    filter p ys = .ok ys := by
  induction xs generalizing ys with
  | nil => cases h; rfl
  | cons x xs ih =>
    obtain ⟨keep, hkeep, h⟩ := bind_eq_ok.mp h
    obtain ⟨rest, hrest, h⟩ := bind_eq_ok.mp h
    cases keep with
    | false => cases h; exact ih hrest
    | true =>
      cases h
      show filter p (x :: rest) = _
      rw [filter, hkeep, ok_bind, ih hrest]
      rfl

theorem mem_of_mem_filter {p : α → JsM Bool} {xs ys : List α} (h : filter p xs = .ok ys) {x : α}
    (hx : x ∈ ys) : x ∈ xs := by
  induction xs generalizing ys with
  | nil => cases h; exact hx
  | cons y xs ih =>
    obtain ⟨keep, _, h⟩ := bind_eq_ok.mp h
    obtain ⟨rest, hrest, h⟩ := bind_eq_ok.mp h
    cases keep with
    | false => cases h; exact .tail y (ih hrest hx)
    | true =>
      cases h
      rcases List.mem_cons.mp hx with rfl | hx
      · exact .head xs
      · exact .tail y (ih hrest hx)

/-- Without the entries that are dropped, nothing changes for `q`. -/
theorem filter_drops {p : α → JsM Bool} {q : α → Bool} {xs ys : List α} (h : filter p xs = .ok ys)
    (hq : ∀ x ∈ xs, p x = .ok false → q x = false) : ys.filter q = xs.filter q := by
  induction xs generalizing ys with
  | nil => cases h; rfl
  | cons x xs ih =>
    obtain ⟨keep, hkeep, h⟩ := bind_eq_ok.mp h
    obtain ⟨rest, hrest, h⟩ := bind_eq_ok.mp h
    have hrest' := ih hrest fun y hy => hq y (.tail x hy)
    cases keep with
    | true =>
      cases h
      show (x :: rest).filter q = _
      rw [List.filter_cons, List.filter_cons, hrest']
    | false =>
      cases h
      rw [List.filter_cons, hq x (.head xs) hkeep]
      exact hrest'

/-- A callback that agrees with `g` where it returns. -/
theorem mapM_eq_ok {β : Type} {f : α → JsM β} {g : α → β} (hg : ∀ x y, f x = .ok y → y = g x)
    {xs : List α} {ys : List β} :
    xs.mapM f = .ok ys ↔ (∀ x ∈ xs, ∃ y, f x = .ok y) ∧ ys = xs.map g := by
  induction xs generalizing ys with
  | nil => simp [eq_comm]
  | cons x xs ih =>
    rw [List.mapM_cons, List.forall_mem_cons, List.map_cons, bind_eq_ok]
    constructor
    · rintro ⟨y, hy, h⟩
      obtain ⟨rest, hrest, h⟩ := bind_eq_ok.mp h
      cases h
      obtain ⟨hall, rfl⟩ := ih.mp hrest
      exact ⟨⟨⟨y, hy⟩, hall⟩, by rw [hg x y hy]⟩
    · rintro ⟨⟨⟨y, hy⟩, hall⟩, rfl⟩
      refine ⟨y, hy, bind_eq_ok.mpr ⟨_, ih.mpr ⟨hall, rfl⟩, ?_⟩⟩
      rw [hg x y hy]
      rfl

/-! ## What comes out of a callback that returns -/

theorem filter_cons_eq_ok {p : α → JsM Bool} {x : α} {xs ys : List α} :
    filter p (x :: xs) = .ok ys ↔ ∃ keep rest, p x = .ok keep ∧ filter p xs = .ok rest ∧
      ys = if keep then x :: rest else rest := by
  rw [filter, bind_eq_ok]
  refine exists_congr fun keep => ?_
  rw [bind_eq_ok, ← exists_and_left]
  refine exists_congr fun rest => and_congr_right fun _ => and_congr_right fun _ => ?_
  rw [pure_eq_ok, Except.ok.injEq, eq_comm]

theorem mem_filter {p : α → JsM Bool} {xs ys : List α} (h : filter p xs = .ok ys) {x : α} :
    x ∈ ys ↔ x ∈ xs ∧ p x = .ok true := by
  induction xs generalizing ys with
  | nil =>
    cases h
    exact ⟨nofun, fun h => h.1⟩
  | cons y xs ih =>
    obtain ⟨keep, rest, hkeep, hrest, rfl⟩ := filter_cons_eq_ok.mp h
    rw [List.mem_cons]
    cases keep with
    | false =>
      rw [if_neg Bool.false_ne_true, ih hrest]
      refine ⟨fun ⟨hmem, hx⟩ => ⟨.inr hmem, hx⟩, ?_⟩
      rintro ⟨rfl | hmem, hx⟩
      · rw [hkeep] at hx
        cases hx
      · exact ⟨hmem, hx⟩
    | true =>
      rw [if_pos rfl, List.mem_cons, ih hrest]
      constructor
      · rintro (rfl | ⟨hmem, hx⟩)
        · exact ⟨.inl rfl, hkeep⟩
        · exact ⟨.inr hmem, hx⟩
      · rintro ⟨rfl | hmem, hx⟩
        · exact .inl rfl
        · exact .inr ⟨hmem, hx⟩

theorem exists_filter {p : α → JsM Bool} {xs : List α} :
    (∃ ys, filter p xs = .ok ys) ↔ ∀ x ∈ xs, ∃ keep, p x = .ok keep := by
  induction xs with
  | nil => exact ⟨fun _ => nofun, fun _ => ⟨[], rfl⟩⟩
  | cons x xs ih =>
    rw [List.forall_mem_cons, ← ih]
    constructor
    · rintro ⟨ys, h⟩
      obtain ⟨keep, rest, hkeep, hrest, -⟩ := filter_cons_eq_ok.mp h
      exact ⟨⟨keep, hkeep⟩, rest, hrest⟩
    · rintro ⟨⟨keep, hkeep⟩, rest, hrest⟩
      exact ⟨_, filter_cons_eq_ok.mpr ⟨keep, rest, hkeep, hrest, rfl⟩⟩

theorem mapM_cons_eq_ok {β : Type} {f : α → JsM β} {x : α} {xs : List α} {ys : List β} :
    (x :: xs).mapM f = .ok ys ↔ ∃ y rest, f x = .ok y ∧ xs.mapM f = .ok rest ∧ ys = y :: rest := by
  rw [List.mapM_cons, bind_eq_ok]
  refine exists_congr fun y => ?_
  rw [bind_eq_ok, ← exists_and_left]
  refine exists_congr fun rest => and_congr_right fun _ => and_congr_right fun _ => ?_
  rw [pure_eq_ok, Except.ok.injEq, eq_comm]

theorem mem_mapM {β : Type} {f : α → JsM β} {xs : List α} {ys : List β} (h : xs.mapM f = .ok ys)
    {y : β} : y ∈ ys ↔ ∃ x ∈ xs, f x = .ok y := by
  induction xs generalizing ys with
  | nil =>
    cases h
    exact ⟨nofun, fun ⟨_, hmem, _⟩ => nomatch hmem⟩
  | cons x xs ih =>
    obtain ⟨z, rest, hz, hrest, rfl⟩ := mapM_cons_eq_ok.mp h
    rw [List.mem_cons, ih hrest]
    constructor
    · rintro (rfl | ⟨x', hmem, hy⟩)
      · exact ⟨x, .head xs, hz⟩
      · exact ⟨x', .tail x hmem, hy⟩
    · rintro ⟨x', hmem, hy⟩
      rcases List.mem_cons.mp hmem with rfl | hmem
      · rw [hz] at hy
        cases hy
        exact .inl rfl
      · exact .inr ⟨x', hmem, hy⟩

theorem exists_mapM {β : Type} {f : α → JsM β} {xs : List α} :
    (∃ ys, xs.mapM f = .ok ys) ↔ ∀ x ∈ xs, ∃ y, f x = .ok y := by
  induction xs with
  | nil => exact ⟨fun _ => nofun, fun _ => ⟨[], rfl⟩⟩
  | cons x xs ih =>
    rw [List.forall_mem_cons, ← ih]
    constructor
    · rintro ⟨ys, h⟩
      obtain ⟨y, rest, hy, hrest, -⟩ := mapM_cons_eq_ok.mp h
      exact ⟨⟨y, hy⟩, rest, hrest⟩
    · rintro ⟨⟨y, hy⟩, rest, hrest⟩
      exact ⟨_, mapM_cons_eq_ok.mpr ⟨y, rest, hy, hrest, rfl⟩⟩

theorem find_eq {p : α → JsM Bool} {q : α → Bool} {xs : List α}
    (h : ∀ x ∈ xs, p x = .ok (q x)) : find p xs = .ok (xs.find? q) := by
  induction xs with
  | nil => rfl
  | cons x xs ih =>
    rw [find, h x List.mem_cons_self, ok_bind, List.find?_cons]
    cases q x with
    | true => rfl
    | false => exact ih fun y hy => h y (List.mem_cons_of_mem x hy)

theorem find_eq_none {p : α → JsM Bool} {xs : List α} (h : find p xs = .ok none) :
    ∀ x ∈ xs, p x = .ok false := by
  induction xs with
  | nil => exact nofun
  | cons x xs ih =>
    obtain ⟨b, hb, h⟩ := bind_eq_ok.mp h
    cases b with
    | true => cases h
    | false => exact List.forall_mem_cons.mpr ⟨hb, ih h⟩

end SimpleL1.Js
