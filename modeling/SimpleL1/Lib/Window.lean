import Mathlib.Data.List.DropRight

/-!
# Bounded windows

A list that takes one item at a time at its end and drops its first when it has
become too long shows the last items of all that it was given.
-/

namespace SimpleL1.Lib.Window

variable {α : Type} {cap n : Nat} {xs : List α} {x : α}

/-- Append, and drop the first when there are more than `cap`. -/
def push (cap : Nat) (xs : List α) (x : α) : List α :=
  if (xs ++ [x]).length > cap then (xs ++ [x]).tail else xs ++ [x]

theorem rtake_of_length_le (h : xs.length ≤ n) : xs.rtake n = xs := by
  rw [List.rtake, Nat.sub_eq_zero_of_le h, List.drop_zero]

theorem length_rtake_le (n : Nat) (xs : List α) : (xs.rtake n).length ≤ n := by
  rw [List.rtake, List.length_drop]
  omega

/-- What a window does not show is not needed to go on. -/
theorem rtake_rtake_append (n : Nat) (xs ys : List α) : (xs.rtake n ++ ys).rtake n = (xs ++ ys).rtake n := by
  by_cases h : xs.length ≤ n
  · rw [rtake_of_length_le h]
  · have hlong : xs.length - n ≤ xs.length := Nat.sub_le ..
    have hdrop : xs.rtake n ++ ys = (xs ++ ys).drop (xs.length - n) := by
      rw [List.rtake, List.drop_append_of_le_length hlong]
    rw [hdrop, List.rtake, List.rtake, List.drop_drop, List.length_drop, List.length_append]
    congr 1
    omega

theorem push_eq_rtake (h : xs.length ≤ cap) : push cap xs x = (xs ++ [x]).rtake cap := by
  unfold push
  split
  · next hlong =>
    rw [List.length_append, List.length_singleton] at hlong
    have hone : (xs ++ [x]).length - cap = 1 := by
      rw [List.length_append, List.length_singleton]
      omega
    rw [List.rtake, hone, List.drop_one]
  · next hshort => exact (rtake_of_length_le (Nat.not_lt.mp hshort)).symm

end SimpleL1.Lib.Window
