/-
The end of a log, as a bounded buffer keeps it: an item is appended, and what is over the limit goes from the front.

`l.rtake n` are the last n items of l. The rules:
- `rtake_append_rtake`: a window that was cut before more items came in is cut again to the window of the whole log;
- `push_rtake`: a push onto the window of a log leaves the window of the longer log.
Nothing here names the program under verification.
-/
import Mathlib.Tactic
import Mathlib.Data.List.DropRight

namespace MeshProxy.Window

variable {α : Type}

/-- append, and keep the last `limit` -/
def push (limit : ℕ) (buf : List α) (x : α) : List α := (buf ++ [x]).rtake limit

@[simp] theorem length_rtake (l : List α) (n : ℕ) : (l.rtake n).length = min n l.length := by
  rw [List.rtake, List.length_drop]
  omega

theorem rtake_of_length_le {l : List α} {n : ℕ} (h : l.length ≤ n) : l.rtake n = l := by
  rw [List.rtake, Nat.sub_eq_zero_of_le h, List.drop_zero]

theorem rtake_suffix (l : List α) (n : ℕ) : l.rtake n <:+ l := List.drop_suffix _ l

theorem rtake_append_of_le {l ys : List α} {n : ℕ} (h : n ≤ ys.length) : (l ++ ys).rtake n = ys.rtake n := by
  have hcut : (l ++ ys).length - n = l.length + (ys.length - n) := by
    rw [List.length_append]
    omega
  rw [List.rtake, hcut, List.drop_length_add_append, List.rtake]

/-- **A window of a window.** What was cut away before is cut away again. -/
theorem rtake_append_rtake {l ys : List α} {m n : ℕ} (h : n ≤ m + ys.length) :
    (l.rtake m ++ ys).rtake n = (l ++ ys).rtake n := by
  have hsplit : l ++ ys = l.take (l.length - m) ++ (l.rtake m ++ ys) := by
    rw [← List.append_assoc, List.rtake, List.take_append_drop]
  have hlong : n ≤ (l.rtake m ++ ys).length ∨ l.length ≤ m := by
    rw [List.length_append, length_rtake]
    omega
  rcases hlong with hlong | hshort
  · rw [hsplit, rtake_append_of_le hlong]
  · rw [rtake_of_length_le hshort]

/-- **The window rule.** A push onto the window of a log gives the window of the longer log. -/
theorem push_rtake (limit : ℕ) (l : List α) (x : α) : push limit (l.rtake limit) x = (l ++ [x]).rtake limit :=
  rtake_append_rtake (Nat.le_add_right limit _)

end MeshProxy.Window
