/-
Lists of items that carry the name of the party that handled them.

`of x l` is party x's part of l, in order. The rules:
- `subperm_of`: if every party's part of l is a sublist of its part of l', then l is, as a collection, a part of l';
- `perm_of`: if every party has the same part, the two lists hold the same items.
Nothing here names the program under verification.
-/
import Mathlib.Data.List.Perm.Subperm

namespace MeshProxy.Tagged

variable {κ β : Type} [DecidableEq κ]

/-- the items of one party -/
def of (x : κ) (l : List (κ × β)) : List β := (l.filter fun y => y.1 = x).map Prod.snd

@[simp] theorem of_nil (x : κ) : of x ([] : List (κ × β)) = [] := rfl

@[simp] theorem of_append (x : κ) (l l' : List (κ × β)) : of x (l ++ l') = of x l ++ of x l' := by
  simp [of]

@[simp] theorem of_singleton (x y : κ) (f : β) : of x [(y, f)] = if y = x then [f] else [] := by
  by_cases hy : y = x <;> simp [of, hy]

theorem of_sublist (x : κ) (l : List (κ × β)) : (of x l).Sublist (l.map Prod.snd) := List.filter_sublist.map _

theorem count_of [DecidableEq β] (x : κ × β) (l : List (κ × β)) : l.count x = (of x.1 l).count x.2 := by
  induction l with
  | nil => rfl
  | cons y l ih =>
    obtain ⟨k, f⟩ := y
    obtain ⟨k', f'⟩ := x
    by_cases hk : k = k' <;> by_cases hf : f = f' <;> simp_all [of]

/-- **Part by part.** -/
theorem subperm_of {l l' : List (κ × β)} (h : ∀ k, (of k l).Sublist (of k l')) : l.Subperm l' := by
  classical
  rw [List.subperm_ext_iff]
  intro x _
  rw [count_of, count_of]
  exact (h x.1).count_le x.2

theorem perm_of {l l' : List (κ × β)} (h : ∀ k, of k l = of k l') : l.Perm l' := by
  classical
  rw [List.perm_iff_count]
  intro x
  rw [count_of, count_of, h]

end MeshProxy.Tagged
