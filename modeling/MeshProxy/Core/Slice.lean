/-
Go slices over a heap of backing arrays.

A heap is a list of arrays, each a list of cells whose length never changes; a slice is a header (array, offset, length,
capacity). `append` writes in place while there is spare capacity and otherwise moves the elements to a new array, so
two headers over one array see each other's writes. `grow` is the runtime's growth policy, left open: the new capacity
is at least what the append needs. A cell never written holds the element type's zero value.

- `read_append_self`: appending appends, for the header that `append` returns;
- `read_append`, `read_set`: what any other header sees of a write;
- `mem_read_append`, `mem_read_set`: such a header's elements were there before or are the one written;
- `set_append_last`: growing by a placeholder and then overwriting it is appending the value;
- `read_resliceFrom`, `getElem?_read`: what a header re-sliced from an index shows, and what indexing returns.
Headers are well formed (`Slice.Ok`) when their capacity lies inside their array; every operation keeps that.
-/
import Mathlib.Tactic

namespace MeshProxy.GoSlice

variable {α : Type}

/-- the backing arrays, by number -/
abbrev Heap (α : Type) := List (List α)

/-- a slice header -/
structure Slice where
  arr : ℕ
  off : ℕ
  len : ℕ
  cap : ℕ
deriving DecidableEq, Repr

/-- the nil slice, and the empty literal -/
def Slice.nil : Slice := ⟨0, 0, 0, 0⟩

/-- the cells of array `a` -/
def cells (h : Heap α) (a : ℕ) : List α := h.getD a []

/-- the elements a header shows -/
def read (h : Heap α) (s : Slice) : List α := ((cells h s.arr).drop s.off).take s.len

/-- write one cell -/
def store (h : Heap α) (a i : ℕ) (x : α) : Heap α := h.set a ((cells h a).set i x)

/-- `s[i] = x` -/
def set (h : Heap α) (s : Slice) (i : ℕ) (x : α) : Heap α := store h s.arr (s.off + i) x

/-- `append(s, x)` -/
def append (zero : α) (grow : ℕ → ℕ) (h : Heap α) (s : Slice) (x : α) : Heap α × Slice :=
  if s.len < s.cap then (store h s.arr (s.off + s.len) x, { s with len := s.len + 1 })
  else
    let cap := max (s.len + 1) (grow s.cap)
    (h ++ [read h s ++ x :: List.replicate (cap - (s.len + 1)) zero], ⟨h.length, 0, s.len + 1, cap⟩)

/-- a header whose capacity lies inside its array -/
structure Slice.Ok (h : Heap α) (s : Slice) : Prop where
  len_le : s.len ≤ s.cap
  cap_le : s.off + s.cap ≤ (cells h s.arr).length

theorem Slice.nil_ok (h : Heap α) : Slice.Ok h .nil := ⟨le_rfl, Nat.zero_le _⟩

theorem read_nil (h : Heap α) : read h .nil = [] := by simp [read, Slice.nil]

theorem length_read {h : Heap α} {s : Slice} (hs : s.Ok h) : (read h s).length = s.len := by
  have h1 := hs.len_le
  have h2 := hs.cap_le
  simp only [read, List.length_take, List.length_drop]
  omega

/-! ## Cells after a write -/

theorem cells_store (h : Heap α) (a i : ℕ) (x : α) (b : ℕ) :
    cells (store h a i x) b = if b = a then (cells h b).set i x else cells h b := by
  unfold store cells
  rw [List.getD_eq_getElem?_getD, List.getD_eq_getElem?_getD, List.getElem?_set]
  by_cases hab : b = a
  · subst hab
    by_cases hb : b < h.length
    · simp [hb]
    · simp [hb]
  · have hba : a ≠ b := fun e => hab e.symm
    simp [hab, hba]

theorem length_cells_store (h : Heap α) (a i : ℕ) (x : α) (b : ℕ) :
    (cells (store h a i x) b).length = (cells h b).length := by
  rw [cells_store]; split_ifs <;> simp

/-- an array below the heap's length is untouched when a new array is added -/
theorem cells_snoc_of_lt (h : Heap α) (l : List α) {b : ℕ} (hb : b < h.length) : cells (h ++ [l]) b = cells h b := by
  simp [cells, List.getD_eq_getElem?_getD, List.getElem?_append_left hb]

theorem cells_snoc_self (h : Heap α) (l : List α) : cells (h ++ [l]) h.length = l := by
  simp [cells, List.getD_eq_getElem?_getD]

theorem cells_of_ge (h : Heap α) {b : ℕ} (hb : h.length ≤ b) : cells h b = [] := by
  simp [cells, List.getD_eq_getElem?_getD, List.getElem?_eq_none hb]

/-! ## What a header sees of a write -/

theorem read_store (h : Heap α) (a i : ℕ) (x : α) (t : Slice) :
    read (store h a i x) t = if t.arr = a ∧ t.off ≤ i then (read h t).set (i - t.off) x else read h t := by
  unfold read
  rw [cells_store]
  by_cases ha : t.arr = a
  · by_cases hi : t.off ≤ i
    · have hi' : ¬ i < t.off := by omega
      simp [ha, hi, List.drop_set, hi', List.take_set]
    · have hi' : i < t.off := by omega
      simp [ha, hi, List.drop_set, hi']
  · simp [ha]

theorem read_set (h : Heap α) (s : Slice) (i : ℕ) (x : α) (t : Slice) :
    read (set h s i x) t =
      if t.arr = s.arr ∧ t.off ≤ s.off + i then (read h t).set (s.off + i - t.off) x else read h t :=
  read_store h s.arr (s.off + i) x t

/-- a header over an old array does not see a new array -/
theorem read_snoc {h : Heap α} {t : Slice} (ht : t.Ok h) (l : List α) : read (h ++ [l]) t = read h t := by
  by_cases hb : t.arr < h.length
  · simp [read, cells_snoc_of_lt h l hb]
  · have hc := ht.cap_le
    have hl := ht.len_le
    rw [cells_of_ge h (by omega)] at hc
    have h0 : t.len = 0 := by simp at hc; omega
    simp [read, h0]

theorem read_append (zero : α) (grow : ℕ → ℕ) (h : Heap α) (s : Slice) (x : α) {t : Slice} (ht : t.Ok h) :
    read (append zero grow h s x).1 t =
      if s.len < s.cap ∧ t.arr = s.arr ∧ t.off ≤ s.off + s.len then (read h t).set (s.off + s.len - t.off) x
      else read h t := by
  unfold append
  by_cases hc : s.len < s.cap
  · simp [hc, read_store]
  · simp [hc, read_snoc ht]

theorem take_succ_set {l : List α} {n : ℕ} (hn : n < l.length) (x : α) : (l.set n x).take (n + 1) = l.take n ++ [x] := by
  rw [List.take_succ_eq_append_getElem (by simpa using hn), List.getElem_set_self, List.take_set,
    List.set_eq_of_length_le (by simp)]

/-- **Appending appends**, for the returned header -/
theorem read_append_self (zero : α) (grow : ℕ → ℕ) {h : Heap α} {s : Slice} (hs : s.Ok h) (x : α) :
    read (append zero grow h s x).1 (append zero grow h s x).2 = read h s ++ [x] := by
  have hlen := length_read hs
  unfold append
  by_cases hc : s.len < s.cap
  · have hcap := hs.cap_le
    have hroom : s.len < ((cells h s.arr).drop s.off).length := by simp; omega
    simp only [hc, if_true, read, cells_store, List.drop_set]
    rw [if_neg (by omega), Nat.add_sub_cancel_left, take_succ_set hroom]
  · simp only [hc, if_false]
    rw [read, cells_snoc_self]
    simp [List.take_append, hlen]

theorem mem_read_set {h : Heap α} {s t : Slice} {i : ℕ} {x y : α} (hy : y ∈ read (set h s i x) t) :
    y ∈ read h t ∨ y = x := by
  rw [read_set] at hy
  split_ifs at hy
  · exact List.mem_or_eq_of_mem_set hy
  · exact Or.inl hy

theorem mem_read_append {zero : α} {grow : ℕ → ℕ} {h : Heap α} {s t : Slice} {x y : α} (ht : t.Ok h)
    (hy : y ∈ read (append zero grow h s x).1 t) : y ∈ read h t ∨ y = x := by
  rw [read_append zero grow h s x ht] at hy
  split_ifs at hy
  · exact List.mem_or_eq_of_mem_set hy
  · exact Or.inl hy

/-- growing by a placeholder and overwriting it is appending the value -/
theorem set_append_last (zero : α) (grow : ℕ → ℕ) {h : Heap α} {s : Slice} (hs : s.Ok h) (y x : α) :
    set (append zero grow h s y).1 (append zero grow h s y).2 s.len x = (append zero grow h s x).1 := by
  have hlen := length_read hs
  unfold append
  by_cases hc : s.len < s.cap
  · simp only [hc, if_true, set, store]
    rw [List.set_set]
    congr 1
    change (cells (store h s.arr (s.off + s.len) y) s.arr).set _ x = _
    rw [cells_store, if_pos rfl, List.set_set]
  · simp only [hc, if_false, set, store, Nat.zero_add, cells_snoc_self]
    simp [hlen]

theorem append_header (zero : α) (grow : ℕ → ℕ) (h : Heap α) (s : Slice) (x y : α) :
    (append zero grow h s x).2 = (append zero grow h s y).2 := by
  unfold append; split_ifs <;> rfl

/-! ## Indexing and re-slicing -/

/-- `s[i]`, the zero value where there is no cell -/
def get (zero : α) (h : Heap α) (s : Slice) (i : ℕ) : α := (cells h s.arr).getD (s.off + i) zero

/-- `s[k:]`: the same array, further in -/
def Slice.resliceFrom (s : Slice) (k : ℕ) : Slice := ⟨s.arr, s.off + k, s.len - k, s.cap - k⟩

theorem getElem?_read (zero : α) {h : Heap α} {s : Slice} (hs : s.Ok h) {i : ℕ} (hi : i < s.len) :
    (read h s)[i]? = some (get zero h s i) := by
  have h1 := hs.len_le
  have h2 := hs.cap_le
  have hcell : s.off + i < (cells h s.arr).length := by omega
  rw [read, List.getElem?_take_of_lt hi, List.getElem?_drop, get, List.getD_eq_getElem?_getD,
    List.getElem?_eq_getElem hcell, Option.getD_some]

theorem read_resliceFrom (h : Heap α) (s : Slice) (k : ℕ) : read h (s.resliceFrom k) = (read h s).drop k := by
  simp only [read, Slice.resliceFrom, List.drop_take, List.drop_drop]

theorem Slice.Ok.resliceFrom {h : Heap α} {s : Slice} (hs : s.Ok h) {k : ℕ} (hk : k ≤ s.len) :
    (s.resliceFrom k).Ok h := by
  have h1 := hs.len_le
  have h2 := hs.cap_le
  refine ⟨?_, ?_⟩
  · simp only [Slice.resliceFrom]; omega
  · simp only [Slice.resliceFrom]; omega

/-- a write before the start of a header is not seen through it -/
theorem read_set_before (h : Heap α) (s : Slice) {i k : ℕ} (hik : i < k) (x : α) :
    read (set h s i x) (s.resliceFrom k) = read h (s.resliceFrom k) := by
  rw [read_set, if_neg]
  simp only [Slice.resliceFrom]
  omega

theorem read_set_self (h : Heap α) (s : Slice) (i : ℕ) (x : α) : read (set h s i x) s = (read h s).set i x := by
  rw [read_set, if_pos ⟨rfl, Nat.le_add_right _ _⟩, Nat.add_sub_cancel_left]

/-! ## Well-formedness is kept -/

theorem Slice.Ok.set {h : Heap α} {t : Slice} (ht : t.Ok h) (s : Slice) (i : ℕ) (x : α) :
    t.Ok (MeshProxy.GoSlice.set h s i x) :=
  ⟨ht.len_le, by rw [MeshProxy.GoSlice.set, length_cells_store]; exact ht.cap_le⟩

theorem Slice.Ok.append {h : Heap α} {t : Slice} (ht : t.Ok h) (zero : α) (grow : ℕ → ℕ) (s : Slice) (x : α) :
    t.Ok (MeshProxy.GoSlice.append zero grow h s x).1 := by
  refine ⟨ht.len_le, ?_⟩
  have hc := ht.cap_le
  unfold MeshProxy.GoSlice.append
  split_ifs
  · simp only [length_cells_store]; exact hc
  · by_cases hb : t.arr < h.length
    · simp only [cells_snoc_of_lt h _ hb]; exact hc
    · rw [cells_of_ge h (by omega)] at hc
      simp only [List.length_nil] at hc
      omega

theorem append_ok (zero : α) (grow : ℕ → ℕ) {h : Heap α} {s : Slice} (hs : s.Ok h) (x : α) :
    Slice.Ok (append zero grow h s x).1 (append zero grow h s x).2 := by
  have hlen := length_read hs
  have hc := hs.cap_le
  unfold append
  split_ifs with h1
  · exact ⟨by simp only; omega, by simp only [length_cells_store]; exact hc⟩
  · refine ⟨Nat.le_max_left _ _, ?_⟩
    simp only [cells_snoc_self, List.length_append, List.length_cons, List.length_replicate, hlen]
    omega

end MeshProxy.GoSlice
