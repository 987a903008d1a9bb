/-
A finite map with its keys in some iteration order, as Go's built-in maps are used: lookup, assignment, a range over the
keys. The key list has no duplicates and lists exactly the keys that are set, so a map that contradicts itself cannot be
built.
-/
import Mathlib.Tactic

namespace MeshProxy

structure GoMap (κ ν : Type) where
  keys : List κ
  get? : κ → Option ν
  nodup : keys.Nodup
  mem_keys : ∀ k, k ∈ keys ↔ (get? k).isSome

namespace GoMap

variable {κ ν : Type}

/-- `make(map[κ]ν)` -/
def empty : GoMap κ ν := ⟨[], fun _ => none, List.nodup_nil, by simp⟩

/-- `m[k] = v` -/
def set [DecidableEq κ] (m : GoMap κ ν) (k : κ) (v : ν) : GoMap κ ν where
  keys := if k ∈ m.keys then m.keys else m.keys ++ [k]
  get? := fun j => if j = k then some v else m.get? j
  nodup := by
    split_ifs with hk
    · exact m.nodup
    · rw [List.nodup_append_comm]
      exact List.nodup_cons.2 ⟨hk, m.nodup⟩
  mem_keys := by
    intro j
    by_cases hj : j = k
    · subst hj
      by_cases hk : j ∈ m.keys
      · simp [hk]
      · simp [hk]
    · have hkj : ¬ k = j := fun e => hj e.symm
      by_cases hk : k ∈ m.keys
      · simp [hk, hj, m.mem_keys j]
      · simp [hk, hj, m.mem_keys j]

/-- assign to every key, during a range over the map, a value computed from the old one -/
def mapVal (m : GoMap κ ν) (f : κ → ν → ν) : GoMap κ ν where
  keys := m.keys
  get? := fun k => (m.get? k).map (f k)
  nodup := m.nodup
  mem_keys := fun k => by simp [m.mem_keys k]

/-- the same keys with other values -/
def map {μ : Type} (m : GoMap κ ν) (f : ν → μ) : GoMap κ μ where
  keys := m.keys
  get? := fun k => (m.get? k).map f
  nodup := m.nodup
  mem_keys := fun k => by simp [m.mem_keys k]

@[simp] theorem get?_empty (k : κ) : (empty : GoMap κ ν).get? k = none := rfl

theorem get?_set [DecidableEq κ] (m : GoMap κ ν) (k : κ) (v : ν) (j : κ) :
    (m.set k v).get? j = if j = k then some v else m.get? j := rfl

@[simp] theorem get?_mapVal (m : GoMap κ ν) (f : κ → ν → ν) (k : κ) :
    (m.mapVal f).get? k = (m.get? k).map (f k) := rfl

@[simp] theorem get?_map {μ : Type} (m : GoMap κ ν) (f : ν → μ) (k : κ) : (m.map f).get? k = (m.get? k).map f := rfl

end GoMap

end MeshProxy
