/-
A writer-preferring read-write mutex, as Go's sync.RWMutex, and wait-for sets.

`rlock` queues the caller while a writer has announced itself; `lock` announces the caller (one writer at a time),
`acquire` lets it in once the readers that were there have left; `unlock` lets every queued reader in at once. `mode`
reads off the mutex how a thread stands to it.

- `rlock_wf`, ..., `unlock_wf`: each operation, called in the mode it belongs to, keeps the mutex well formed;
- `mode_rlock`, ..., `mode_unlock`: the mode of the caller afterwards, and of everyone else;
- `no_deadlock_of_rank`: if waiting goes down in rank, no set of threads waits for itself.
Nothing here names the program under verification.
-/
import Mathlib.Tactic

namespace MeshProxy.Locks

variable {G : Type} [DecidableEq G]

structure RWMutex (G : Type) where
  readers : List G := []
  waiting : List G := []
  writer : Option G := none
  writing : Bool := false
deriving DecidableEq, Repr

/-- how a thread stands to a mutex -/
inductive Mode where
  | free | queued | reading | announced | writing
deriving DecidableEq, Repr

namespace RWMutex

/-- a reader arrives -/
def rlock (m : RWMutex G) (g : G) : RWMutex G :=
  if m.writer = none then { m with readers := g :: m.readers } else { m with waiting := g :: m.waiting }

def runlock (m : RWMutex G) (g : G) : RWMutex G := { m with readers := m.readers.erase g }

/-- a writer announces itself -/
def lock (m : RWMutex G) (g : G) : RWMutex G := { m with writer := some g, writing := false }

/-- the announced writer gets in -/
def acquire (m : RWMutex G) : RWMutex G := { m with writing := true }

/-- the writer leaves, and the readers that queued meanwhile are let in -/
def unlock (m : RWMutex G) : RWMutex G :=
  { readers := m.waiting ++ m.readers, waiting := [], writer := none, writing := false }

def mode (m : RWMutex G) (g : G) : Mode :=
  if m.writer = some g then if m.writing then .writing else .announced
  else if g ∈ m.waiting then .queued
  else if g ∈ m.readers then .reading
  else .free

/-- the thread holds the mutex -/
def Holds (m : RWMutex G) (g : G) : Prop := g ∈ m.readers ∨ (m.writer = some g ∧ m.writing = true)

instance (m : RWMutex G) (g : G) : Decidable (m.Holds g) := inferInstanceAs (Decidable (_ ∨ _))

structure WF (m : RWMutex G) : Prop where
  readers : m.readers.Nodup
  waiting : m.waiting.Nodup
  disjoint : ∀ g ∈ m.waiting, g ∉ m.readers
  writer : ∀ g, m.writer = some g → g ∉ m.readers ∧ g ∉ m.waiting
  queue : ∀ g ∈ m.waiting, m.writer ≠ none
  writing : m.writing = true → m.readers = [] ∧ m.writer ≠ none

variable {m : RWMutex G} {g : G}

theorem WF.mode_reading (h : m.WF) : m.mode g = .reading ↔ g ∈ m.readers := by
  unfold mode
  split_ifs with h1 h2 h3 h4
  · simp [(h.writer g h1).1]
  · simp [(h.writer g h1).1]
  · simp [h.disjoint g h3]
  · simp [h4]
  · simp [h4]

theorem WF.mode_queued (h : m.WF) : m.mode g = .queued ↔ g ∈ m.waiting := by
  unfold mode
  split_ifs with h1 h2 h3 h4
  · simp [(h.writer g h1).2]
  · simp [(h.writer g h1).2]
  · simp [h3]
  · simp [h3]
  · simp [h3]

theorem mode_of_writer (h : m.writer = some g) : m.mode g = if m.writing then .writing else .announced := if_pos h

theorem mode_writing : m.mode g = .writing ↔ m.writer = some g ∧ m.writing = true := by
  unfold mode
  split_ifs <;> simp_all

theorem mode_announced : m.mode g = .announced ↔ m.writer = some g ∧ m.writing = false := by
  unfold mode
  split_ifs <;> simp_all

theorem mode_free : m.mode g = .free ↔ m.writer ≠ some g ∧ g ∉ m.waiting ∧ g ∉ m.readers := by
  unfold mode
  split_ifs <;> simp_all

theorem not_holds_of_free (h : m.mode g = .free) : ¬m.Holds g := by
  obtain ⟨hw, -, hr⟩ := mode_free.1 h
  rintro (hg | ⟨hg, -⟩)
  · exact hr hg
  · exact hw hg

/-! ## The operations -/

theorem rlock_wf (h : m.WF) (hg : m.mode g = .free) : (m.rlock g).WF := by
  obtain ⟨hw, hq, hr⟩ := mode_free.1 hg
  unfold rlock
  split_ifs with hn
  · refine { h with readers := h.readers.cons hr, disjoint := ?_, writer := ?_, writing := ?_ } <;> dsimp only
    · intro x hx hm
      exact h.queue x hx hn
    · intro x hx
      rw [hn] at hx
      cases hx
    · intro hx
      exact absurd hn (h.writing hx).2
  · refine { h with waiting := h.waiting.cons hq, disjoint := ?_, writer := ?_, queue := ?_ } <;> dsimp only
    · intro x hx
      rcases List.mem_cons.1 hx with rfl | hx
      · exact hr
      · exact h.disjoint x hx
    · intro x hx
      refine ⟨(h.writer x hx).1, ?_⟩
      intro hm
      rcases List.mem_cons.1 hm with rfl | hm
      · exact hw hx
      · exact (h.writer x hx).2 hm
    · intro _ _
      exact hn

theorem mode_rlock (hg : m.mode g = .free) :
    ((m.rlock g).mode g = .reading ∨ (m.rlock g).mode g = .queued) ∧ ∀ x ≠ g, (m.rlock g).mode x = m.mode x := by
  obtain ⟨hw, hq, hr⟩ := mode_free.1 hg
  by_cases hn : m.writer = none
  · have hin : m.rlock g = { m with readers := g :: m.readers } := if_pos hn
    rw [hin]
    constructor
    · simp [mode, hw, hq]
    · intro x hx
      simp [mode, hx]
  · have hout : m.rlock g = { m with waiting := g :: m.waiting } := if_neg hn
    rw [hout]
    constructor
    · simp [mode, hw]
    · intro x hx
      simp [mode, hx]

theorem runlock_wf (h : m.WF) : (m.runlock g).WF := by
  refine { h with readers := h.readers.erase g, disjoint := ?_, writer := ?_, writing := ?_ } <;> dsimp only [runlock]
  · intro x hx hm
    exact h.disjoint x hx (List.mem_of_mem_erase hm)
  · intro x hx
    exact ⟨fun hm => (h.writer x hx).1 (List.mem_of_mem_erase hm), (h.writer x hx).2⟩
  · intro hx
    rw [(h.writing hx).1]
    exact ⟨rfl, (h.writing hx).2⟩

theorem mode_runlock (h : m.WF) (hg : m.mode g = .reading) :
    (m.runlock g).mode g = .free ∧ ∀ x ≠ g, (m.runlock g).mode x = m.mode x := by
  have hr := h.mode_reading.1 hg
  constructor
  · refine mode_free.2 ⟨fun hw => (h.writer g hw).1 hr, fun hq => h.disjoint g hq hr, ?_⟩
    exact fun hm => h.readers.not_mem_erase hm
  · intro x hx
    unfold mode runlock
    simp only [List.mem_erase_of_ne hx]

theorem lock_wf (h : m.WF) (hg : m.mode g = .free) : (m.lock g).WF := by
  obtain ⟨-, hq, hr⟩ := mode_free.1 hg
  refine { h with writer := ?_, queue := ?_, writing := ?_ } <;> dsimp only [lock]
  · intro x hx
    cases hx
    exact ⟨hr, hq⟩
  · intro _ _ hx
    cases hx
  · intro hx
    cases hx

theorem mode_lock (hn : m.writer = none) : (m.lock g).mode g = .announced ∧ ∀ x ≠ g, (m.lock g).mode x = m.mode x := by
  refine ⟨by simp [mode, lock], ?_⟩
  intro x hx
  unfold mode lock
  simp [hn, hx.symm]

theorem acquire_wf (h : m.WF) (hg : m.mode g = .announced) (hr : m.readers = []) : m.acquire.WF := by
  refine { h with writing := ?_ }
  intro _
  refine ⟨hr, ?_⟩
  change m.writer ≠ none
  rw [(mode_announced.1 hg).1]
  simp

theorem mode_acquire (hg : m.mode g = .announced) :
    m.acquire.mode g = .writing ∧ ∀ x ≠ g, m.acquire.mode x = m.mode x := by
  have hw := (mode_announced.1 hg).1
  refine ⟨by simp [mode, acquire, hw], ?_⟩
  intro x hx
  unfold mode acquire
  simp [hw, hx.symm]

omit [DecidableEq G] in
theorem unlock_wf (h : m.WF) : m.unlock.WF where
  readers := List.nodup_append.2
    ⟨h.waiting, h.readers, fun x hx y hy e => h.disjoint x hx (e ▸ hy)⟩
  waiting := List.nodup_nil
  disjoint := by simp [unlock]
  writer := by simp [unlock]
  queue := by simp [unlock]
  writing := by simp [unlock]

/-- nobody else is in, and the queue is let in -/
theorem mode_unlock (h : m.WF) (hg : m.mode g = .writing) :
    m.unlock.mode g = .free ∧
      ∀ x ≠ g, m.unlock.mode x = m.mode x ∨ (m.mode x = .queued ∧ m.unlock.mode x = .reading) := by
  obtain ⟨hw, hin⟩ := mode_writing.1 hg
  have hr := (h.writing hin).1
  have hq := (h.writer g hw).2
  refine ⟨by simp [mode, unlock, hr, hq], ?_⟩
  intro x hx
  by_cases hxq : x ∈ m.waiting
  · exact Or.inr ⟨h.mode_queued.2 hxq, by simp [mode, unlock, hxq]⟩
  · left
    simp [mode, unlock, hr, hxq, hw, hx.symm]

end RWMutex

/-! ## Wait-for sets -/

/-- some threads wait for one another and for nobody else to help them out: each waits for a thread of the set -/
def Deadlock (waits : G → G → Prop) : Prop := ∃ S : Set G, S.Nonempty ∧ ∀ g ∈ S, ∃ g' ∈ S, waits g g'

omit [DecidableEq G] in
/-- **The rank rule.** If a thread waits only for threads of a smaller rank, there is no deadlock. -/
theorem no_deadlock_of_rank {waits : G → G → Prop} (rank : G → ℕ) (h : ∀ g g', waits g g' → rank g' < rank g) :
    ¬Deadlock waits := by
  rintro ⟨S, hS, hwait⟩
  obtain ⟨g, hg, hmin⟩ := (measure rank).wf.has_min S hS
  obtain ⟨g', hg', hw⟩ := hwait g hg
  exact hmin g' hg' (h g g' hw)

end MeshProxy.Locks
