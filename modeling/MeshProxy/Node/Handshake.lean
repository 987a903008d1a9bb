/-
The handshake comes first: what each writeLoop writes to the node before anything else.

toNode outlives connections and takes frames at any time, so the want_config_id of a connection is at the head of the
queue only if the queue is empty when requestConfig sends it, and it stays there only if no writeLoop left over from an
earlier connection takes it. Under these two conditions on the steps of a run (`HandshakeSafe`):
- `handshake_first`: the first frame every writeLoop writes is the want_config_id of its own connection, and between
  requestConfig and that write it is at the head of toNode or in the writer's hands, never dropped.
Premise: want_config_id messages can be marshalled (`MarshalsRequest`).
-/
import MeshProxy.Node.Link

namespace MeshProxy.Handshake

open MeshProxy.Proto MeshProxy.Trace MeshProxy.Link
open MeshProxy.Frame (Bytes)

variable (pb : Codec) (p : Params)

/-- marshalling a want_config_id does not fail -/
def MarshalsRequest : Prop := ∀ n, ∃ b, pb.marshalToRadio { variant := .wantConfigId n } = some b

/-- the queue is empty when requestConfig sends, and no leftover writeLoop takes an open connection's handshake -/
def HandshakeSafe (s : Manager) : Act → Prop
  | .run _ => s.pc = .stored → s.toNode = []
  | .writerTake j => s.writer j = .select → j ≠ s.gen → s.closed s.gen = false →
      s.toNode.head?.map Queued.src ≠ some (.handshake s.gen)
  | _ => True

instance (s : Manager) : ∀ a, Decidable (HandshakeSafe s a)
  | .run _ => inferInstanceAs (Decidable (s.pc = .stored → s.toNode = []))
  | .writerTake j => inferInstanceAs (Decidable (s.writer j = .select → j ≠ s.gen → s.closed s.gen = false →
      s.toNode.head?.map Queued.src ≠ some (.handshake s.gen)))
  | .cancel | .send _ | .hubRecv | .writerWrite _ _ | .writerStop _ | .readerCheck _ | .readerRead _ _ | .readerPush _
  | .readerStop _ | .heartTick _ _ | .heartStop _ => inferInstanceAs (Decidable True)

/-- the next frame in the queue is the handshake of connection k -/
def AtHead (q : List Queued) (k : ℕ) : Prop := q.head?.map Queued.src = some (.handshake k)

theorem AtHead.append {q : List Queued} {k : ℕ} (h : AtHead q k) (f : Queued) : AtHead (q ++ [f]) k := by
  unfold AtHead at h ⊢
  cases q with
  | nil => cases h
  | cons x q => exact h

/-- the positions in which the last connection is closed -/
def offline : Pc → Bool
  | .stored | .requested | .running | .returned => false
  | _ => true

structure Inv (s : Manager) : Prop where
  /-- what was written first on k -/
  first : ∀ k f, (s.written k).head? = some f → f.src = .handshake k
  /-- a writer that has written nothing holds its handshake -/
  writing : ∀ k f, s.writer k = .writing f → s.closed k = false → s.written k = [] → f.src = .handshake k
  /-- or is about to take it -/
  waiting : ∀ k, s.writer k = .select → s.closed k = false → s.written k = [] → AtHead s.toNode k
  /-- only the last connection is open -/
  alive : ∀ k, s.writer k ≠ .absent → s.closed k = false → k = s.gen
  fresh : ∀ k, s.gen < k ∨ (k = s.gen ∧ (s.pc = .stored ∨ s.pc = .requested)) →
    s.writer k = .absent ∧ s.written k = [] ∧ s.closed k = false
  requested : s.pc = .requested → AtHead s.toNode s.gen
  running : s.pc = .running → s.writer s.gen ≠ .absent ∧ s.closed s.gen = false
  ended : offline s.pc = true → s.writer s.gen ≠ .absent → s.closed s.gen = true
  /-- every handshake in the queue belongs to a connection whose requestConfig has run -/
  tags : ∀ f ∈ s.toNode, ∀ k, f.src = .handshake k → k ≤ s.gen ∧ (s.pc = .stored → k < s.gen)

theorem inv_init : Inv (.init p) where
  first := by simp [Manager.init]
  writing := by simp [Manager.init]
  waiting := by simp [Manager.init]
  alive := by simp [Manager.init]
  fresh := by simp [Manager.init]
  requested := by simp [Manager.init]
  running := by simp [Manager.init]
  ended := by simp [Manager.init]
  tags := by simp [Manager.init]

variable {s : Manager}

/-! ## One field at a time -/

/-- a writer that exists moves on -/
theorem Inv.setWriter (h : Inv s) {j : ℕ} {w : Writer} (hj : s.writer j ≠ .absent) (hw : w ≠ .absent)
    (hwriting : ∀ f, w = .writing f → s.closed j = false → s.written j = [] → f.src = .handshake j)
    (hwaiting : w = .select → s.closed j = false → s.written j = [] → AtHead s.toNode j) :
    Inv { s with writer := Function.update s.writer j w } := by
  have hne : ∀ k, Function.update s.writer j w k ≠ .absent ↔ s.writer k ≠ .absent := by
    intro k
    by_cases hk : k = j
    · rw [hk, Function.update_self]; exact iff_of_true hw hj
    · rw [Function.update_of_ne hk]
  refine { h with writing := ?_, waiting := ?_, alive := ?_, fresh := ?_, running := ?_, ended := ?_ } <;> dsimp only
  · intro k f hk hc he
    by_cases hkj : k = j
    · subst hkj
      rw [Function.update_self] at hk
      exact hwriting f hk hc he
    · rw [Function.update_of_ne hkj] at hk
      exact h.writing k f hk hc he
  · intro k hk hc he
    by_cases hkj : k = j
    · subst hkj
      rw [Function.update_self] at hk
      exact hwaiting hk hc he
    · rw [Function.update_of_ne hkj] at hk
      exact h.waiting k hk hc he
  · intro k hk hc
    exact h.alive k ((hne k).1 hk) hc
  · intro k hk
    have hf := h.fresh k hk
    exact ⟨not_not.1 fun hc => (hne k).1 hc hf.1, hf.2⟩
  · intro hpc
    exact ⟨(hne s.gen).2 (h.running hpc).1, (h.running hpc).2⟩
  · intro hoff hn
    exact h.ended hoff ((hne s.gen).1 hn)

/-- the queue changes -/
theorem Inv.setQueue (h : Inv s) {q : List Queued}
    (hwait : ∀ k, s.writer k = .select → s.closed k = false → s.written k = [] → AtHead q k)
    (hreq : s.pc = .requested → AtHead q s.gen)
    (htags : ∀ f ∈ q, ∀ k, f.src = .handshake k → k ≤ s.gen ∧ (s.pc = .stored → k < s.gen)) :
    Inv { s with toNode := q } :=
  { h with waiting := hwait, requested := hreq, tags := htags }

/-- a frame is written on j -/
theorem Inv.setWritten (h : Inv s) {j : ℕ} {f : Queued} (hj : s.writer j ≠ .absent)
    (hf : s.written j = [] → f.src = .handshake j) :
    Inv { s with written := Function.update s.written j (s.written j ++ [f]) } := by
  have hnew : ∀ k, Function.update s.written j (s.written j ++ [f]) k = [] → s.written k = [] := by
    intro k hk
    by_cases hkj : k = j
    · rw [hkj, Function.update_self] at hk; simp at hk
    · rw [Function.update_of_ne hkj] at hk; exact hk
  refine { h with first := ?_, writing := ?_, waiting := ?_, fresh := ?_ } <;> dsimp only
  · intro k g hg
    by_cases hkj : k = j
    · subst hkj
      rw [Function.update_self] at hg
      cases he : s.written k with
      | nil =>
        rw [he] at hg
        cases hg
        exact hf he
      | cons x xs =>
        rw [he] at hg
        exact h.first k g (by rw [he]; exact hg)
    · rw [Function.update_of_ne hkj] at hg
      exact h.first k g hg
  · intro k g hk hc he
    exact h.writing k g hk hc (hnew k he)
  · intro k hk hc he
    exact h.waiting k hk hc (hnew k he)
  · intro k hk
    obtain ⟨ha, hw, hc⟩ := h.fresh k hk
    have hkj : k ≠ j := by
      rintro rfl
      exact hj ha
    rw [Function.update_of_ne hkj]
    exact ⟨ha, hw, hc⟩

/-! ## Steps of the other parties -/

/-- a frame queued by anyone goes behind what is there -/
theorem queue_inv (h : Inv s) (b : Bytes) : Inv { s with toNode := s.toNode ++ [⟨.sent, b⟩] } := by
  apply h.setQueue
  · exact fun k hw hc he => (h.waiting k hw hc he).append _
  · exact fun hpc => (h.requested hpc).append _
  · intro f hf k hk
    rcases List.mem_append.1 hf with hf | hf
    · exact h.tags f hf k hk
    · rw [List.mem_singleton.1 hf] at hk
      cases hk

theorem take_inv (h : Inv s) {j : ℕ} {f : Queued} {rest : List Queued} (hw : s.writer j = .select)
    (hq : s.toNode = f :: rest) (hsafe : HandshakeSafe s (.writerTake j)) :
    Inv { s with writer := Function.update s.writer j (.writing f), toNode := rest } := by
  -- while the open connection's handshake is at the head, only its own writer may take it
  have hown : s.closed s.gen = false → AtHead s.toNode s.gen → j = s.gen := by
    intro hc hhead
    by_contra hj
    exact hsafe hw hj hc hhead
  have hj : s.writer j ≠ .absent := by rw [hw]; simp
  have h1 : Inv { s with writer := Function.update s.writer j (.writing f) } := by
    apply h.setWriter hj (by simp)
    · rintro g ⟨⟩ hc he
      have hhead := h.waiting j hw hc he
      rw [AtHead, hq] at hhead
      exact Option.some.inj hhead
    · intro hsel
      cases hsel
  apply h1.setQueue <;> dsimp only
  · intro k hk hc he
    by_cases hkj : k = j
    · rw [hkj, Function.update_self] at hk; cases hk
    · rw [Function.update_of_ne hkj] at hk
      have hgen := h.alive k (by rw [hk]; simp) hc
      subst hgen
      exact absurd (hown hc (h.waiting s.gen hk hc he)).symm hkj
  · intro hpc
    obtain ⟨habs, -, hc⟩ := h.fresh s.gen (Or.inr ⟨rfl, Or.inr hpc⟩)
    rw [hown hc (h.requested hpc), habs] at hw
    cases hw
  · intro g hg
    exact h.tags g (by rw [hq]; exact List.mem_cons_of_mem f hg)

theorem writerDone_inv (h : Inv s) (j : ℕ) (hj : s.writer j ≠ .absent) :
    Inv { s with writer := Function.update s.writer j .done } :=
  h.setWriter hj (by simp) (fun _ e => by cases e) (fun e => by cases e)

theorem write_inv (h : Inv s) {j : ℕ} {f : Queued} (hw : s.writer j = .writing f) (hopen : s.closed j = false) :
    Inv { s with
      writer := Function.update s.writer j .select
      written := Function.update s.written j (s.written j ++ [f]) } := by
  have hj : s.writer j ≠ .absent := by rw [hw]; simp
  have h1 := h.setWritten hj fun he => h.writing j f hw hopen he
  apply h1.setWriter hj (by simp)
  · intro g hg
    cases hg
  · intro _ _ he
    dsimp only at he
    rw [Function.update_self] at he
    simp at he

theorem env_inv {a : Act} (h : Inv s) (hr : a.isRun = false) (ha : HandshakeSafe s a) : Inv (step pb p s a) := by
  have hmove := step_move pb p (s := s) hr
  generalize step pb p s a = s' at hmove
  cases hmove with
  | idle => exact h
  | send b hroom => exact queue_inv h b
  | beat b hh hroom => exact queue_inv h b
  | take hw hq => exact take_inv h hw hq ha
  | write ok hw hopen hsize => exact write_inv h hw hopen
  | writeFails ok hw => exact writerDone_inv h _ (by rw [hw]; simp)
  | writerStop hw hover => exact writerDone_inv h _ (by rw [hw]; simp)
  | _ => exact { h with }

/-! ## Steps of Run -/

/-- Run moves to a position with no obligation of its own -/
theorem Inv.setPc (h : Inv s) {c : Pc} (h1 : c ≠ .stored) (h2 : c ≠ .requested) (h3 : c ≠ .running)
    (hoff : offline c = true → offline s.pc = true) : Inv { s with pc := c } := by
  refine { h with fresh := ?_, requested := ?_, running := ?_, ended := ?_, tags := ?_ } <;> dsimp only
  · rintro k (hk | ⟨-, hk | hk⟩)
    · exact h.fresh k (Or.inl hk)
    · exact absurd hk h1
    · exact absurd hk h2
  · exact fun hc => absurd hc h2
  · exact fun hc => absurd hc h3
  · exact fun hc => h.ended (hoff hc)
  · exact fun f hf k hk => ⟨(h.tags f hf k hk).1, fun hc => absurd hc h1⟩

/-- a new connection: the last one is closed, the new one untouched -/
theorem dial_inv (h : Inv s) (hpc : s.pc = .dialing) (b : ℤ) :
    Inv { s with pc := .stored, gen := s.gen + 1, backoff := b } := by
  have hoff : offline s.pc = true := by rw [hpc]; rfl
  refine { h with alive := ?_, fresh := ?_, requested := ?_, running := ?_, ended := ?_, tags := ?_ } <;> dsimp only
  · intro k hk hc
    have hgen := h.alive k hk hc
    subst hgen
    rw [h.ended hoff hk] at hc
    cases hc
  · intro k hk
    refine h.fresh k (Or.inl ?_)
    rcases hk with hk | ⟨hk, -⟩
    · exact Nat.lt_of_succ_lt hk
    · rw [hk]; exact Nat.lt_succ_self _
  · intro hc; cases hc
  · intro hc; cases hc
  · intro hc; cases hc
  · intro f hf k hk
    have hle := (h.tags f hf k hk).1
    exact ⟨Nat.le_succ_of_le hle, fun _ => Nat.lt_succ_of_le hle⟩

theorem wait_inv (h : Inv s) (hoff : offline s.pc = true) (o : Outcome) : Inv (s.wait p o) := by
  unfold Manager.wait
  split_ifs
  · exact h.setPc (by simp) (by simp) (by simp) (fun _ => hoff)
  · have hb : Inv { s with backoff := min (Manager.wrap64 (s.backoff * 2)) p.maxReconnectInterval } := { h with }
    exact hb.setPc (by simp) (by simp) (by simp) (fun _ => hoff)

variable {pb}

/-- requestConfig on an empty queue puts the handshake at its head -/
theorem request_inv (hm : MarshalsRequest pb) (h : Inv s) (hpc : s.pc = .stored) (hnil : s.toNode = []) (n : UInt32) :
    Inv { s.requestConfig pb p n with pc := .requested } := by
  obtain ⟨b, hb⟩ := hm n
  have hroom : s.toNode.length < p.toBuffer := by rw [hnil]; exact p.toBuffer_pos
  have hreq : s.requestConfig pb p n = { s with toNode := [⟨.handshake s.gen, b⟩] } := by
    simp only [Manager.requestConfig, hb, Manager.send]
    rw [if_pos hroom, hnil, List.nil_append]
  rw [hreq]
  obtain ⟨habs, hwr, hc⟩ := h.fresh s.gen (Or.inr ⟨rfl, Or.inl hpc⟩)
  refine { h with waiting := ?_, fresh := ?_, requested := ?_, running := ?_, ended := ?_, tags := ?_ } <;> dsimp only
  · intro k hk hck he
    have hgen := h.alive k (by rw [hk]; simp) hck
    subst hgen
    rw [habs] at hk
    cases hk
  · rintro k (hk | ⟨rfl, -⟩)
    · exact h.fresh k (Or.inl hk)
    · exact ⟨habs, hwr, hc⟩
  · exact fun _ => rfl
  · intro hc; cases hc
  · intro hc; cases hc
  · intro f hf k hk
    rw [List.mem_singleton.1 hf] at hk
    cases hk
    exact ⟨le_rfl, fun hc => by cases hc⟩

theorem spawn_inv (h : Inv s) (hpc : s.pc = .requested) : Inv { s.spawn p with pc := .running } := by
  obtain ⟨habs, hwr, hc⟩ := h.fresh s.gen (Or.inr ⟨rfl, Or.inr hpc⟩)
  have hhead := h.requested hpc
  unfold Manager.spawn
  refine { h with writing := ?_, waiting := ?_, alive := ?_, fresh := ?_, requested := ?_, running := ?_, ended := ?_,
                  tags := ?_ } <;> dsimp only
  · intro k f hk hck he
    by_cases hkg : k = s.gen
    · rw [hkg, Function.update_self] at hk; cases hk
    · rw [Function.update_of_ne hkg] at hk; exact h.writing k f hk hck he
  · intro k hk hck he
    by_cases hkg : k = s.gen
    · rw [hkg]; exact hhead
    · rw [Function.update_of_ne hkg] at hk; exact h.waiting k hk hck he
  · intro k hk hck
    by_cases hkg : k = s.gen
    · exact hkg
    · rw [Function.update_of_ne hkg] at hk; exact h.alive k hk hck
  · rintro k (hk | ⟨-, hk | hk⟩)
    · rw [Function.update_of_ne (Nat.ne_of_gt hk)]
      exact h.fresh k (Or.inl hk)
    · cases hk
    · cases hk
  · intro hc; cases hc
  · exact fun _ => ⟨by rw [Function.update_self]; simp, hc⟩
  · intro hc; cases hc
  · exact fun f hf k hk => ⟨(h.tags f hf k hk).1, fun hc => by cases hc⟩

/-- closing the connection: what its writer still holds can no longer be written -/
theorem close_inv (h : Inv s) :
    Inv { s with pc := .drainTo, closed := Function.update s.closed s.gen true } := by
  have hopen : ∀ k, Function.update s.closed s.gen true k = false → k ≠ s.gen ∧ s.closed k = false := by
    intro k hk
    by_cases hkg : k = s.gen
    · rw [hkg, Function.update_self] at hk; cases hk
    · rw [Function.update_of_ne hkg] at hk; exact ⟨hkg, hk⟩
  refine { h with writing := ?_, waiting := ?_, alive := ?_, fresh := ?_, requested := ?_, running := ?_, ended := ?_,
                  tags := ?_ } <;> dsimp only
  · exact fun k f hk hc he => h.writing k f hk (hopen k hc).2 he
  · exact fun k hk hc he => h.waiting k hk (hopen k hc).2 he
  · exact fun k hk hc => h.alive k hk (hopen k hc).2
  · rintro k (hk | ⟨-, hk | hk⟩)
    · rw [Function.update_of_ne (Nat.ne_of_gt hk)]
      exact h.fresh k (Or.inl hk)
    · cases hk
    · cases hk
  · intro hc; cases hc
  · intro hc; cases hc
  · exact fun _ _ => Function.update_self _ _ _
  · exact fun f hf k hk => ⟨(h.tags f hf k hk).1, fun hc => by cases hc⟩

/-- while no connection is open nobody waits for the head of the queue -/
theorem drain_inv (h : Inv s) (hoff : offline s.pc = true) (hreq : s.pc ≠ .requested) {f : Queued} {rest : List Queued}
    (hq : s.toNode = f :: rest) : Inv { s with toNode := rest } := by
  apply h.setQueue
  · intro k hk hc _
    have hne : s.writer k ≠ .absent := by rw [hk]; simp
    have hgen := h.alive k hne hc
    subst hgen
    rw [h.ended hoff hne] at hc
    cases hc
  · exact fun hc => absurd hc hreq
  · exact fun g hg => h.tags g (by rw [hq]; exact List.mem_cons_of_mem f hg)

theorem runStep_inv (hm : MarshalsRequest pb) (h : Inv s) (o : Outcome) (hsafe : s.pc = .stored → s.toNode = []) :
    Inv (s.runStep pb p o) := by
  unfold Manager.runStep
  split <;> rename_i hpc
  · have hoff : offline s.pc = true := by rw [hpc]; rfl
    split_ifs <;> exact h.setPc (by simp) (by simp) (by simp) (fun _ => hoff)
  · have hoff : offline s.pc = true := by rw [hpc]; rfl
    split_ifs
    · exact dial_inv h hpc _
    · exact h.setPc (by simp) (by simp) (by simp) (fun _ => hoff)
  · exact wait_inv p h (by rw [hpc]; rfl) o
  · exact request_inv p hm h hpc (hsafe hpc) o.nonce
  · exact spawn_inv p h hpc
  · split_ifs
    · have hd : Inv { s with ctxDone := Function.update s.ctxDone s.gen true } := { h with }
      exact hd.setPc (by simp) (by simp) (by simp) (fun hc => by cases hc)
    · exact h
  · exact close_inv h
  · have hoff : offline s.pc = true := by rw [hpc]; rfl
    split_ifs <;> exact h.setPc (by simp) (by simp) (by simp) (fun _ => hoff)
  · have hoff : offline s.pc = true := by rw [hpc]; rfl
    split
    · exact h
    · rename_i f rest hq
      exact (drain_inv h hoff (by rw [hpc]; simp) hq).setPc (by simp) (by simp) (by simp) (fun _ => hoff)
  · have hoff : offline s.pc = true := by rw [hpc]; rfl
    split_ifs <;> exact h.setPc (by simp) (by simp) (by simp) (fun _ => hoff)
  · have hoff : offline s.pc = true := by rw [hpc]; rfl
    split
    · exact h
    · rename_i f rest hq
      have hf : Inv { s with fromNode := rest } := { h with }
      exact hf.setPc (by simp) (by simp) (by simp) (fun _ => hoff)
  · exact wait_inv p h (by rw [hpc]; rfl) o
  · exact h

theorem step_inv (hm : MarshalsRequest pb) {a : Act} (h : Inv s) (ha : HandshakeSafe s a) : Inv (step pb p s a) := by
  cases hr : a.isRun with
  | true =>
    cases a <;> cases hr
    exact runStep_inv p hm h _ ha
  | false => exact env_inv pb p h hr ha

/-! ## Main result -/

/-- what is queued when requestConfig runs stays ahead of the handshake -/
theorem queued_first (h : Inv s) (hpc : s.pc = .stored) (hne : s.toNode ≠ []) (n : UInt32) :
    ¬ AtHead (s.requestConfig pb p n).toNode s.gen := by
  obtain ⟨x, q, hq⟩ := List.exists_cons_of_ne_nil hne
  have hx : x.src ≠ .handshake s.gen := fun hsrc =>
    lt_irrefl _ ((h.tags x (by rw [hq]; exact List.mem_cons_self) s.gen hsrc).2 hpc)
  have hhead : (s.requestConfig pb p n).toNode.head? = some x := by
    unfold Manager.requestConfig
    split
    · rw [hq]; rfl
    · rcases send_toNode p (s := s) ⟨.handshake s.gen, ‹_›⟩ with e | e
      · rw [e, hq]; rfl
      · rw [e, hq]; rfl
  rw [AtHead, hhead]
  exact fun e => hx (Option.some.inj e)

variable (pb)

/-- **Handshake first.** In every run whose steps meet the two conditions (toNode is empty when requestConfig sends, and
no writeLoop of an earlier connection takes the open connection's handshake), on every connection the first frame
written is the want_config_id produced by that connection's requestConfig; and from requestConfig until then it is at
the head of toNode, or in the hands of the connection's writer, unless that writer has ended without writing. Where the
queue is not empty when requestConfig sends, the handshake is not at its head. -/
theorem handshake_first (hm : MarshalsRequest pb) (as : List Act)
    (h : Along (step pb p) HandshakeSafe (.init p) as) :
    let s := run (step pb p) (.init p) as
    (∀ k f, (s.written k).head? = some f → f.src = .handshake k) ∧
    (s.pc = .requested → AtHead s.toNode s.gen) ∧
    (s.pc = .running → s.written s.gen = [] →
      (s.writer s.gen = .select ∧ AtHead s.toNode s.gen) ∨
      (∃ f, s.writer s.gen = .writing f ∧ f.src = .handshake s.gen) ∨ s.writer s.gen = .done) ∧
    (s.pc = .stored → s.toNode ≠ [] → ∀ n, ¬ AtHead (s.requestConfig pb p n).toNode s.gen) := by
  have hinv : Inv (run (step pb p) (.init p) as) := run_inv (fun _ _ hs ha => step_inv p hm hs ha) (inv_init p) h
  refine ⟨hinv.first, hinv.requested, ?_, fun hpc hne n => queued_first p hinv hpc hne n⟩
  intro hpc he
  obtain ⟨hne, hc⟩ := hinv.running hpc
  cases hw : (run (step pb p) (.init p) as).writer (run (step pb p) (.init p) as).gen with
  | absent => exact absurd hw hne
  | select => exact Or.inl ⟨rfl, hinv.waiting _ hw hc he⟩
  | writing f => exact Or.inr (Or.inl ⟨f, rfl, hinv.writing _ f hw hc he⟩)
  | done => exact Or.inr (Or.inr rfl)

/-! ### A frame sent before the first connection -/

/-- the codec encodes every want_config_id as field 3 of ToRadio -/
def requestCodec : Codec :=
  { tableCodec [] [] [] with
    marshalToRadio := fun m => match m.variant with
      | .wantConfigId n => some (0x18 :: Varint.varint n.toNat)
      | _ => none }

theorem requestCodec_marshals : MarshalsRequest requestCodec := fun n => ⟨0x18 :: Varint.varint n.toNat, rfl⟩

/-- a connection, its handshake written, a client frame, a disconnect, and a second connection -/
def twoConnections : List Act :=
  [.run {}, .run {}, .run { nonce := 5 }, .run {}, .send [1], .writerTake 1, .writerWrite 1 true, .writerTake 1,
    .writerWrite 1 false, .run {}, .run {}, .run {}, .run {}, .run {}] ++
  [.run {}, .run {}, .run { nonce := 6 }, .run {}, .writerTake 2, .writerWrite 2 true]

theorem handshake_first_twoConnections :
    ((run (step requestCodec defaultParams) (.init defaultParams) twoConnections).written 2).length = 1 ∧
    ∀ k f, ((run (step requestCodec defaultParams) (.init defaultParams) twoConnections).written k).head? = some f →
      f.src = .handshake k :=
  ⟨by decide +kernel,
    (handshake_first requestCodec defaultParams requestCodec_marshals twoConnections (by decide +kernel)).1⟩

/-- a heartbeat or client frame sent before the connection exists is written before its handshake -/
theorem early_frame_written_first :
    (run (step requestCodec defaultParams) (.init defaultParams)
      [.send [1], .run {}, .run {}, .run { nonce := 5 }, .run {}, .writerTake 1, .writerWrite 1 true]).written 1 =
      [⟨.sent, [1]⟩] := by
  decide +kernel

end MeshProxy.Handshake
