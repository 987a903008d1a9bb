/-
A goroutine with a channel of its own among the publishers and subscribers of the metrics events (`internal/metrics/pubsub.go`,
as telegram.Bot.Run and web.handleSSE use it): it calls Subscribe, takes from the channel it is given, and calls Unsubscribe
when it is done. Nobody else knows the channel, so the other goroutines' steps are those of the publishing machine that are
not in this goroutine and not with this channel.

- `Stands.foreign`: the steps of others leave the goroutine where it is;
- `Stands.exec`: its own step inside Subscribe or Unsubscribe stays inside the call or ends it;
- `Stands.open`: the channel it listens to is in the map and open;
- `delivered_nodup`: a channel accepts an event at most once.
-/
import MeshProxy.Metrics.PubSub

namespace MeshProxy.Subscriber

open MeshProxy.PubSub

variable {E : Type} (g ch : ℕ)

/-- a step of somebody else -/
def Foreign : Act E → Prop
  | .exec g' _ => g' ≠ g
  | .call g' (.subscribe c) | .call g' (.unsubscribe c) => g' ≠ g ∧ c ≠ ch
  | .call g' (.publish _) => g' ≠ g
  | .take c => c ≠ ch

instance : DecidablePred (Foreign (E := E) g ch)
  | .exec _ _ => inferInstanceAs (Decidable (_ ≠ _))
  | .call _ (.subscribe _) => inferInstanceAs (Decidable (_ ∧ _))
  | .call _ (.unsubscribe _) => inferInstanceAs (Decidable (_ ∧ _))
  | .call _ (.publish _) => inferInstanceAs (Decidable (_ ≠ _))
  | .take _ => inferInstanceAs (Decidable (_ ≠ _))

/-- how far the goroutine is with its channel -/
inductive Phase where
  | before | joining | listening | leaving | gone
deriving DecidableEq, Repr

/-- how it then stands to the publishing machine -/
def Stands (s : Metrics E) : Phase → Prop
  | .before => s.pc g = .idle ∧ s.life ch = .fresh
  | .joining => ∃ a, s.pc g = .writer .subscribe ch a
  | .listening => s.pc g = .idle ∧ s.life ch = .opened
  | .leaving => ∃ a, s.pc g = .writer .unsubscribe ch a
  | .gone => True

variable {g ch} {s : Metrics E} {k : Phase} {a : Act E}

/-! ## Steps of others -/

theorem foreign_pc (ha : Foreign g ch a) : (step s a).pc g = s.pc g := by
  cases a with
  | exec g' order => exact exec_pc_of_ne (Ne.symm ha) order
  | call g' f =>
    have hg : g ≠ g' := by
      cases f with
      | publish evt => exact Ne.symm ha
      | _ => exact Ne.symm ha.1
    simp only [step, Metrics.call]
    split <;> (try split_ifs) <;> simp [Metrics.goto, hg]
  | take c =>
    simp only [step, Metrics.take]
    split <;> rfl

/-- a channel that is in nobody's hands keeps its life while no call on it begins -/
theorem exec_life (h : Registry s) {c : ℕ} (hlife : s.life c = .fresh ∨ s.life c = .opened) (g : ℕ) (order : List ℕ) :
    (s.exec g order).life c = s.life c := by
  have hne : ∀ op c', s.pc g = .writer op c' .last → c ≠ c' := by
    rintro op c' hg rfl
    have hheld := h.writer g op c _ hg
    rcases hlife with hlife | hlife <;> rw [hlife] at hheld <;> cases op <;> cases hheld
  unfold Metrics.exec
  split <;> rename_i hpc <;> (try split_ifs) <;> try rfl
  · exact Function.update_of_ne (hne _ _ hpc) _ _
  · exact Function.update_of_ne (hne _ _ hpc) _ _

theorem foreign_life (h : Registry s) (hlife : s.life ch = .fresh ∨ s.life ch = .opened) (ha : Foreign g ch a) :
    (step s a).life ch = s.life ch := by
  cases a with
  | exec g' order => exact exec_life h hlife g' order
  | call g' f =>
    simp only [step, Metrics.call]
    split <;> (try split_ifs) <;> try rfl
    · exact Function.update_of_ne (Ne.symm ha.2) _ _
    · exact Function.update_of_ne (Ne.symm ha.2) _ _
  | take c =>
    simp only [step, Metrics.take]
    split <;> rfl

theorem Stands.foreign (h : Registry s) (hstands : Stands g ch s k) (ha : Foreign g ch a) :
    Stands g ch (step s a) k := by
  cases k with
  | before => exact ⟨(foreign_pc ha).trans hstands.1, (foreign_life h (.inl hstands.2) ha).trans hstands.2⟩
  | joining => exact hstands.imp fun _ hat => (foreign_pc ha).trans hat
  | listening => exact ⟨(foreign_pc ha).trans hstands.1, (foreign_life h (.inr hstands.2) ha).trans hstands.2⟩
  | leaving => exact hstands.imp fun _ hat => (foreign_pc ha).trans hat
  | gone => trivial

/-! ## What the channel has handed out -/

theorem exec_received (g : ℕ) (order : List ℕ) (c : ℕ) : ((s.exec g order).chan c).received = (s.chan c).received := by
  unfold Metrics.exec
  split <;> (try split_ifs) <;> try rfl
  · simp only [Metrics.goto, Function.update_apply]
    split_ifs with hc
    · rw [hc]
    · rfl
  · simp only [Metrics.goto, Function.update_apply]
    split_ifs with hc
    · rw [hc]
    · rfl

theorem call_chan (g : ℕ) (f : Call E) : (s.call g f).chan = s.chan := by
  unfold Metrics.call
  split <;> (try split_ifs) <;> rfl

theorem foreign_received (ha : Foreign g ch a) : ((step s a).chan ch).received = (s.chan ch).received := by
  cases a with
  | exec g' order => exact exec_received g' order ch
  | call g' f => exact congrArg (fun chan => (chan ch).received) (call_chan g' f)
  | take c =>
    simp only [step, Metrics.take]
    split
    · rfl
    · simp only [Function.update_of_ne (Ne.symm ha)]

/-! ## Its own steps -/

theorem Stands.subscribe (h : Stands g ch s .before) : Stands g ch (s.call g (.subscribe ch)) .joining :=
  ⟨.lock, by simp [Metrics.call, h.1, h.2, Metrics.goto]⟩

theorem Stands.unsubscribe (h : Stands g ch s .listening) : Stands g ch (s.call g (.unsubscribe ch)) .leaving :=
  ⟨.lock, by simp [Metrics.call, h.1, h.2, Metrics.goto]⟩

/-- a step of Subscribe or Unsubscribe stays inside the call or ends it -/
theorem exec_writer (h : Registry s) {op : Op} {at_ : WriterAt} (hg : s.pc g = .writer op ch at_) (order : List ℕ) :
    (∃ at', (s.exec g order).pc g = .writer op ch at') ∨
      ((s.exec g order).pc g = .idle ∧ (s.exec g order).life ch = op.result) := by
  cases at_ with
  | last =>
    have hopen : (s.chan ch).closed = false := (h.last hg).2
    cases op <;> simp [Metrics.exec, hg, hopen, Metrics.goto]
  | lock =>
    left
    unfold Metrics.exec
    simp only [hg]
    split_ifs
    · exact ⟨_, Function.update_self _ _ _⟩
    · exact ⟨_, hg⟩
  | lockWait =>
    left
    unfold Metrics.exec
    simp only [hg]
    split_ifs
    · exact ⟨_, Function.update_self _ _ _⟩
    · exact ⟨_, hg⟩
  | _ =>
    left
    unfold Metrics.exec
    simp only [hg]
    exact ⟨_, Function.update_self _ _ _⟩

/-- where the goroutine goes on after a step of Subscribe or Unsubscribe: it stays as long as the call lasts -/
def continue_ {P : Type} (g : ℕ) (s : Metrics E) (stay next : P) : P :=
  match s.pc g with
  | .idle => next
  | _ => stay

theorem continue_cases {P : Type} (g : ℕ) (s : Metrics E) (stay next : P) :
    continue_ g s stay next = stay ∨ continue_ g s stay next = next := by
  unfold continue_
  split
  · exact .inr rfl
  · exact .inl rfl

/-- the phase behind a call -/
def Phase.next : Phase → Phase
  | .joining => .listening
  | .leaving => .gone
  | k => k

theorem Stands.exec (h : Registry s) (hk : k = .joining ∨ k = .leaving) (hstands : Stands g ch s k) (order : List ℕ)
    {P : Type} (stay next : P) :
    (Stands g ch (s.exec g order) k ∧ continue_ g (s.exec g order) stay next = stay) ∨
      (Stands g ch (s.exec g order) k.next ∧ continue_ g (s.exec g order) stay next = next) := by
  rcases hk with rfl | rfl
  · obtain ⟨at_, hat⟩ := hstands
    rcases exec_writer h hat order with ⟨at', hat'⟩ | ⟨hidle, hlife⟩
    · exact .inl ⟨⟨at', hat'⟩, by rw [continue_, hat']⟩
    · exact .inr ⟨⟨hidle, hlife⟩, by rw [continue_, hidle]⟩
  · obtain ⟨at_, hat⟩ := hstands
    rcases exec_writer h hat order with ⟨at', hat'⟩ | ⟨hidle, -⟩
    · exact .inl ⟨⟨at', hat'⟩, by rw [continue_, hat']⟩
    · exact .inr ⟨trivial, by rw [continue_, hidle]⟩

/-- `evt := <-ch` -/
theorem take_received {x : Stamped E} {queue : List (Stamped E)} (hq : (s.chan ch).queue = x :: queue) :
    ((s.take ch).chan ch).received = (s.chan ch).received ++ [x] := by
  simp [Metrics.take, hq]

theorem Stands.take (h : Stands g ch s k) : Stands g ch (s.take ch) k := by
  have hsame : (s.take ch).pc = s.pc ∧ (s.take ch).life = s.life := by
    unfold Metrics.take
    split <;> exact ⟨rfl, rfl⟩
  cases k with
  | gone => trivial
  | _ => simpa only [Stands, hsame.1, hsame.2] using h

/-- the channel of a goroutine that listens is in the map, and open: a receive never finds it closed -/
theorem Stands.open (h : Registry s) (hstands : Stands g ch s .listening) :
    ch ∈ s.subscribers ∧ (s.chan ch).closed = false := by
  refine ⟨h.opened ch hstands.2, ?_⟩
  by_contra hclosed
  have hdead := h.closed ch (by simpa using hclosed)
  rw [hstands.2] at hdead
  cases hdead

/-! ## No event twice -/

theorem published_nodup (h : PubSub.Inv s) : (s.published.map (·.event)).Nodup := by
  have hseqs : ((s.published.map (·.event)).map (·.seq)).Nodup := by
    rw [List.map_map]
    change (s.published.map (·.event.seq)).Nodup
    rw [h.delivery.seqs]
    exact List.nodup_range
  exact hseqs.of_map _

theorem delivered_nodup (h : PubSub.Inv s) (c : ℕ) : (delivered s c).Nodup := by
  classical
  refine List.nodup_iff_count_le_one.2 fun x => ?_
  have hsent : (sentTo s c x.by_).Nodup := (published_nodup h).sublist (List.filter_sublist.map _)
  calc (delivered s c).count x = (deliveredBy s c x.by_).count x := by
        rw [deliveredBy, List.count_filter (by simp)]
    _ ≤ 1 := List.nodup_iff_count_le_one.1 (hsent.sublist (h.delivery.sublist c x.by_)) x

/-! ## A party of the publishing machine -/

/-- **Nothing is lost on the way to a party.** In a machine that moves the publishing machine by at most one step of its at
a time: an event published while a channel was in the map has been accepted by it, is still to be sent to it, or came to a
full channel at one step of the run. -/
theorem accounted {σ α : Type} {step : σ → α → σ} {sub : σ → Metrics E} {out : σ → α → List (Act E)}
    (hsim : ∀ s a, sub (step s a) = Trace.run PubSub.step (sub s) (out s a)) (hone : ∀ s a, (out s a).length ≤ 1)
    {s₀ : σ} (h₀ : sub s₀ = PubSub.init) (as : List α) :
    ∀ p ∈ (sub (Trace.run step s₀ as)).published, ∀ ch ∈ p.targets,
      p.event ∈ delivered (sub (Trace.run step s₀ as)) ch ∨ StillToSend (sub (Trace.run step s₀ as)) ch p.event ∨
      ∃ bs a cs, as = bs ++ a :: cs ∧
        ∃ b ∈ out (Trace.run step s₀ bs) a, SendsToFull (sub (Trace.run step s₀ bs)) ch p.event b := by
  have hrun : ∀ as, sub (Trace.run step s₀ as) = Trace.run PubSub.step PubSub.init (Trace.emitted step out s₀ as) := by
    intro as
    rw [Trace.run_emitted hsim, h₀]
  intro p hp ch hch
  have haccounted := run_accounted (Trace.emitted step out s₀ as) p (hrun as ▸ hp) ch hch
  rw [← hrun] at haccounted
  rcases haccounted with hdelivered | hstill | ⟨pre, b, post, hsplit, hfull⟩
  · exact .inl hdelivered
  · exact .inr (.inl hstill)
  · obtain ⟨bs, a, cs, pre', post', has, hout, rfl⟩ := Trace.emitted_eq_append_cons hsplit
    have hfirst : pre' = [] := by
      have hlength := hone (Trace.run step s₀ bs) a
      rw [hout, List.length_append, List.length_cons] at hlength
      exact List.length_eq_zero_iff.1 (by omega)
    subst hfirst
    rw [List.append_nil, ← hrun] at hfull
    exact .inr (.inr ⟨bs, a, cs, has, b, by rw [hout]; exact List.mem_cons_self, hfull⟩)

end MeshProxy.Subscriber
