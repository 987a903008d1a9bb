/-
The message log and its type counters (`internal/metrics/metrics.go`: RecordMessage, Messages, MessageTypeCounts).

The node's readLoop, the readLoop of every client and whoever calls Send record messages, at the same time. A call counts
the message under typeMu, appends it to the ring under mu and publishes it: three steps, with those of other calls in
between, so that neither the ring nor the events need be in the order of the counting. `calls` (Core.Stages) is where every
call stands, and which calls have come to which step. Timestamps are left out.

- `count_inv`, `ring_inv`: the counters, the ring and the events are functions of the calls;
- `message_log`: no message is lost, counted twice or logged before it is counted.
-/
import MeshProxy.Core.Stages
import MeshProxy.Core.Window
import MeshProxy.Metrics.Sampler

namespace MeshProxy.MessageLog

open MeshProxy.Store (MessageRecord TypeName ringAppend defaultMaxMessages)
open MeshProxy.Sampler (wrap64 ringAppend_eq_push)
open MeshProxy.Tagged (of)
open MeshProxy.Trace MeshProxy.Window

/-! ## The machine -/

/-- the strings of the source -/
def typeText : TypeName → String
  | .packet => "packet"
  | .myInfo => "my_info"
  | .nodeInfo => "node_info"
  | .config => "config"
  | .logRecord => "log_record"
  | .configCompleteId => "config_complete_id"
  | .rebooted => "rebooted"
  | .moduleConfig => "module_config"
  | .channel => "channel"
  | .queueStatus => "queue_status"
  | .metadata => "metadata"
  | .deviceuiConfig => "deviceui_config"
  | .fileInfo => "file_info"
  | .wantConfigId => "want_config_id"
  | .disconnect => "disconnect"
  | .heartbeat => "heartbeat"
  | .clientFrame => "client_frame"
  | .other => "other"
  | .unknown => "unknown"
  | .unparseable => "unparseable"

/-- what a record is counted under -/
def typeKey (rec : MessageRecord) : String := if rec.portNum ≠ "" then rec.portNum else typeText rec.type

structure Metrics where
  typeCounts : GoMap String ℤ
  messages : List MessageRecord
  maxMessages : ℕ
  events : List MessageRecord
  calls : Stages.St MessageRecord

/-- the steps of a call: made, counted, in the ring, published -/
def called : ℕ := 0
def counted : ℕ := 1
def logged : ℕ := 2
def published : ℕ := 3

def init (maxMessages : ℤ) : Metrics where
  typeCounts := .empty
  messages := []
  maxMessages := if maxMessages ≤ 0 then defaultMaxMessages else maxMessages.toNat
  events := []
  calls := Stages.init

/-- goroutine g calls RecordMessage, or takes the next step of its call -/
inductive Act where
  | call (g : ℕ) (rec : MessageRecord)
  | next (g : ℕ)

namespace Metrics

/-- `m.typeCounts[key]++` -/
def count (s : Metrics) (rec : MessageRecord) : Metrics :=
  { s with
    typeCounts := s.typeCounts.set (typeKey rec) (wrap64 ((s.typeCounts.get? (typeKey rec)).getD 0 + 1)) }

def append (s : Metrics) (rec : MessageRecord) : Metrics :=
  { s with messages := ringAppend s.messages s.maxMessages rec }

def publish (s : Metrics) (rec : MessageRecord) : Metrics := { s with events := s.events ++ [rec] }

/-- the effect of the step that follows stage k -/
def effect (s : Metrics) (rec : MessageRecord) : ℕ → Metrics
  | 0 => s.count rec
  | 1 => s.append rec
  | _ => s.publish rec

end Metrics

def step (s : Metrics) : Act → Metrics
  | .call g rec => { s with calls := Stages.step published s.calls (.enter g rec) }
  | .next g =>
    match s.calls.at_ g with
    | none => s
    | some (rec, k) => { s.effect rec k with calls := Stages.step published s.calls (.advance g) }

/-! ## The invariant -/

/-- the messages that have come to a step, in the order in which they did -/
def Metrics.at_ (s : Metrics) (k : ℕ) : List MessageRecord := (s.calls.log k).map Prod.snd

/-- a counter after n messages; a key that was never counted is not in the map -/
def countAfter (n : ℕ) : Option ℤ := if n = 0 then none else some (wrap64 n)

def keyCount (key : String) (rs : List MessageRecord) : ℕ := rs.countP fun rec => typeKey rec = key

structure Inv (s : Metrics) : Prop where
  calls : Stages.Inv published s.calls
  counts : ∀ key, s.typeCounts.get? key = countAfter (keyCount key (s.at_ counted))
  limit : 1 ≤ s.maxMessages
  ring : s.messages = (s.at_ logged).rtake s.maxMessages
  events : s.events = s.at_ published

theorem init_inv (maxMessages : ℤ) : Inv (init maxMessages) where
  calls := Stages.init_inv
  counts := fun _ => rfl
  limit := by
    show 1 ≤ if maxMessages ≤ 0 then defaultMaxMessages else maxMessages.toNat
    split_ifs
    · decide
    · omega
  ring := by simp [init, Metrics.at_, Stages.init]
  events := rfl

variable {s : Metrics}

theorem countAfter_succ (n : ℕ) : some (wrap64 ((countAfter n).getD 0 + 1)) = countAfter (n + 1) := by
  have hsucc : countAfter (n + 1) = some (wrap64 (n + 1)) := by
    rw [countAfter, if_neg (Nat.succ_ne_zero n), Nat.cast_add, Nat.cast_one]
  rw [hsucc, countAfter]
  by_cases hn : n = 0
  · rw [if_pos hn, hn, Option.getD_none, Nat.cast_zero]
  · rw [if_neg hn, Option.getD_some, wrap64, wrap64, Int.bmod_add_bmod, wrap64]

/-- the map after one more message -/
theorem count_inv (hcounts : ∀ key, s.typeCounts.get? key = countAfter (keyCount key (s.at_ counted)))
    (rec : MessageRecord) (key : String) :
    (s.count rec).typeCounts.get? key = countAfter (keyCount key (s.at_ counted ++ [rec])) := by
  rw [Metrics.count, GoMap.get?_set, keyCount, List.countP_append, ← keyCount]
  by_cases hkey : key = typeKey rec
  · subst hkey
    rw [if_pos rfl, hcounts, countAfter_succ]
    simp
  · have hkey' : ¬typeKey rec = key := fun e => hkey e.symm
    rw [if_neg hkey, hcounts]
    simp [hkey']

/-- and the ring -/
theorem ring_inv (hlimit : 1 ≤ s.maxMessages) (hring : s.messages = (s.at_ logged).rtake s.maxMessages)
    (rec : MessageRecord) : (s.append rec).messages = (s.at_ logged ++ [rec]).rtake s.maxMessages := by
  have hshort : s.messages.length ≤ s.maxMessages := by
    rw [hring, length_rtake]
    exact Nat.min_le_left _ _
  calc (s.append rec).messages
      = push s.maxMessages s.messages rec := ringAppend_eq_push hlimit hshort
    _ = (s.at_ logged ++ [rec]).rtake s.maxMessages := by rw [hring, push_rtake]

/-- a step of a call adds to the log of one stage -/
theorem advance_log {g : ℕ} {rec : MessageRecord} {k : ℕ} (hat : s.calls.at_ g = some (rec, k)) (j : ℕ) :
    ((Stages.step published s.calls (.advance g)).log j).map Prod.snd =
      if j = k + 1 then s.at_ j ++ [rec] else s.at_ j := by
  simp only [Stages.step, hat, Stages.St.bring, Function.update_apply]
  split_ifs with hj
  · simp [hj, Metrics.at_]
  · rfl

theorem next_inv (h : Inv s) {g : ℕ} {rec : MessageRecord} {k : ℕ} (hat : s.calls.at_ g = some (rec, k)) :
    Inv { s.effect rec k with calls := Stages.step published s.calls (.advance g) } := by
  have hcalls := Stages.step_inv h.calls (.advance g)
  have hk : k < 3 := h.calls.under g rec k hat
  have hlog := advance_log hat
  -- one case for each step of a call
  match k, hk with
  | 0, _ =>
    refine ⟨hcalls, fun key => ?_, h.limit, ?_, ?_⟩
    · rw [Metrics.at_, hlog, if_pos (by decide)]
      exact count_inv h.counts rec key
    · rw [Metrics.at_, hlog, if_neg (by decide)]
      exact h.ring
    · rw [Metrics.at_, hlog, if_neg (by decide)]
      exact h.events
  | 1, _ =>
    refine ⟨hcalls, fun key => ?_, h.limit, ?_, ?_⟩
    · rw [Metrics.at_, hlog, if_neg (by decide)]
      exact h.counts key
    · rw [Metrics.at_, hlog, if_pos (by decide)]
      exact ring_inv h.limit h.ring rec
    · rw [Metrics.at_, hlog, if_neg (by decide)]
      exact h.events
  | 2, _ =>
    refine ⟨hcalls, fun key => ?_, h.limit, ?_, ?_⟩
    · rw [Metrics.at_, hlog, if_neg (by decide)]
      exact h.counts key
    · rw [Metrics.at_, hlog, if_neg (by decide)]
      exact h.ring
    · rw [Metrics.at_, hlog, if_pos (by decide), ← h.events]
      rfl

theorem step_inv (h : Inv s) (a : Act) : Inv (step s a) := by
  cases a with
  | call g rec =>
    have hcalls := Stages.step_inv h.calls (.enter g rec)
    have hsame : ∀ k, k ≠ called → (step s (.call g rec)).at_ k = s.at_ k := by
      intro k hk
      simp only [Metrics.at_, step, Stages.step]
      split_ifs
      · exact congrArg _ (Function.update_of_ne hk _ _)
      · rfl
    refine ⟨hcalls, fun key => ?_, h.limit, ?_, ?_⟩
    · rw [hsame counted (by decide)]
      exact h.counts key
    · rw [hsame logged (by decide)]
      exact h.ring
    · rw [hsame published (by decide)]
      exact h.events
  | next g =>
    simp only [step]
    split
    · exact h
    · rename_i rec k hat
      exact next_inv h hat

theorem reachable_inv (maxMessages : ℤ) (as : List Act) : Inv (run step (init maxMessages) as) :=
  run_inv_all (I := Inv) (fun _ a hs => step_inv hs a) as (init_inv maxMessages)

/-! ## Results -/

theorem at_subperm (h : Inv s) {j k : ℕ} (hjk : j ≤ k) (hk : k ≤ published) : (s.at_ k).Subperm (s.at_ j) := by
  obtain ⟨l, hperm, hsub⟩ := h.calls.subperm hjk hk
  exact ⟨l.map Prod.snd, hperm.map _, hsub.map _⟩

/-- **The log and the counters.** After any steps of any calls of RecordMessage, by any number of goroutines:
- a key's counter is the number of calls counted under it, as int64, and the map has no other keys;
- the ring is the end of what was logged, and the events are what was published;
- what a goroutine has logged is a prefix of what it has counted, and what it has published of what it has logged; taken
  together, too, nothing is logged that is not counted, or published that is not logged, so the log never shows more
  messages of a kind than its counter counts;
- while no call is under way, the counted, the logged and the published messages are the same. -/
theorem message_log (maxMessages : ℤ) (as : List Act) :
    let s := run step (init maxMessages) as
    (∀ key, s.typeCounts.get? key = countAfter (keyCount key (s.at_ counted))) ∧
    s.messages = (s.at_ logged).rtake s.maxMessages ∧ s.events = s.at_ published ∧
    (∀ g, of g (s.calls.log published) <+: of g (s.calls.log logged) ∧
      of g (s.calls.log logged) <+: of g (s.calls.log counted) ∧
      of g (s.calls.log counted) <+: of g (s.calls.log called)) ∧
    (s.at_ published).Subperm (s.at_ logged) ∧ (s.at_ logged).Subperm (s.at_ counted) ∧
    (∀ key, keyCount key s.messages ≤ keyCount key (s.at_ counted)) ∧
    ((∀ g, s.calls.at_ g = none) → (s.at_ published).Perm (s.at_ called) ∧ (s.at_ logged).Perm (s.at_ called) ∧
      (s.at_ counted).Perm (s.at_ called)) := by
  intro s
  have hinv : Inv s := reachable_inv maxMessages as
  have hlogged : (s.at_ logged).Subperm (s.at_ counted) := at_subperm hinv (by decide) (by decide)
  refine ⟨hinv.counts, hinv.ring, hinv.events, fun g => ⟨?_, ?_, ?_⟩, ?_, hlogged, fun key => ?_, fun hidle => ⟨?_, ?_, ?_⟩⟩
  · exact hinv.calls.behind g (by decide) (by decide)
  · exact hinv.calls.behind g (by decide) (by decide)
  · exact hinv.calls.behind g (by decide) (by decide)
  · exact at_subperm hinv (by decide) (by decide)
  · calc keyCount key s.messages
        ≤ keyCount key (s.at_ logged) := by
          rw [hinv.ring]
          exact (rtake_suffix _ _).sublist.countP_le
      _ ≤ keyCount key (s.at_ counted) := hlogged.countP_le _
  · exact (hinv.calls.idle_perm hidle (by decide) (by decide)).map Prod.snd
  · exact (hinv.calls.idle_perm hidle (by decide) (by decide)).map Prod.snd
  · exact (hinv.calls.idle_perm hidle (by decide) (by decide)).map Prod.snd

end MeshProxy.MessageLog
