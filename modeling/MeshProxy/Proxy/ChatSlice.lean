/-
The chat cache as the hub keeps it: a slice over a backing array (`internal/proxy/proxy.go`: cacheTextMessage,
chatCacheSnapshot, cacheACK).

`cacheTextMessage` appends to the slice and, beyond the limit, zeroes the oldest elements and re-slices past them;
`cacheACK` searches backwards and stores the ACK in the element found. The array below is shared by every header the
slice has had, grows by any policy, and keeps zeroed elements in front of the slice. Message and ACK bytes are values:
they are copied on the way in and out and never written to.

Three levels:
- the slice (`Chat`), operation by operation as in the source;
- the list of cached entries (`MeshProxy.ChatCache`), which the hub's model uses: `cacheTextMessage_read`,
  `cacheACK_read`;
- the log (`logStep`): every message ever cached, of which the cache is the window of the last `maxChatCache`.

`chatCache_spec` puts them together: over any calls the snapshot is the window of the log, an ACK goes to the newest
matching entry of the window, and an ACK once stored stays with its message.
-/
import MeshProxy.Core.Slice
import MeshProxy.Core.Trace
import MeshProxy.Proxy.ChatCache

namespace MeshProxy.ChatSlice

open MeshProxy.Proto MeshProxy.ChatCache MeshProxy.GoSlice MeshProxy.Trace
open MeshProxy.Frame (Bytes)

/-! ## The slice -/

/-- `chatEntry{}` -/
def zeroEntry : ChatEntry := ⟨[], 0, none⟩

/-- `chatCache` with its backing arrays -/
structure Chat where
  heap : Heap ChatEntry
  chatCache : Slice
deriving DecidableEq, Repr

/-- a new hub: the slice is nil -/
def Chat.new : Chat := ⟨[], .nil⟩

/-- the loop that zeroes the first `n` elements -/
def zeroDropped (h : Heap ChatEntry) (s : Slice) : ℕ → Heap ChatEntry
  | 0 => h
  | n + 1 => set (zeroDropped h s n) s n zeroEntry

variable (pb : Codec) (grow : ℕ → ℕ) (maxChatCache : ℤ)

/-- `cacheTextMessage` -/
def cacheTextMessage (c : Chat) (payload : Bytes) : Chat :=
  if maxChatCache ≤ 0 then c
  else
    let appended := append zeroEntry grow c.heap c.chatCache ⟨payload, extractPacketID pb payload, none⟩
    if (appended.2.len : ℤ) > maxChatCache then
      let excess := appended.2.len - maxChatCache.toNat
      ⟨zeroDropped appended.1 appended.2 excess, appended.2.resliceFrom excess⟩
    else ⟨appended.1, appended.2⟩

/-- the search of `cacheACK`, from element `n - 1` down to the first -/
def ackLoop (h : Heap ChatEntry) (s : Slice) (packetID : UInt32) (payload : Bytes) : ℕ → Heap ChatEntry
  | 0 => h
  | i + 1 =>
    let e := get zeroEntry h s i
    if e.packetID = packetID ∧ e.ack = none then set h s i { e with ack := some payload }
    else ackLoop h s packetID payload i

/-- `cacheACK` -/
def cacheACK (c : Chat) (packetID : UInt32) (payload : Bytes) : Chat :=
  if maxChatCache ≤ 0 ∨ packetID = 0 then c
  else { c with heap := ackLoop c.heap c.chatCache packetID payload c.chatCache.len }

/-- `chatCacheSnapshot`: element by element -/
def chatCacheSnapshot (c : Chat) : List ChatEntry :=
  if c.chatCache.len = 0 then [] else (List.range c.chatCache.len).map (get zeroEntry c.heap c.chatCache)

/-- the calls the hub makes under `chatMu` -/
inductive Call where
  | cacheTextMessage (payload : Bytes)
  | cacheACK (packetID : UInt32) (payload : Bytes)
deriving DecidableEq, Repr

def step (c : Chat) : Call → Chat
  | .cacheTextMessage payload => cacheTextMessage pb grow maxChatCache c payload
  | .cacheACK packetID payload => cacheACK maxChatCache c packetID payload

/-- the cache after these calls on a new hub -/
def after (calls : List Call) : Chat := run (step pb grow maxChatCache) .new calls

/-! ## The slice operations are the list operations -/

def Chat.Ok (c : Chat) : Prop := c.chatCache.Ok c.heap

/-- the cached entries -/
def Chat.entries (c : Chat) : List ChatEntry := read c.heap c.chatCache

variable {c : Chat}

theorem new_ok : Chat.new.Ok := Slice.nil_ok _

theorem new_entries : Chat.new.entries = [] := read_nil _

/-- zeroing the dropped elements is invisible from behind them -/
theorem read_zeroDropped (h : Heap ChatEntry) (s : Slice) {n k : ℕ} (hn : n ≤ k) :
    read (zeroDropped h s n) (s.resliceFrom k) = read h (s.resliceFrom k) := by
  induction n with
  | zero => rfl
  | succ n ih => rw [zeroDropped, read_set_before _ _ (by omega), ih (by omega)]

theorem zeroDropped_ok {h : Heap ChatEntry} {t : Slice} (ht : t.Ok h) (s : Slice) (n : ℕ) :
    t.Ok (zeroDropped h s n) := by
  induction n with
  | zero => exact ht
  | succ n ih => exact ih.set s n zeroEntry

theorem cacheTextMessage_ok (hc : c.Ok) (payload : Bytes) : (cacheTextMessage pb grow maxChatCache c payload).Ok := by
  unfold cacheTextMessage
  by_cases h0 : maxChatCache ≤ 0
  · rw [if_pos h0]
    exact hc
  · rw [if_neg h0]
    have happ := append_ok zeroEntry grow hc ⟨payload, extractPacketID pb payload, none⟩
    dsimp only
    split_ifs
    · exact zeroDropped_ok (happ.resliceFrom (Nat.sub_le _ _)) _ _
    · exact happ

theorem cacheTextMessage_read (hc : c.Ok) (payload : Bytes) :
    (cacheTextMessage pb grow maxChatCache c payload).entries =
      ChatCache.cacheTextMessage pb maxChatCache c.entries payload := by
  unfold cacheTextMessage ChatCache.cacheTextMessage
  by_cases h0 : maxChatCache ≤ 0
  · rw [if_pos h0, if_pos h0]
  · rw [if_neg h0, if_neg h0]
    have happ := append_ok zeroEntry grow hc ⟨payload, extractPacketID pb payload, none⟩
    have hread := read_append_self zeroEntry grow hc ⟨payload, extractPacketID pb payload, none⟩
    have hlen := length_read happ
    rw [hread] at hlen
    simp only [Chat.entries, hlen]
    split_ifs with hbig
    · rw [read_zeroDropped _ _ le_rfl, read_resliceFrom, hread]
    · exact hread

theorem ackLoop_ok {h : Heap ChatEntry} {t : Slice} (ht : t.Ok h) (s : Slice) (packetID : UInt32) (payload : Bytes)
    (n : ℕ) : t.Ok (ackLoop h s packetID payload n) := by
  induction n with
  | zero => exact ht
  | succ n ih =>
    rw [ackLoop]
    split_ifs
    · exact ht.set s n _
    · exact ih

/-- the backward search leaves what is behind its start alone and treats the rest, newest first, as `ackNewest` -/
theorem ackLoop_read {h : Heap ChatEntry} {s : Slice} (hs : s.Ok h) (packetID : UInt32) (payload : Bytes) {n : ℕ}
    (hn : n ≤ s.len) :
    read (ackLoop h s packetID payload n) s =
      (ackNewest packetID payload ((read h s).take n).reverse).reverse ++ (read h s).drop n := by
  induction n with
  | zero => simp [ackLoop, ackNewest]
  | succ n ih =>
    have hlen := length_read hs
    have hlt : n < (read h s).length := by omega
    have hget : (read h s)[n] = get zeroEntry h s n := by
      have h1 := getElem?_read zeroEntry hs (i := n) (by omega)
      rw [List.getElem?_eq_getElem hlt] at h1
      exact Option.some.inj h1
    rw [ackLoop, List.take_succ_eq_append_getElem hlt, List.reverse_append, hget, List.reverse_singleton,
      List.singleton_append, ackNewest]
    split_ifs with hmatch
    · rw [read_set_self, List.reverse_cons, List.reverse_reverse, List.set_eq_take_append_cons_drop, if_pos hlt,
        List.append_assoc, List.singleton_append]
    · rw [ih (by omega), List.reverse_cons, List.append_assoc, List.singleton_append, List.drop_eq_getElem_cons hlt,
        hget]

theorem cacheACK_ok (hc : c.Ok) (packetID : UInt32) (payload : Bytes) :
    (cacheACK maxChatCache c packetID payload).Ok := by
  unfold cacheACK
  split_ifs
  · exact hc
  · exact ackLoop_ok hc _ _ _ _

theorem cacheACK_read (hc : c.Ok) (packetID : UInt32) (payload : Bytes) :
    (cacheACK maxChatCache c packetID payload).entries =
      ChatCache.cacheACK maxChatCache c.entries packetID payload := by
  unfold cacheACK ChatCache.cacheACK
  by_cases h0 : maxChatCache ≤ 0 ∨ packetID = 0
  · rw [if_pos h0, if_pos h0]
  · rw [if_neg h0, if_neg h0]
    have hlen : c.entries.length = c.chatCache.len := length_read hc
    change read (ackLoop c.heap c.chatCache packetID payload c.chatCache.len) c.chatCache = _
    rw [ackLoop_read hc packetID payload le_rfl, ← hlen]
    simp [Chat.entries]

/-- a snapshot is the list of entries -/
theorem chatCacheSnapshot_eq (hc : c.Ok) : chatCacheSnapshot c = c.entries := by
  have hlen : c.entries.length = c.chatCache.len := length_read hc
  have hmap : (List.range c.chatCache.len).map (get zeroEntry c.heap c.chatCache) = c.entries := by
    apply List.ext_getElem?
    intro i
    by_cases hi : i < c.chatCache.len
    · rw [Chat.entries, getElem?_read zeroEntry hc hi]
      simp [hi]
    · rw [List.getElem?_eq_none (by simpa using hi), List.getElem?_eq_none (by omega)]
  unfold chatCacheSnapshot
  split_ifs with h0
  · rw [← hmap, h0]
    rfl
  · exact hmap

theorem step_ok (hc : c.Ok) (a : Call) : (step pb grow maxChatCache c a).Ok := by
  cases a with
  | cacheTextMessage payload => exact cacheTextMessage_ok pb grow maxChatCache hc payload
  | cacheACK packetID payload => exact cacheACK_ok maxChatCache hc packetID payload

theorem after_ok (calls : List Call) : (after pb grow maxChatCache calls).Ok :=
  run_inv_all (I := Chat.Ok) (fun _ a h => step_ok pb grow maxChatCache h a) calls new_ok

/-! ## The log -/

/-- the last `M` of a list -/
def window (M : ℕ) (log : List ChatEntry) : List ChatEntry := log.drop (log.length - M)

/-- one call on the log of all messages: an ACK goes to the newest matching message of the window -/
def logStep (M : ℕ) (log : List ChatEntry) : Call → List ChatEntry
  | .cacheTextMessage payload => log ++ [⟨payload, extractPacketID pb payload, none⟩]
  | .cacheACK packetID payload =>
    if packetID = 0 then log
    else log.take (log.length - M) ++ (ackNewest packetID payload (window M log).reverse).reverse

/-- the log after these calls -/
def logOf (M : ℕ) (calls : List Call) : List ChatEntry := run (logStep pb M) [] calls

/-- the messages these calls cache -/
def texts (calls : List Call) : List Bytes :=
  calls.filterMap fun
    | .cacheTextMessage payload => some payload
    | .cacheACK _ _ => none

/-- `entries'` is `entries` with the ACK on the newest entry for `packetID` that has none, or unchanged if there is no
such entry -/
def AckedNewest (entries : List ChatEntry) (packetID : UInt32) (payload : Bytes) (entries' : List ChatEntry) : Prop :=
  (∃ older e newer, entries = older ++ e :: newer ∧ e.packetID = packetID ∧ e.ack = none ∧
      (∀ x ∈ newer, ¬ (x.packetID = packetID ∧ x.ack = none)) ∧
      entries' = older ++ { e with ack := some payload } :: newer) ∨
    ((∀ x ∈ entries, ¬ (x.packetID = packetID ∧ x.ack = none)) ∧ entries' = entries)

theorem ackedNewest_reverse (packetID : UInt32) (payload : Bytes) (es : List ChatEntry) :
    AckedNewest es.reverse packetID payload (ackNewest packetID payload es).reverse := by
  induction es with
  | nil => exact .inr ⟨by simp, rfl⟩
  | cons e es ih =>
    by_cases he : e.packetID = packetID ∧ e.ack = none
    · refine .inl ⟨es.reverse, e, [], by simp, he.1, he.2, by simp, ?_⟩
      rw [ackNewest, if_pos he, List.reverse_cons]
    · rw [ackNewest, if_neg he, List.reverse_cons, List.reverse_cons]
      rcases ih with ⟨older, x, newer, hes, hid, hack, hnewer, heq⟩ | ⟨hnone, heq⟩
      · refine .inl ⟨older, x, newer ++ [e], by simp [hes], hid, hack, ?_, by simp [heq]⟩
        intro y hy
        rcases List.mem_append.1 hy with hy | hy
        · exact hnewer y hy
        · rwa [List.mem_singleton.1 hy]
      · refine .inr ⟨?_, by rw [heq]⟩
        intro y hy
        rcases List.mem_append.1 hy with hy | hy
        · exact hnone y hy
        · rwa [List.mem_singleton.1 hy]

variable {pb} {M : ℕ} {log : List ChatEntry}

/-- everything one call can do to the log -/
theorem logStep_cases (pb : Codec) (M : ℕ) (log : List ChatEntry) (a : Call) :
    (∃ payload, a = .cacheTextMessage payload ∧ logStep pb M log a = log ++ [⟨payload, extractPacketID pb payload, none⟩]) ∨
      (∃ packetID payload, a = .cacheACK packetID payload ∧
        (logStep pb M log a = log ∨ packetID ≠ 0 ∧ ∃ older e newer, log = older ++ e :: newer ∧
          e.packetID = packetID ∧ e.ack = none ∧
          logStep pb M log a = older ++ { e with ack := some payload } :: newer)) := by
  cases a with
  | cacheTextMessage payload => exact .inl ⟨payload, rfl, rfl⟩
  | cacheACK packetID payload =>
    refine .inr ⟨packetID, payload, rfl, ?_⟩
    by_cases h0 : packetID = 0
    · exact .inl (if_pos h0)
    · have hstep : logStep pb M log (.cacheACK packetID payload) =
          log.take (log.length - M) ++ (ackNewest packetID payload (window M log).reverse).reverse := if_neg h0
      have hsplit : log.take (log.length - M) ++ window M log = log := List.take_append_drop _ _
      have hacked := ackedNewest_reverse packetID payload (window M log).reverse
      rw [List.reverse_reverse] at hacked
      rw [hstep]
      rcases hacked with ⟨older, e, newer, hw, hid, hack, -, heq⟩ | ⟨-, heq⟩
      · refine .inr ⟨h0, log.take (log.length - M) ++ older, e, newer, ?_, hid, hack, ?_⟩
        · rw [List.append_assoc, ← hw, hsplit]
        · rw [List.append_assoc, heq]
      · exact .inl (by rw [heq, hsplit])

/-! ### The cache is the window of the log -/

theorem window_append_one (e : ChatEntry) :
    window M (log ++ [e]) = (window M log ++ [e]).drop ((window M log ++ [e]).length - M) := by
  have h1 : window M log ++ [e] = (log ++ [e]).drop (log.length - M) := by
    rw [window, List.drop_append_of_le_length (Nat.sub_le _ _)]
  rw [h1, window, List.drop_drop, List.length_drop, List.length_append, List.length_singleton]
  congr 1
  omega

theorem cacheTextMessage_window {maxChatCache : ℤ} (hM : 1 ≤ maxChatCache) (payload : Bytes) :
    ChatCache.cacheTextMessage pb maxChatCache (window maxChatCache.toNat log) payload =
      window maxChatCache.toNat (log ++ [⟨payload, extractPacketID pb payload, none⟩]) := by
  rw [window_append_one]
  unfold ChatCache.cacheTextMessage
  rw [if_neg (by omega)]
  dsimp only
  split_ifs with hbig
  · rfl
  · rw [Nat.sub_eq_zero_of_le (by omega), List.drop_zero]

/-- entries put in place of the window are the window -/
theorem window_replace {es : List ChatEntry} (h : es.length = (window M log).length) :
    window M (log.take (log.length - M) ++ es) = es := by
  have htake : (log.take (log.length - M)).length = log.length - M := List.length_take_of_le (Nat.sub_le _ _)
  rw [window, List.length_drop] at h
  have hlen : (log.take (log.length - M) ++ es).length - M = log.length - M := by
    rw [List.length_append, htake, h]
    omega
  rw [window, hlen]
  exact List.drop_left' htake

theorem cacheACK_window {maxChatCache : ℤ} (hM : 1 ≤ maxChatCache) (packetID : UInt32) (payload : Bytes) :
    ChatCache.cacheACK maxChatCache (window maxChatCache.toNat log) packetID payload =
      window maxChatCache.toNat (logStep pb maxChatCache.toNat log (.cacheACK packetID payload)) := by
  simp only [ChatCache.cacheACK, logStep]
  by_cases h0 : packetID = 0
  · rw [if_pos (.inr h0), if_pos h0]
  · have hlen : (ackNewest packetID payload (window maxChatCache.toNat log).reverse).length =
        (window maxChatCache.toNat log).length := by
      have := congrArg List.length (ackNewest_messages packetID payload (window maxChatCache.toNat log).reverse)
      simpa using this
    have hon : ¬ (maxChatCache ≤ 0 ∨ packetID = 0) := not_or.2 ⟨by omega, h0⟩
    rw [if_neg hon, if_neg h0]
    rw [window_replace]
    rw [List.length_reverse, hlen]

/-- **The slice refines the log**: after any calls the entries are the last `maxChatCache` of the log -/
theorem after_entries (grow : ℕ → ℕ) {maxChatCache : ℤ} (hM : 1 ≤ maxChatCache) (calls : List Call) :
    (after pb grow maxChatCache calls).entries = window maxChatCache.toNat (logOf pb maxChatCache.toNat calls) := by
  induction calls using List.reverseRecOn with
  | nil =>
    have hempty : window maxChatCache.toNat [] = [] := List.drop_nil
    exact new_entries.trans hempty.symm
  | append_singleton calls a ih =>
    have hok := after_ok pb grow maxChatCache calls
    unfold after logOf at *
    rw [run_snoc, run_snoc]
    cases a with
    | cacheTextMessage payload =>
      rw [step, cacheTextMessage_read pb grow maxChatCache hok, ih, cacheTextMessage_window hM]
      rfl
    | cacheACK packetID payload =>
      rw [step, cacheACK_read maxChatCache hok, ih, cacheACK_window hM]

theorem snapshot_after (pb : Codec) (grow : ℕ → ℕ) {maxChatCache : ℤ} (hM : 1 ≤ maxChatCache) (calls : List Call) :
    chatCacheSnapshot (after pb grow maxChatCache calls) =
      window maxChatCache.toNat (logOf pb maxChatCache.toNat calls) := by
  rw [chatCacheSnapshot_eq (after_ok pb grow maxChatCache calls), after_entries grow hM]

/-! ### What the log keeps -/

/-- an entry carries its message's id, and no ACK if that is 0 -/
structure Entry.Ok (pb : Codec) (e : ChatEntry) : Prop where
  packetID : e.packetID = extractPacketID pb e.message
  ack : e.packetID = 0 → e.ack = none

theorem logStep_ok (h : ∀ e ∈ log, Entry.Ok pb e) (a : Call) : ∀ e ∈ logStep pb M log a, Entry.Ok pb e := by
  intro x hx
  obtain ⟨payload, -, heq⟩ | ⟨packetID, payload, -, heq | ⟨h0, older, e, newer, rfl, hid, -, heq⟩⟩ :=
    logStep_cases pb M log a
  · rw [heq] at hx
    rcases List.mem_append.1 hx with hx | hx
    · exact h x hx
    · rw [List.mem_singleton.1 hx]
      exact ⟨rfl, fun _ => rfl⟩
  · rw [heq] at hx
    exact h x hx
  · rw [heq] at hx
    rcases List.mem_append.1 hx with hx | hx
    · exact h x (List.mem_append_left _ hx)
    · rcases List.mem_cons.1 hx with rfl | hx
      · have he := h e (by simp)
        exact ⟨he.packetID, fun hz => absurd (hid ▸ hz) h0⟩
      · exact h x (List.mem_append_right _ (List.mem_cons_of_mem _ hx))

theorem logOf_ok (calls : List Call) : ∀ e ∈ logOf pb M calls, Entry.Ok pb e :=
  run_inv_all (I := fun log => ∀ e ∈ log, Entry.Ok pb e) (fun _ a h => logStep_ok h a) calls (by simp)

theorem logStep_messages (log : List ChatEntry) (a : Call) :
    (logStep pb M log a).map ChatEntry.message = log.map ChatEntry.message ++ texts [a] := by
  obtain ⟨payload, rfl, heq⟩ | ⟨packetID, payload, rfl, heq | ⟨-, older, e, newer, rfl, -, -, heq⟩⟩ :=
    logStep_cases pb M log a
  · simp [heq, texts]
  · simp [heq, texts]
  · simp [heq, texts]

/-- the log holds the cached messages in the order of the calls -/
theorem logOf_messages (pb : Codec) (M : ℕ) (calls : List Call) : (logOf pb M calls).map ChatEntry.message = texts calls := by
  induction calls using List.reverseRecOn with
  | nil => rfl
  | append_singleton calls a ih =>
    unfold logOf at *
    rw [run_snoc, logStep_messages, ih, texts, texts, texts, List.filterMap_append]

/-- message `i` is still the same message, and the ACK it had is still the one it has -/
def KeepsAck (log log' : List ChatEntry) : Prop :=
  ∀ (i : ℕ) (e : ChatEntry), log[i]? = some e →
    ∃ e', log'[i]? = some e' ∧ e'.message = e.message ∧ ∀ a, e.ack = some a → e'.ack = some a

theorem logStep_keepsAck (log : List ChatEntry) (a : Call) : KeepsAck log (logStep pb M log a) := by
  intro i x hx
  obtain ⟨payload, -, heq⟩ | ⟨packetID, payload, -, heq | ⟨-, older, e, newer, rfl, -, hack, heq⟩⟩ :=
    logStep_cases pb M log a
  · have hi : i < log.length := (List.getElem?_eq_some_iff.1 hx).1
    exact ⟨x, by rw [heq, List.getElem?_append_left hi, hx], rfl, fun _ h => h⟩
  · exact ⟨x, by rw [heq, hx], rfl, fun _ h => h⟩
  · have hset : older ++ { e with ack := some payload } :: newer =
        (older ++ e :: newer).set older.length { e with ack := some payload } := by simp
    rw [heq, hset, List.getElem?_set]
    by_cases hi : older.length = i
    · subst hi
      have hxe : e = x := by simpa using hx
      subst hxe
      refine ⟨{ e with ack := some payload }, by simp, rfl, ?_⟩
      intro b hb
      rw [hack] at hb
      cases hb
    · exact ⟨x, by rw [if_neg hi, hx], rfl, fun _ h => h⟩

theorem run_keepsAck (log : List ChatEntry) (calls : List Call) : KeepsAck log (run (logStep pb M) log calls) := by
  induction calls generalizing log with
  | nil => exact fun i e he => ⟨e, he, rfl, fun _ h => h⟩
  | cons a calls ih =>
    intro i e he
    obtain ⟨e1, he1, hm1, ha1⟩ := logStep_keepsAck log a i e he
    obtain ⟨e2, he2, hm2, ha2⟩ := ih (logStep pb M log a) i e1 he1
    exact ⟨e2, he2, hm2.trans hm1, fun b hb => ha2 b (ha1 b hb)⟩

/-- **The chat cache.** For every limit of at least 1, every growth policy and every sequence of calls: the snapshot
is the last `min k M` of the `k` messages cached, in order; an ACK with a non-zero id goes to the newest entry of the
snapshot that has this id and no ACK, and changes nothing else; an entry with id 0 has no ACK; and a message that has an
ACK keeps it through every later call. -/
theorem chatCache_spec (pb : Codec) (grow : ℕ → ℕ) (maxChatCache : ℤ) (hM : 1 ≤ maxChatCache) (calls : List Call) :
    (chatCacheSnapshot (after pb grow maxChatCache calls) =
        window maxChatCache.toNat (logOf pb maxChatCache.toNat calls) ∧
      (logOf pb maxChatCache.toNat calls).map ChatEntry.message = texts calls ∧
      (chatCacheSnapshot (after pb grow maxChatCache calls)).length =
        min (texts calls).length maxChatCache.toNat) ∧
    (∀ e ∈ logOf pb maxChatCache.toNat calls,
      e.packetID = extractPacketID pb e.message ∧ (e.packetID = 0 → e.ack = none)) ∧
    (∀ packetID payload, packetID ≠ 0 →
      AckedNewest (chatCacheSnapshot (after pb grow maxChatCache calls)) packetID payload
        (chatCacheSnapshot (after pb grow maxChatCache (calls ++ [.cacheACK packetID payload])))) ∧
    (∀ payload, chatCacheSnapshot (after pb grow maxChatCache (calls ++ [.cacheACK 0 payload])) =
      chatCacheSnapshot (after pb grow maxChatCache calls)) ∧
    ∀ more, KeepsAck (logOf pb maxChatCache.toNat calls) (logOf pb maxChatCache.toNat (calls ++ more)) := by
  have hmessages := logOf_messages pb maxChatCache.toNat calls
  have hsnap := fun calls => snapshot_after pb grow hM calls
  -- an ACK call acts on the entries as the list operation does
  have hack : ∀ packetID payload, chatCacheSnapshot (after pb grow maxChatCache (calls ++ [.cacheACK packetID payload])) =
      ChatCache.cacheACK maxChatCache (chatCacheSnapshot (after pb grow maxChatCache calls)) packetID payload := by
    intro packetID payload
    rw [hsnap, hsnap, cacheACK_window hM, logOf, run_snoc]
    rfl
  refine ⟨⟨hsnap calls, hmessages, ?_⟩, fun e he => ?_, fun packetID payload h0 => ?_, fun payload => ?_, fun more => ?_⟩
  · have hlen := congrArg List.length hmessages
    rw [List.length_map] at hlen
    rw [hsnap, window, List.length_drop]
    omega
  · have hok := logOf_ok calls e he
    exact ⟨hok.packetID, hok.ack⟩
  · have hon : ¬ (maxChatCache ≤ 0 ∨ packetID = 0) := not_or.2 ⟨by omega, h0⟩
    rw [hack, ChatCache.cacheACK, if_neg hon]
    have hacked := ackedNewest_reverse packetID payload
      (chatCacheSnapshot (after pb grow maxChatCache calls)).reverse
    rwa [List.reverse_reverse] at hacked
  · rw [hack, ChatCache.cacheACK, if_pos (.inr rfl)]
  · rw [logOf, logOf, run_append]
    exact run_keepsAck _ more

/-- the text message with id 7, cached twice and then evicted once; both copies get an ACK, newest first -/
def twiceSent : List Call :=
  [.cacheTextMessage textFromRadio, .cacheTextMessage textFromRadio, .cacheACK 7 [1], .cacheACK 7 [2],
    .cacheTextMessage [0]]

theorem chatCache_spec_evicted :
    let pb := tableCodec [(textFromRadio, { variant := .packet { textPacket with from_ := 9, rxTime := 100 } })] [] []
    (1 : ℤ) ≤ 2 ∧
      window 2 (logOf pb 2 twiceSent) = [⟨textFromRadio, 7, some [1]⟩, ⟨[0], 0, none⟩] ∧
      chatCacheSnapshot (after pb (· * 2) 2 twiceSent) = window 2 (logOf pb 2 twiceSent) := by
  intro pb
  have hM : (1 : ℤ) ≤ 2 := by decide
  exact ⟨hM, by decide +kernel, (chatCache_spec pb (· * 2) 2 hM twiceSent).1.1⟩

end MeshProxy.ChatSlice
