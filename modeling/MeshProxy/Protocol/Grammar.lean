/-
What `ReadFrame` accepts (`internal/protocol/frame.go`), as a grammar of byte strings.

A stream that `readFrame` answers with a payload is a list of skip items, one frame of 1 to 512 bytes and a rest. The
skip items are what the loop drops in one pass: a byte other than 0x94, 0x94 with a byte other than 0xC3, a whole
oversized frame, an empty frame. Skip items and accepted frames form a prefix code, so the split is unique.

Results:
- `readFrame_accepts_grammar`: the payload and the rest are those of the split, and without a split the read fails with
  the stream consumed;
- `readFrame_after_noise`: after noise without the magic pair the frame is found exactly when the noise ends in an even
  number of 0x94 bytes, because a 0x94 that follows a 0x94 is dropped with it.
-/
import Mathlib.Data.List.TakeWhile
import MeshProxy.Core.PrefixCode
import MeshProxy.Protocol.Frame

namespace MeshProxy.Frame

open MeshProxy.PrefixCode

/-! ## The words of a stream -/

/-- a frame as it stands in a stream: any two length bytes and as many payload bytes as they declare -/
def Framed (f p : Bytes) : Prop :=
  ∃ hi lo : UInt8, p.length = 256 * hi.toNat + lo.toNat ∧ f = [magicByte1, magicByte2, hi, lo] ++ p

/-- what one pass of the loop drops -/
inductive SkipItem : Bytes → Prop
  | consoleByte {b : UInt8} (h : b ≠ magicByte1) : SkipItem [b]
  | falseStart {b : UInt8} (h : b ≠ magicByte2) : SkipItem [magicByte1, b]
  | oversized {f p : Bytes} (hf : Framed f p) (h : maxFrameSize < p.length) : SkipItem f
  | empty {f : Bytes} (hf : Framed f []) : SkipItem f

/-- a frame whose payload is returned -/
def AcceptedFrame (f : Bytes) : Prop := ∃ p, Framed f p ∧ Accepted p

/-- the length of the word at the head of a stream, read off its first four bytes -/
def wordLength : Bytes → ℕ
  | b1 :: b2 :: s =>
    if b1 ≠ magicByte1 then 1
    else if b2 ≠ magicByte2 then 2
    else 4 + bigEndianUint16 s
  | _ => 1

theorem Framed.frameOf_eq {f p : Bytes} (h : Framed f p) : f = frameOf p ∧ p.length ≤ 65535 := by
  obtain ⟨hi, lo, hlen, rfl⟩ := h
  have hhi := hi.toNat_lt
  have hlo := lo.toNat_lt
  have h1 : UInt8.ofNat (p.length / 256) = hi := by
    apply UInt8.toNat_inj.1
    rw [UInt8.toNat_ofNat']
    omega
  have h2 : UInt8.ofNat (p.length % 256) = lo := by
    apply UInt8.toNat_inj.1
    rw [UInt8.toNat_ofNat']
    omega
  exact ⟨by rw [frameOf, h1, h2], by omega⟩

theorem wordLength_framed {f p : Bytes} (h : Framed f p) (x : Bytes) : wordLength (f ++ x) = f.length := by
  obtain ⟨hi, lo, hlen, rfl⟩ := h
  simp only [List.cons_append, List.nil_append, wordLength, ne_eq, not_true_eq_false, if_false, bigEndianUint16_eq,
    List.length_cons]
  omega

theorem wordLength_skipItem {f : Bytes} (h : SkipItem f) (x : Bytes) : wordLength (f ++ x) = f.length := by
  induction h with
  | @consoleByte b h =>
    cases x with
    | nil => rfl
    | cons c x => simp [wordLength, h]
  | falseStart h => simp [wordLength, h]
  | oversized hf _ => exact wordLength_framed hf x
  | empty hf => exact wordLength_framed hf x

/-- no word of a stream is a proper prefix of another -/
theorem words_prefixFree : PrefixFree ({f | SkipItem f} ∪ {f | AcceptedFrame f}) := by
  apply PrefixFree.of_length wordLength
  intro f hf x
  rcases hf with hf | ⟨p, hf, _⟩
  · exact wordLength_skipItem hf x
  · exact wordLength_framed hf x

theorem Framed.payload_unique {f p q : Bytes} (hp : Framed f p) (hq : Framed f q) : p = q := by
  obtain ⟨_, _, _, rfl⟩ := hp
  obtain ⟨_, _, _, heq⟩ := hq
  simp only [List.cons_append, List.nil_append, List.cons.injEq, true_and] at heq
  exact heq.2.2

theorem words_disjoint : ∀ f ∈ {f | SkipItem f}, f ∉ {f | AcceptedFrame f} := by
  rintro f hs ⟨p, hp, ha⟩
  have hp' := hp
  obtain ⟨hi, lo, _, heq⟩ := hp'
  cases hs with
  | consoleByte h => simp at heq
  | falseStart h => simp at heq
  | oversized hf h =>
    have := ha.2
    rw [hp.payload_unique hf] at this
    omega
  | empty hf =>
    have := ha.1
    rw [hp.payload_unique hf] at this
    simp at this

/-! ## Reading word by word -/

theorem readFrame_consoleByte {b : UInt8} (h : b ≠ magicByte1) (s : Bytes) : readFrame (b :: s) = readFrame s := by
  rw [readFrame.eq_def]
  simp [h]

theorem readFrame_falseStart {b : UInt8} (h : b ≠ magicByte2) (s : Bytes) :
    readFrame (magicByte1 :: b :: s) = readFrame s := by
  rw [readFrame.eq_def]
  simp [h]

/-- a skip item at the head of a stream makes no difference -/
theorem readFrame_skipItem {f : Bytes} (h : SkipItem f) (s : Bytes) : readFrame (f ++ s) = readFrame s := by
  induction h with
  | consoleByte h => exact readFrame_consoleByte h s
  | falseStart h => exact readFrame_falseStart h s
  | @oversized f p hf h =>
    obtain ⟨rfl, hlen⟩ := hf.frameOf_eq
    have hna : ¬ Accepted p := fun ha => absurd ha.2 (Nat.not_le.2 h)
    rw [readFrame_frame p s hlen, if_neg hna]
  | @empty f hf =>
    obtain ⟨rfl, hlen⟩ := hf.frameOf_eq
    rw [readFrame_frame [] s hlen, if_neg (by decide)]

/-- an accepted frame at the head of a stream is returned -/
theorem readFrame_accepted {f p : Bytes} (hf : Framed f p) (ha : Accepted p) (r : Bytes) :
    readFrame (f ++ r) = (.ok p, r) := by
  obtain ⟨rfl, hlen⟩ := hf.frameOf_eq
  rw [readFrame_frame p r hlen, if_pos ha]

/-- the split of a stream that `readFrame` answers with `p`, leaving `r` -/
structure Split (s : Bytes) (items : List Bytes) (hi lo : UInt8) (p r : Bytes) : Prop where
  items_skip : ∀ i ∈ items, SkipItem i
  length_pos : 1 ≤ p.length
  length_eq : p.length = 256 * hi.toNat + lo.toNat
  length_le : 256 * hi.toNat + lo.toNat ≤ 512
  stream_eq : s = items.flatten ++ [magicByte1, magicByte2, hi, lo] ++ p ++ r

section Split

variable {s p r : Bytes} {items : List Bytes} {hi lo : UInt8}

theorem Split.framed (h : Split s items hi lo p r) : Framed ([magicByte1, magicByte2, hi, lo] ++ p) p :=
  ⟨hi, lo, h.length_eq, rfl⟩

theorem Split.accepted (h : Split s items hi lo p r) : Accepted p :=
  ⟨h.length_pos, h.length_eq ▸ h.length_le⟩

theorem Split.words (h : Split s items hi lo p r) :
    s = items.flatten ++ (([magicByte1, magicByte2, hi, lo] ++ p) ++ r) := by
  rw [h.stream_eq]
  simp only [List.append_assoc]

/-- one more skip item in front -/
theorem Split.cons (h : Split s items hi lo p r) {f : Bytes} (hf : SkipItem f) :
    Split (f ++ s) (f :: items) hi lo p r where
  items_skip := List.forall_mem_cons.2 ⟨hf, h.items_skip⟩
  length_pos := h.length_pos
  length_eq := h.length_eq
  length_le := h.length_le
  stream_eq := by rw [h.stream_eq, List.flatten_cons]; simp only [List.append_assoc]

theorem Split.readFrame_eq (h : Split s items hi lo p r) : readFrame s = (.ok p, r) := by
  rw [h.words, skip_flatten (K := {f | SkipItem f}) (fun i hi' => readFrame_skipItem hi') h.items_skip]
  exact readFrame_accepted h.framed h.accepted r

theorem Split.unique {p' r' : Bytes} {items' : List Bytes} {hi' lo' : UInt8} (h : Split s items hi lo p r)
    (h' : Split s items' hi' lo' p' r') : items = items' ∧ hi = hi' ∧ lo = lo' ∧ p = p' ∧ r = r' := by
  have heq := h.words.symm.trans h'.words
  obtain ⟨hitems, hframe, hrest⟩ := words_prefixFree.split_unique words_disjoint h.items_skip h'.items_skip
    ⟨p, h.framed, h.accepted⟩ ⟨p', h'.framed, h'.accepted⟩ heq
  simp only [List.cons_append, List.nil_append, List.cons.injEq, true_and] at hframe
  exact ⟨hitems, hframe.1, hframe.2.1, hframe.2.2, hrest⟩

end Split

/-! ## Every read is a split -/

theorem readFull_ok {n : ℕ} {s a rest : Bytes} (h : readFull n s = (.ok a, rest)) : a.length = n ∧ s = a ++ rest := by
  unfold readFull at h
  by_cases h1 : n ≤ s.length
  · rw [if_pos h1] at h
    cases h
    exact ⟨List.length_take_of_le h1, (List.take_append_drop n s).symm⟩
  · rw [if_neg h1] at h
    split_ifs at h <;> cases h

theorem readFull_error {n : ℕ} {s rest : Bytes} {e : IoErr} (h : readFull n s = (.error e, rest)) : rest = [] := by
  unfold readFull at h
  split_ifs at h <;> cases h <;> rfl

/-- the two length bytes and the bytes they declare make a frame -/
theorem framed_of_reads {s s' a p r : Bytes} (ha : readFull 2 s = (.ok a, s'))
    (hp : readFull (bigEndianUint16 a) s' = (.ok p, r)) :
    ∃ hi lo, s = [hi, lo] ++ p ++ r ∧ p.length = 256 * hi.toNat + lo.toNat ∧ bigEndianUint16 a = p.length := by
  obtain ⟨hlen, rfl⟩ := readFull_ok ha
  obtain ⟨hplen, rfl⟩ := readFull_ok hp
  match a, hlen with
  | [hi, lo], _ =>
    refine ⟨hi, lo, by simp, ?_, hplen.symm⟩
    rw [hplen, bigEndianUint16_eq]

theorem readFull_zero (s : Bytes) : readFull 0 s = (.ok [], s) := by simp [readFull]

/-- whatever a read returns came from a split -/
theorem readFrame_split {s p r : Bytes} (h : readFrame s = (.ok p, r)) : ∃ items hi lo, Split s items hi lo p r := by
  fun_induction readFrame s with
  | case1 => simp at h
  | case2 b s hb ih =>
    obtain ⟨items, hi, lo, hs⟩ := ih h
    exact ⟨_, hi, lo, hs.cons (.consoleByte hb)⟩
  | case3 => simp at h
  | case4 b1 hb1 b2 s hb2 ih =>
    obtain rfl := not_not.1 hb1
    obtain ⟨items, hi, lo, hs⟩ := ih h
    exact ⟨_, hi, lo, hs.cons (.falseStart hb2)⟩
  | case5 => simp at h
  | case6 => simp at h
  | case7 b1 hb1 b2 s hb2 lenBuf s3 h2 hbig q s4 h4 ih =>
    obtain rfl := not_not.1 hb1
    obtain rfl := not_not.1 hb2
    obtain ⟨items, hi, lo, hs⟩ := ih h
    obtain ⟨hi', lo', rfl, hlen, hdecl⟩ := framed_of_reads h2 h4
    have hskip : SkipItem ([magicByte1, magicByte2, hi', lo'] ++ q) :=
      .oversized ⟨hi', lo', hlen, rfl⟩ (by omega)
    exact ⟨_, hi, lo, by simpa using hs.cons hskip⟩
  | case8 b1 hb1 b2 s hb2 lenBuf s3 h2 _ hzero ih =>
    obtain rfl := not_not.1 hb1
    obtain rfl := not_not.1 hb2
    obtain ⟨items, hi, lo, hs⟩ := ih h
    obtain ⟨hi', lo', rfl, hlen, _⟩ := framed_of_reads h2 (hzero ▸ readFull_zero s3)
    have hskip : SkipItem ([magicByte1, magicByte2, hi', lo'] ++ []) := .empty ⟨hi', lo', hlen, rfl⟩
    exact ⟨_, hi, lo, by simpa using hs.cons hskip⟩
  | case9 => simp at h
  | case10 b1 hb1 b2 s hb2 lenBuf s3 h2 hbig hzero q s4 h4 =>
    obtain rfl := not_not.1 hb1
    obtain rfl := not_not.1 hb2
    cases h
    obtain ⟨hi, lo, rfl, hlen, hdecl⟩ := framed_of_reads h2 h4
    have hle : bigEndianUint16 lenBuf ≤ 512 := Nat.not_lt.1 hbig
    exact ⟨[], hi, lo, by simp, by omega, hlen, by omega, by simp⟩

/-- a failed read has consumed the stream, whichever of its reads came up short -/
theorem readFrame_error_rest {s r : Bytes} {e : FrameErr} (h : readFrame s = (.error e, r)) : r = [] := by
  fun_induction readFrame s with
  | case1 => simp at h; exact h.2
  | case2 b s hb ih => exact ih h
  | case3 => simp at h; exact h.2
  | case4 b1 hb1 b2 s hb2 ih => exact ih h
  | case5 b1 hb1 b2 s hb2 e' rest h2 =>
    cases h
    exact readFull_error h2
  | case6 b1 hb1 b2 s hb2 lenBuf s3 h2 hbig e' rest h4 =>
    cases h
    exact readFull_error h4
  | case7 b1 hb1 b2 s hb2 lenBuf s3 h2 hbig q s4 h4 ih => exact ih h
  | case8 b1 hb1 b2 s hb2 lenBuf s3 h2 _ hzero ih => exact ih h
  | case9 b1 hb1 b2 s hb2 lenBuf s3 h2 hbig hzero e' rest h4 =>
    cases h
    exact readFull_error h4
  | case10 => simp at h

/-- **`ReadFrame` accepts exactly its grammar.** On every byte string it returns a payload `p` and leaves `r` exactly
when the string is a list of skip items, a frame of `p` with 1 to 512 bytes, and `r`. The split is unique. Without one
it returns an error, and nothing is left to read. -/
theorem readFrame_accepts_grammar (s : Bytes) :
    (∀ p r, readFrame s = (.ok p, r) ↔ ∃ items hi lo, Split s items hi lo p r) ∧
      (∀ items hi lo p r items' hi' lo' p' r', Split s items hi lo p r → Split s items' hi' lo' p' r' →
        items = items' ∧ hi = hi' ∧ lo = lo' ∧ p = p' ∧ r = r') ∧
      ((¬ ∃ items hi lo p r, Split s items hi lo p r) → ∃ e, readFrame s = (.error e, [])) := by
  refine ⟨fun p r => ⟨readFrame_split, fun ⟨items, hi, lo, h⟩ => h.readFrame_eq⟩,
    fun _ _ _ _ _ _ _ _ _ _ h h' => h.unique h', fun hno => ?_⟩
  match hs : readFrame s with
  | (.error e, r) =>
    obtain rfl := readFrame_error_rest hs
    exact ⟨e, rfl⟩
  | (.ok p, r) =>
    obtain ⟨items, hi, lo, h⟩ := readFrame_split hs
    exact absurd ⟨items, hi, lo, p, r, h⟩ hno

/-! ## Console noise before a frame -/

/-- no header starts inside the noise -/
def NoMagic (w : Bytes) : Prop := ¬ [magicByte1, magicByte2] <:+: w

instance (w : Bytes) : Decidable (NoMagic w) := inferInstanceAs (Decidable (¬ _))

/-- how many 0x94 bytes the noise ends in -/
def trailing (w : Bytes) : ℕ := (w.reverse.takeWhile (· == magicByte1)).length

/-- the run reaches back over all the noise exactly when there is nothing else in it -/
theorem takeWhile_reverse_eq {w : Bytes} :
    w.reverse.takeWhile (· == magicByte1) = w.reverse ↔ ∀ c ∈ w, c = magicByte1 := by
  rw [List.takeWhile_eq_self_iff]
  simp

theorem trailing_all {w : Bytes} (h : ∀ c ∈ w, c = magicByte1) : trailing w = w.length := by
  rw [trailing, takeWhile_reverse_eq.2 h, List.length_reverse]

theorem trailing_append {v w : Bytes} (h : ∃ c ∈ w, c ≠ magicByte1) : trailing (v ++ w) = trailing w := by
  have hne : (w.reverse.takeWhile (· == magicByte1)).length ≠ w.reverse.length := by
    intro heq
    obtain ⟨c, hc, hcne⟩ := h
    exact hcne (takeWhile_reverse_eq.1 ((List.takeWhile_prefix _).eq_of_length heq) c hc)
  rw [trailing, List.reverse_append, List.takeWhile_append, if_neg hne, trailing]

theorem trailing_consoleByte {b : UInt8} (h : b ≠ magicByte1) (w : Bytes) : trailing (b :: w) = trailing w := by
  by_cases hw : ∀ c ∈ w, c = magicByte1
  · have hself := takeWhile_reverse_eq.2 hw
    rw [trailing, List.reverse_cons, List.takeWhile_append, hself, if_pos rfl, trailing, hself]
    simp [h]
  · push Not at hw
    exact trailing_append (v := [b]) hw

/-- a false start keeps the parity: both bytes of it are 0x94, or its second byte ends the run -/
theorem even_trailing_falseStart (c : UInt8) (w : Bytes) :
    Even (trailing (magicByte1 :: c :: w)) ↔ Even (trailing w) := by
  by_cases hw : ∀ d ∈ w, d = magicByte1
  · by_cases hc : c = magicByte1
    · have hall : ∀ d ∈ magicByte1 :: c :: w, d = magicByte1 :=
        List.forall_mem_cons.2 ⟨rfl, List.forall_mem_cons.2 ⟨hc, hw⟩⟩
      rw [trailing_all hall, trailing_all hw, List.length_cons, List.length_cons, Nat.even_add_one, Nat.even_add_one,
        not_not]
    · have hc' : ∃ d ∈ c :: w, d ≠ magicByte1 := ⟨c, List.mem_cons_self, hc⟩
      have htrail : trailing (magicByte1 :: c :: w) = trailing (c :: w) := trailing_append (v := [magicByte1]) hc'
      rw [htrail, trailing_consoleByte hc]
  · push Not at hw
    have htrail : trailing (magicByte1 :: c :: w) = trailing w := trailing_append (v := [magicByte1, c]) hw
    rw [htrail]

/-- noise is a list of skip items, up to one 0x94 left over when it ends in an odd number of them -/
theorem noise_items (w : Bytes) (hw : NoMagic w) :
    ∃ items : List Bytes, (∀ i ∈ items, SkipItem i) ∧
      (w = items.flatten ∧ Even (trailing w) ∨ w = items.flatten ++ [magicByte1] ∧ ¬ Even (trailing w)) := by
  match w with
  | [] => exact ⟨[], by simp, .inl ⟨rfl, by decide⟩⟩
  | b :: w =>
    have hw' : NoMagic w := fun h => hw (h.trans (List.suffix_cons b w).isInfix)
    by_cases hb : b = magicByte1
    · subst hb
      match w with
      | [] => exact ⟨[], by simp, .inr ⟨rfl, by decide⟩⟩
      | c :: w =>
        have hc : c ≠ magicByte2 := by
          rintro rfl
          exact hw (List.prefix_append [magicByte1, magicByte2] w).isInfix
        have hw'' : NoMagic w := fun h => hw' (h.trans (List.suffix_cons c w).isInfix)
        obtain ⟨items, hi, hsplit⟩ := noise_items w hw''
        refine ⟨[magicByte1, c] :: items, List.forall_mem_cons.2 ⟨.falseStart hc, hi⟩, ?_⟩
        rw [even_trailing_falseStart, List.flatten_cons]
        simpa using hsplit
    · obtain ⟨items, hi, hsplit⟩ := noise_items w hw'
      refine ⟨[b] :: items, List.forall_mem_cons.2 ⟨.consoleByte hb, hi⟩, ?_⟩
      rw [trailing_consoleByte hb, List.flatten_cons]
      simpa using hsplit

/-- a stream that is too short to hold a frame of `p` before `r` -/
theorem readFrame_ne_of_short {s p r : Bytes} (h : s.length < 4 + p.length + r.length) : readFrame s ≠ (.ok p, r) := by
  intro heq
  obtain ⟨items, hi, lo, hs⟩ := readFrame_split heq
  have hlen := congrArg List.length hs.stream_eq
  simp only [List.length_append, List.length_cons, List.length_nil] at hlen
  omega

/-- noise with an even run of 0x94 at its end is skipped as a whole -/
theorem readFrame_noise_even {w : Bytes} (hw : NoMagic w) (he : Even (trailing w)) (s : Bytes) :
    readFrame (w ++ s) = readFrame s := by
  obtain ⟨items, hi, ⟨rfl, -⟩ | ⟨-, ho⟩⟩ := noise_items w hw
  · exact skip_flatten (K := {f | SkipItem f}) (fun i hi' => readFrame_skipItem hi') hi s
  · exact absurd he ho

/-- after an odd run the last 0x94 takes the first byte of the header with it -/
theorem readFrame_noise_odd {w : Bytes} (hw : NoMagic w) (ho : ¬ Even (trailing w)) (s : Bytes) :
    readFrame (w ++ magicByte1 :: s) = readFrame s := by
  obtain ⟨items, hi, ⟨-, he⟩ | ⟨rfl, -⟩⟩ := noise_items w hw
  · exact absurd he ho
  · rw [List.append_assoc, skip_flatten (K := {f | SkipItem f}) (fun i hi' => readFrame_skipItem hi') hi]
    exact readFrame_falseStart (by decide) s

/-- **Resynchronisation after noise.** Before a frame of 1 to 512 bytes, noise without the magic pair leaves the frame
readable exactly when it ends in an even number of 0x94 bytes. With anything after the frame the same decides whether
the read ends at the end of the frame. -/
theorem readFrame_after_noise (w p : Bytes) (hw : NoMagic w) (hp : 1 ≤ p.length ∧ p.length ≤ 512) :
    ((readFrame (w ++ frameOf p)).1 = .ok p ↔ Even (trailing w)) ∧
      ∀ r, readFrame (w ++ frameOf p ++ r) = (.ok p, r) ↔ Even (trailing w) := by
  have hfound : ∀ r, Even (trailing w) → readFrame (w ++ frameOf p ++ r) = (.ok p, r) := by
    intro r he
    rw [List.append_assoc, readFrame_noise_even hw he, readFrame_frame p r (by omega), if_pos (show Accepted p from hp)]
  have hlost : ∀ r r', ¬ Even (trailing w) → r.length ≤ r'.length →
      readFrame (w ++ frameOf p ++ r) ≠ (.ok p, r') := by
    intro r r' ho hr
    rw [List.append_assoc, frameOf, List.cons_append, List.cons_append, readFrame_noise_odd hw ho]
    apply readFrame_ne_of_short
    simp only [List.cons_append, List.nil_append, List.length_cons, List.length_append]
    omega
  refine ⟨⟨fun h => ?_, fun he => ?_⟩, fun r => ⟨fun h => ?_, hfound r⟩⟩
  · by_contra ho
    apply hlost [] (readFrame (w ++ frameOf p ++ [])).2 ho (Nat.zero_le _)
    rw [List.append_nil]
    exact Prod.ext h rfl
  · have := hfound [] he
    rw [List.append_nil] at this
    rw [this]
  · by_contra ho
    exact hlost r r ho le_rfl h

/-- a frame of one byte after a 0x94 that belongs to no frame -/
theorem readFrame_after_noise_single :
    NoMagic [0x94] ∧ ¬ Even (trailing [0x94]) ∧
      readFrame ([0x94] ++ frameOf [7]) ≠ (.ok [7], []) := by
  have hw : NoMagic [0x94] := by decide
  have hiff := (readFrame_after_noise [0x94] [7] hw (by decide)).2 []
  rw [List.append_nil] at hiff
  exact ⟨hw, by decide, fun h => absurd (hiff.1 h) (by decide)⟩

/-- one 0x94 of noise hides the frame behind it: the scan pairs it with the 0x94 of the header -/
theorem resync_refuted :
    ¬ ∀ w p : Bytes, NoMagic w → 1 ≤ p.length → p.length ≤ 512 → (readFrame (w ++ frameOf p)).1 = .ok p := by
  intro h
  have hp := h [0x94] [7] (by decide) (by decide) (by decide)
  have hread : readFrame ([0x94] ++ frameOf [7]) = (.error (.readingStart1 .eof), []) := by
    calc readFrame [0x94, 0x94, 0xC3, 0, 1, 7] = readFrame [0xC3, 0, 1, 7] := readFrame_falseStart (by decide) _
      _ = readFrame [0, 1, 7] := readFrame_consoleByte (by decide) _
      _ = readFrame [1, 7] := readFrame_consoleByte (by decide) _
      _ = readFrame [7] := readFrame_consoleByte (by decide) _
      _ = readFrame [] := readFrame_consoleByte (by decide) _
      _ = (.error (.readingStart1 .eof), []) := by rw [readFrame]
  rw [hread] at hp
  cases hp

end MeshProxy.Frame
