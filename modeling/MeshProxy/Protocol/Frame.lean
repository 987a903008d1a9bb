/-
The serial framing of Meshtastic payloads (`internal/protocol/frame.go`).

A frame is 0x94 0xC3, a 16-bit big-endian length and the payload. `readFrame` is `ReadFrame` over a finite byte stream:
it scans for the two magic bytes, skips empty frames, reads and discards frames longer than `maxFrameSize`, and fails
when the input ends. `writeFrame` is `WriteFrame` over a byte sink. Both return what is left of the stream or sink, so
"how much was consumed" is part of every statement. A stream read to its end is `readAll`: `readFrame` until it fails,
as the read loops of the program do.

Results:
- `readFrame_frame`: one frame at the head of the stream is returned, skipped or discarded, by its length only;
- `readAll_frames`: reading a concatenation of frames yields exactly the payloads of 1 to 512 bytes, in order;
- `frame_stream_round_trip`: the same, together with what `writeFrame` emits.
-/
import Mathlib.Tactic

namespace MeshProxy.Frame

abbrev Bytes := List UInt8

def magicByte1 : UInt8 := 0x94
def magicByte2 : UInt8 := 0xC3
def maxFrameSize : ℕ := 512

/-! ## Reading -/

/-- the two ways `io.ReadFull` ends early: nothing read, or only a part -/
inductive IoErr where
  | eof
  | unexpectedEOF
deriving DecidableEq, Repr

/-- `ReadFrame`'s errors, one for each read it makes; the last two carry the declared length -/
inductive FrameErr where
  | readingStart1 (e : IoErr)
  | readingStart2 (e : IoErr)
  | readingLength (e : IoErr)
  | discardingOversized (length : ℕ) (e : IoErr)
  | readingPayload (length : ℕ) (e : IoErr)
deriving DecidableEq, Repr

/-- `io.ReadFull` of `n` bytes, with the unread rest; on a short stream everything is consumed -/
def readFull (n : ℕ) (s : Bytes) : Except IoErr Bytes × Bytes :=
  if n ≤ s.length then (.ok (s.take n), s.drop n)
  else if s.isEmpty then (.error .eof, []) else (.error .unexpectedEOF, [])

/-- `binary.BigEndian.Uint16` -/
def bigEndianUint16 : Bytes → ℕ
  | hi :: lo :: _ => hi.toNat <<< 8 ||| lo.toNat
  | _ => 0

theorem readFull_rest_le {n : ℕ} {s : Bytes} {r : Except IoErr Bytes} {rest : Bytes}
    (h : readFull n s = (r, rest)) : rest.length ≤ s.length := by
  unfold readFull at h
  split_ifs at h <;> cases h <;> simp

/-- `ReadFrame` -/
def readFrame (s : Bytes) : Except FrameErr Bytes × Bytes :=
  match s with
  | [] => (.error (.readingStart1 .eof), [])
  | b1 :: s1 =>
    -- debug console output
    if b1 ≠ magicByte1 then readFrame s1
    else
      match s1 with
      | [] => (.error (.readingStart2 .eof), [])
      | b2 :: s2 =>
        -- not a frame header: both bytes are dropped and the scan restarts after them
        if b2 ≠ magicByte2 then readFrame s2
        else
          match _h : readFull 2 s2 with
          | (.error e, rest) => (.error (.readingLength e), rest)
          | (.ok lenBuf, s3) =>
            if bigEndianUint16 lenBuf > maxFrameSize then
              match _h' : readFull (bigEndianUint16 lenBuf) s3 with
              | (.error e, rest) => (.error (.discardingOversized (bigEndianUint16 lenBuf) e), rest)
              | (.ok _, s4) => readFrame s4
            else if bigEndianUint16 lenBuf = 0 then readFrame s3
            else
              match readFull (bigEndianUint16 lenBuf) s3 with
              | (.error e, rest) => (.error (.readingPayload (bigEndianUint16 lenBuf) e), rest)
              | (.ok payload, s4) => (.ok payload, s4)
termination_by s.length
decreasing_by
  · simp
  · simp only [List.length_cons]; omega
  · have h1 := readFull_rest_le _h
    have h2 := readFull_rest_le _h'
    simp only [List.length_cons]; omega
  · have h1 := readFull_rest_le _h
    simp only [List.length_cons]; omega

/-- a successful read leaves a strictly shorter stream -/
theorem readFrame_rest_lt {s : Bytes} {p rest : Bytes} (h : readFrame s = (.ok p, rest)) :
    rest.length < s.length := by
  fun_induction readFrame s with
  | case1 => simp at h
  | case2 b1 s1 _ ih => have := ih h; simp; omega
  | case3 => simp at h
  | case4 _ _ b2 s2 _ ih => have := ih h; simp; omega
  | case5 => simp at h
  | case6 => simp at h
  | case7 _ _ _ s2 _ lenBuf s3 h2 _ _ s4 h4 ih =>
    have := ih h
    have h1 := readFull_rest_le h2
    have h2 := readFull_rest_le h4
    simp; omega
  | case8 _ _ _ s2 _ lenBuf s3 h2 _ _ ih =>
    have := ih h
    have h1 := readFull_rest_le h2
    simp; omega
  | case9 => simp at h
  | case10 _ _ _ s2 _ lenBuf s3 h2 _ _ payload s4 h4 =>
    cases h
    have h1 := readFull_rest_le h2
    have h2 := readFull_rest_le h4
    simp; omega

/-- `ReadFrame` again and again until it fails: the payloads in order, and the error that ended the stream -/
def readAll (s : Bytes) : List Bytes × FrameErr :=
  match _h : readFrame s with
  | (.error e, _) => ([], e)
  | (.ok p, rest) => (p :: (readAll rest).1, (readAll rest).2)
termination_by s.length
decreasing_by exact readFrame_rest_lt _h

/-! ## Writing -/

/-- a connection as `WriteFrame` sees it: the bytes written so far, and whether `Write` fails -/
structure Sink where
  out : Bytes
  broken : Bool
deriving DecidableEq, Repr

/-- `WriteFrame`'s errors -/
inductive WriteErr where
  | payloadTooLarge (size : ℕ)
  | writingFrame
deriving DecidableEq, Repr

/-- `WriteFrame`: the header bytes are the low bytes of the shifted length -/
def writeFrame (w : Sink) (payload : Bytes) : Except WriteErr Unit × Sink :=
  if payload.length > maxFrameSize then (.error (.payloadTooLarge payload.length), w)
  else if w.broken then (.error .writingFrame, w)
  else
    let frame := [magicByte1, magicByte2, UInt8.ofNat (payload.length >>> 8), UInt8.ofNat payload.length] ++ payload
    (.ok (), { w with out := w.out ++ frame })

/-! ## The format -/

/-- the frame of a payload: magic bytes, the high and the low byte of the length, the payload -/
def frameOf (p : Bytes) : Bytes :=
  [magicByte1, magicByte2, UInt8.ofNat (p.length / 256), UInt8.ofNat (p.length % 256)] ++ p

/-- the payloads a reader accepts -/
def Accepted (p : Bytes) : Prop := 1 ≤ p.length ∧ p.length ≤ maxFrameSize

instance (p : Bytes) : Decidable (Accepted p) := inferInstanceAs (Decidable (_ ∧ _))

theorem bigEndianUint16_eq (hi lo : UInt8) (rest : Bytes) :
    bigEndianUint16 (hi :: lo :: rest) = 256 * hi.toNat + lo.toNat := by
  have h := Nat.two_pow_add_eq_or_of_lt (lo.toNat_lt) hi.toNat
  rw [bigEndianUint16, Nat.shiftLeft_eq, Nat.mul_comm, ← h]

/-- the two length bytes of a frame decode to the length, for every 16-bit length -/
theorem bigEndianUint16_length (n : ℕ) (h : n ≤ 65535) (rest : Bytes) :
    bigEndianUint16 (UInt8.ofNat (n / 256) :: UInt8.ofNat (n % 256) :: rest) = n := by
  rw [bigEndianUint16_eq]
  simp only [UInt8.toNat_ofNat']
  omega

theorem readFull_append (p rest : Bytes) : readFull p.length (p ++ rest) = (.ok p, rest) := by
  simp [readFull]

/-- **One frame at the head of a stream.** Whatever the payload contains, its length alone decides: a payload of 1 to
512 bytes is returned, any other is skipped and the scan goes on after it. -/
theorem readFrame_frame (p rest : Bytes) (h : p.length ≤ 65535) :
    readFrame (frameOf p ++ rest) = if Accepted p then (.ok p, rest) else readFrame rest := by
  have hlen : readFull 2 (UInt8.ofNat (p.length / 256) :: UInt8.ofNat (p.length % 256) :: (p ++ rest)) =
      (.ok [UInt8.ofNat (p.length / 256), UInt8.ofNat (p.length % 256)], p ++ rest) := by
    simp [readFull]
  have hbe := bigEndianUint16_length p.length h []
  rw [frameOf, readFrame.eq_def]
  simp only [List.cons_append, List.nil_append, ne_eq, not_true_eq_false, if_false]
  split
  · rename_i heq; rw [hlen] at heq; cases heq
  · rename_i lenBuf s3 heq
    rw [hlen] at heq
    cases heq
    rw [hbe]
    by_cases hbig : p.length > maxFrameSize
    · have hna : ¬ Accepted p := fun ha => by have := ha.2; omega
      simp only [hbig, if_true, hna, if_false]
      split
      · rename_i heq; rw [readFull_append] at heq; cases heq
      · rename_i heq; rw [readFull_append] at heq; cases heq; rfl
    · simp only [hbig, if_false, readFull_append]
      by_cases h0 : p.length = 0
      · have hna : ¬ Accepted p := fun ha => by have := ha.1; omega
        have hp : p = [] := List.eq_nil_of_length_eq_zero h0
        simp [hp, Accepted]
      · have ha : Accepted p := ⟨by omega, by omega⟩
        simp [h0, ha]

theorem readAll_nil : readAll [] = ([], .readingStart1 .eof) := by
  rw [readAll]
  split
  · rename_i h; rw [readFrame] at h; cases h; rfl
  · rename_i h; rw [readFrame] at h; cases h

/-- reading to the end depends only on what the first read returns -/
theorem readAll_of_readFrame_eq {s t : Bytes} (h : readFrame s = readFrame t) : readAll s = readAll t := by
  rw [readAll, readAll]
  split <;> rename_i hs <;> split <;> rename_i ht <;> rw [h, ht] at hs <;> cases hs <;> rfl

theorem readAll_ok {s p rest : Bytes} (h : readFrame s = (.ok p, rest)) :
    readAll s = (p :: (readAll rest).1, (readAll rest).2) := by
  rw [readAll]
  split <;> rename_i hs <;> rw [h] at hs <;> cases hs
  rfl

/-- **A stream of frames read to its end** yields exactly the accepted payloads, in order and unchanged, and then an
end-of-input error. -/
theorem readAll_frames (ps : List Bytes) (h : ∀ p ∈ ps, p.length ≤ 65535) :
    readAll (ps.flatMap frameOf) = (ps.filter (fun p => decide (Accepted p)), .readingStart1 .eof) := by
  induction ps with
  | nil => simp [readAll_nil]
  | cons p ps ih =>
    have ih' := ih fun q hq => h q (List.mem_cons_of_mem p hq)
    have hf := readFrame_frame p (ps.flatMap frameOf) (h p List.mem_cons_self)
    rw [List.flatMap_cons]
    by_cases ha : Accepted p
    · rw [if_pos ha] at hf
      rw [readAll_ok hf, ih']
      simp [ha]
    · rw [if_neg ha] at hf
      rw [readAll_of_readFrame_eq hf, ih']
      simp [ha]

theorem ofNat_shiftRight_eight (n : ℕ) : UInt8.ofNat (n >>> 8) = UInt8.ofNat (n / 256) := by
  rw [Nat.shiftRight_eq_div_pow]

theorem ofNat_mod (n : ℕ) : UInt8.ofNat (n % 256) = UInt8.ofNat n := by
  apply UInt8.toNat_inj.1
  simp

/-- a payload within the limit goes out as its frame -/
theorem writeFrame_frameOf (w : Sink) (p : Bytes) (hw : w.broken = false) (hp : p.length ≤ maxFrameSize) :
    writeFrame w p = (.ok (), { w with out := w.out ++ frameOf p }) := by
  simp only [writeFrame, Nat.not_lt.2 hp, if_false, hw, Bool.false_eq_true, frameOf, ofNat_shiftRight_eight,
    ofNat_mod]

/-- a payload over the limit is refused and nothing is written -/
theorem writeFrame_too_large (w : Sink) (p : Bytes) (hp : maxFrameSize < p.length) :
    writeFrame w p = (.error (.payloadTooLarge p.length), w) := by
  simp [writeFrame, hp]

/-- **Frame stream round trip.** For every list of payloads of at most 65535 bytes, repeated `ReadFrame` on the
concatenation of their frames returns exactly those of 1 to 512 bytes, in order and unchanged, and then fails with an
end-of-input error. `WriteFrame` emits exactly that frame for every payload of at most 512 bytes; for a longer one it
writes nothing and fails. -/
theorem frame_stream_round_trip (ps : List Bytes) (h : ∀ p ∈ ps, p.length ≤ 65535) :
    readAll (ps.flatMap frameOf) =
        (ps.filter (fun p => decide (1 ≤ p.length ∧ p.length ≤ 512)), .readingStart1 .eof) ∧
      ∀ (w : Sink) (p : Bytes),
        (w.broken = false → p.length ≤ 512 →
          writeFrame w p = (.ok (), { w with out := w.out ++ frameOf p })) ∧
        (512 < p.length → writeFrame w p = (.error (.payloadTooLarge p.length), w)) :=
  ⟨readAll_frames ps h, fun w p => ⟨writeFrame_frameOf w p, writeFrame_too_large w p⟩⟩

/-- an empty frame, a frame whose payload holds the magic bytes, and an oversized one -/
def mixedPayloads : List Bytes := [[], [0x94, 0xC3, 0, 1], List.replicate 513 0x94, [7]]

theorem frame_stream_round_trip_mixed :
    (∀ p ∈ mixedPayloads, p.length ≤ 65535) ∧
      readAll (mixedPayloads.flatMap frameOf) = ([[0x94, 0xC3, 0, 1], [7]], .readingStart1 .eof) := by
  have h : ∀ p ∈ mixedPayloads, p.length ≤ 65535 := by decide +kernel
  have hf : mixedPayloads.filter (fun p => decide (1 ≤ p.length ∧ p.length ≤ 512)) =
      [[0x94, 0xC3, 0, 1], [7]] := by decide +kernel
  exact ⟨h, (frame_stream_round_trip _ h).1.trans (by rw [hf])⟩

end MeshProxy.Frame
