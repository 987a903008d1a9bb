/-
Base-128 varints, the integer encoding of protobuf: seven bits a byte, least significant group first, the high bit set
on every byte but the last. On them, and on fixed32 (four bytes, least significant first), the fields of a message: a
tag and a length-delimited content, or a tag and a number, left out when the number is 0.

- `decodeVarint_varint`, `decodeFixed32_fixed32`, `decodeField_field` and so on: decoding what was written, with any bytes
  after it, gives the value and those bytes back.
-/
import Mathlib.Tactic

namespace MeshProxy.Varint

/-- the varint of `n` in at most `k` bytes -/
def varintF : ℕ → ℕ → List UInt8
  | 0, _ => []
  | k + 1, n => if n < 128 then [UInt8.ofNat n] else UInt8.ofNat (n % 128 + 128) :: varintF k (n / 128)

/-- the varint of a number below 2^70 -/
def varint (n : ℕ) : List UInt8 := varintF 10 n

/-- the leading varint of a byte string, and the bytes after it -/
def decodeVarint : List UInt8 → Option (ℕ × List UInt8)
  | [] => none
  | b :: bs =>
    if b.toNat < 128 then some (b.toNat, bs)
    else (decodeVarint bs).map fun r => (b.toNat - 128 + 128 * r.1, r.2)

theorem decodeVarint_varintF (k n : ℕ) (h : n < 128 ^ k) (hk : 0 < k) (rest : List UInt8) :
    decodeVarint (varintF k n ++ rest) = some (n, rest) := by
  induction k generalizing n with
  | zero => omega
  | succ k ih =>
    by_cases hn : n < 128
    · have hb : (UInt8.ofNat n).toNat = n := by simp; omega
      simp [varintF, decodeVarint, hn, hb]
    · have hb : (UInt8.ofNat (n % 128 + 128)).toNat = n % 128 + 128 := by simp; omega
      have hk' : 0 < k := by
        rcases Nat.eq_zero_or_pos k with rfl | hk'
        · simp at h; omega
        · exact hk'
      have hdiv : n / 128 < 128 ^ k := by
        rw [Nat.div_lt_iff_lt_mul (by decide)]
        rwa [pow_succ] at h
      have hge : ¬ n % 128 + 128 < 128 := by omega
      simp only [varintF, hn, if_false, List.cons_append, decodeVarint, hb, hge, ih _ hdiv hk', Option.map_some,
        Option.some.injEq, Prod.mk.injEq, and_true]
      omega

/-- **Round trip**, with any bytes after the varint -/
theorem decodeVarint_varint (n : ℕ) (h : n < 2 ^ 64) (rest : List UInt8) :
    decodeVarint (varint n ++ rest) = some (n, rest) :=
  decodeVarint_varintF 10 n (lt_of_lt_of_le h (by norm_num)) (by decide) rest

/-! ## Fixed32 -/

def fixed32 (x : UInt32) : List UInt8 :=
  [UInt8.ofNat x.toNat, UInt8.ofNat (x.toNat / 256), UInt8.ofNat (x.toNat / 65536), UInt8.ofNat (x.toNat / 16777216)]

def decodeFixed32 : List UInt8 → Option (UInt32 × List UInt8)
  | a :: b :: c :: d :: bs =>
    some (UInt32.ofNat (a.toNat + 256 * b.toNat + 65536 * c.toNat + 16777216 * d.toNat), bs)
  | _ => none

@[simp] theorem decodeFixed32_fixed32 (x : UInt32) (rest : List UInt8) :
    decodeFixed32 (fixed32 x ++ rest) = some (x, rest) := by
  have hx := x.toNat_lt
  have hsum : UInt32.ofNat (x.toNat % 256 + 256 * (x.toNat / 256 % 256) + 65536 * (x.toNat / 65536 % 256) +
      16777216 * (x.toNat / 16777216 % 256)) = x := by
    apply UInt32.toNat_inj.1
    rw [UInt32.toNat_ofNat']
    omega
  simp [fixed32, decodeFixed32, hsum]

/-! ## Fields -/

theorem varint_length_le (n : ℕ) : (varint n).length ≤ 10 := by
  have hF (k n : ℕ) : (varintF k n).length ≤ k := by
    induction k generalizing n with
    | zero => simp [varintF]
    | succ k ih =>
      unfold varintF
      split_ifs
      · simp
      · simpa using ih (n / 128)
  exact hF 10 n

theorem varintF_length_of_lt {j : ℕ} (hj : 0 < j) (k : ℕ) {n : ℕ} (h : n < 128 ^ j) : (varintF k n).length ≤ j := by
  induction j generalizing k n with
  | zero => omega
  | succ j ih =>
    cases k with
    | zero => simp [varintF]
    | succ k =>
      unfold varintF
      split_ifs with hn
      · simp
      · have hdiv : n / 128 < 128 ^ j := Nat.div_lt_of_lt_mul (by rwa [pow_succ'] at h)
        have hj0 : 0 < j := by
          rcases Nat.eq_zero_or_pos j with rfl | hj0
          · omega
          · exact hj0
        simpa using ih hj0 k hdiv

/-- a length-delimited field -/
def field (tag : UInt8) (content : List UInt8) : List UInt8 := tag :: (varint content.length ++ content)

/-- its content, and the bytes after the field -/
def decodeField (tag : UInt8) : List UInt8 → Option (List UInt8 × List UInt8)
  | [] => none
  | t :: bs =>
    if t = tag then
      (decodeVarint bs).bind fun r => if r.1 ≤ r.2.length then some (r.2.take r.1, r.2.drop r.1) else none
    else none

theorem decodeField_field (tag : UInt8) {content : List UInt8} (h : content.length < 2 ^ 64) (rest : List UInt8) :
    decodeField tag (field tag content ++ rest) = some (content, rest) := by
  simp [field, decodeField, decodeVarint_varint _ h]

/-- a fixed32 field, left out when 0 -/
def optFixed32 (tag : UInt8) (x : UInt32) : List UInt8 := if x = 0 then [] else tag :: fixed32 x

def decodeOptFixed32 (tag : UInt8) : List UInt8 → Option (UInt32 × List UInt8)
  | [] => some (0, [])
  | t :: bs => if t = tag then decodeFixed32 bs else some (0, t :: bs)

theorem decodeOptFixed32_append {tag : UInt8} (x : UInt32) {rest : List UInt8} (h : rest.head? ≠ some tag) :
    decodeOptFixed32 tag (optFixed32 tag x ++ rest) = some (x, rest) := by
  by_cases h0 : x = 0
  · subst h0
    cases rest with
    | nil => rfl
    | cons t bs =>
      have ht : t ≠ tag := by simpa using h
      simp [optFixed32, decodeOptFixed32, ht]
  · simp [optFixed32, decodeOptFixed32, h0]

@[simp] theorem decodeOptFixed32_optFixed32 (tag : UInt8) (x : UInt32) :
    decodeOptFixed32 tag (optFixed32 tag x) = some (x, []) := by
  have h : decodeOptFixed32 tag (optFixed32 tag x ++ []) = some (x, []) := decodeOptFixed32_append x (by simp)
  rwa [List.append_nil] at h

/-- a varint field, left out when 0 -/
def optVarint (tag : UInt8) (n : ℕ) : List UInt8 := if n = 0 then [] else tag :: varint n

def decodeOptVarint (tag : UInt8) : List UInt8 → Option (ℕ × List UInt8)
  | [] => some (0, [])
  | t :: bs => if t = tag then decodeVarint bs else some (0, t :: bs)

theorem decodeOptVarint_append {tag : UInt8} {n : ℕ} (hn : n < 2 ^ 64) {rest : List UInt8} (h : rest.head? ≠ some tag) :
    decodeOptVarint tag (optVarint tag n ++ rest) = some (n, rest) := by
  by_cases h0 : n = 0
  · subst h0
    cases rest with
    | nil => rfl
    | cons t bs =>
      have ht : t ≠ tag := by simpa using h
      simp [optVarint, decodeOptVarint, ht]
  · simp [optVarint, decodeOptVarint, h0, decodeVarint_varint _ hn]

end MeshProxy.Varint
