/-
What the standard proto3 encoding promises about the messages the proxy builds, as named premises on a `Codec`.

- `Codec.UserLaw`, `Codec.EncodesUsers`: encoding does not fail where a decoded message only gets another user, or a
  decoded user is put into a NodeInfo message (a proto3 encoder fails on strings that are not UTF-8 and on nothing else
  the program can bring about);
- `EnumTable`: the String method of an enum gives the declared name of a known number and the decimal numeral of any
  other, and the `_value` map holds declared names only;
- `PacketSize`, `NodeInfoSize`: encoded sizes, field by field, with unknown fields kept byte for byte.

`EnumTable.value_string`: a number comes back from its text exactly when it is declared.
-/
import MeshProxy.Proto.Messages

namespace MeshProxy.Proto

open MeshProxy.Varint
open MeshProxy.Frame (Bytes)

/-! ## Encoding again -/

/-- a decoded NodeInfo message can be encoded with a user whose fields can be encoded, over the unknown fields of the
user it had -/
def Codec.UserLaw (pb : Codec) : Prop :=
  ∀ raw m old n u t b v, pb.unmarshalFromRadio raw = some m → m.variant = .nodeInfo old →
    pb.marshalFromRadio { variant := .nodeInfo { num := n, user := some u, lastHeard := t } } = some b →
    { v with isUnmessagable := u.isUnmessagable, rest := u.rest } = u →
    (v.isUnmessagable = u.isUnmessagable ∨ v.isUnmessagable = (old.user.getD {}).isUnmessagable) →
    v.rest = (old.user.getD {}).rest →
    ∃ b', pb.marshalFromRadio { m with variant := .nodeInfo { old with user := some v, lastHeard := t } } = some b'

/-- a decoded user can be encoded in a NodeInfo message, without its unknown fields and with enum numbers from the
`_value` maps -/
def Codec.EncodesUsers (pb : Codec) : Prop :=
  ∀ raw u, pb.unmarshalUser raw = some u → ∀ n t hwModel role,
    ∃ b, pb.marshalFromRadio { variant := .nodeInfo {
      num := n
      user := some { u with hwModel := pb.hwModelValue hwModel, role := pb.roleValue role, rest := [] }
      lastHeard := t } } = some b

theorem tableUnmarshal_nodeInfo {table : List (Bytes × FromRadio)} {raw : Bytes} {m : FromRadio} {ni : NodeInfo}
    (h : tableUnmarshal table raw = some m) (hm : m.variant = .nodeInfo ni) : (raw, m) ∈ table := by
  unfold tableUnmarshal at h
  split at h
  · split at h
    · cases h
      cases hm
    · cases h
  · obtain ⟨l₁, l₂, htable, -⟩ := List.lookup_eq_some_iff.1 h
    simp [htable]

/-! ## Enumerations -/

/-- an enum's String method and `_value` map, over the names it declares; a proto3 enum declares 0 -/
structure EnumTable (string : ℤ → String) (value : String → ℤ) (names : ℤ → Option String) : Prop where
  string_eq : ∀ n, string n = (names n).getD (toString n)
  value_declared : ∀ n name, names n = some name → value name = n
  value_numeral : ∀ n : ℤ, value (toString n) = 0
  zero_declared : (names 0).isSome

/-- a number survives its text exactly when it is declared; any other comes back as 0 -/
theorem EnumTable.value_string {string : ℤ → String} {value : String → ℤ} {names : ℤ → Option String}
    (h : EnumTable string value names) (n : ℤ) : value (string n) = n ↔ (names n).isSome := by
  rw [h.string_eq]
  cases hn : names n with
  | some name => simp [h.value_declared n name hn]
  | none =>
    have hne : n ≠ 0 := by
      rintro rfl
      have h0 := h.zero_declared
      rw [hn] at h0
      cases h0
    rw [Option.getD_none, h.value_numeral]
    simpa using hne.symm

/-! ## Sizes -/

/-- the bytes of a varint -/
def varintSize (n : ℕ) : ℕ := (varint n).length

/-- the bytes of a length-delimited field with a one-byte tag and a content of `n` bytes -/
def fieldSize (n : ℕ) : ℕ := 1 + varintSize n + n

/-- the bytes of a fixed32 field with a one-byte tag, omitted when 0 -/
def fixed32Size (x : UInt32) : ℕ := if x = 0 then 0 else 5

theorem varintSize_of_lt {n : ℕ} (h : n < 2 ^ 21) :
    varintSize n = if n < 128 then 1 else if n < 16384 then 2 else 3 := by
  have h2 : n / 128 / 128 < 128 := by omega
  unfold varintSize varint
  by_cases h0 : n < 128
  · simp [varintF, h0]
  · by_cases h1 : n / 128 < 128
    · have h1' : n < 16384 := by omega
      simp [varintF, h0, h1, h1']
    · have h1' : ¬ n < 16384 := by omega
      simp [varintF, h0, h1, h1', h2]

theorem varintSize_pos (n : ℕ) : 1 ≤ varintSize n := by
  unfold varintSize varint varintF
  split_ifs <;> simp

/-- what fits behind a tag and a length in a frame -/
theorem fieldSize_le_iff {n : ℕ} : fieldSize n ≤ 512 ↔ n ≤ 509 := by
  unfold fieldSize
  by_cases h : n < 2 ^ 21
  · rw [varintSize_of_lt h]
    split_ifs <;> omega
  · have := varintSize_pos n
    omega

theorem field_length (tag : UInt8) (content : Bytes) : (field tag content).length = fieldSize content.length := by
  simp only [field, fieldSize, varintSize, List.length_cons, List.length_append]
  omega

theorem fieldSize_le (n : ℕ) : fieldSize n ≤ n + 11 := by
  have := varint_length_le n
  simp only [fieldSize, varintSize]
  omega

theorem optFixed32_length (tag : UInt8) (x : UInt32) : (optFixed32 tag x).length = fixed32Size x := by
  by_cases h0 : x = 0 <;> simp [optFixed32, fixed32Size, h0, fixed32]

theorem fixed32Size_le (x : UInt32) : fixed32Size x ≤ 5 := by
  unfold fixed32Size
  split_ifs <;> omega

/-- `size` is the encoded size of a MeshPacket: it stands in a FromRadio message as a field of that many bytes, and
`from` and `rx_time` are fixed32 fields -/
structure PacketSize (pb : Codec) (size : MeshPacket → ℕ) : Prop where
  frame : ∀ p b, pb.marshalFromRadio { variant := .packet p } = some b → b.length = fieldSize (size p)
  stamped : ∀ p, size p = size { p with from_ := 0, rxTime := 0 } + fixed32Size p.from_ + fixed32Size p.rxTime

/-- the sizes of what stands around and inside a NodeInfo: the other fields of a FromRadio message, a NodeInfo without
its user and its `last_heard`, a user without `is_unmessagable` and unknown fields -/
structure NodeSizes where
  envelope : UInt32 → Bytes → ℕ
  info : NodeInfo → ℕ
  user : User → ℕ

namespace NodeSizes

variable (sz : NodeSizes)

/-- a whole user: `is_unmessagable` is an optional bool, unknown fields are kept byte for byte -/
def userSize (u : User) : ℕ :=
  sz.user { u with isUnmessagable := none, rest := [] } + (if u.isUnmessagable.isSome then 2 else 0) + u.rest.length

/-- a whole NodeInfo: `last_heard` is a fixed32 field -/
def infoSize (ni : NodeInfo) : ℕ :=
  sz.info { ni with user := none, lastHeard := 0 } + (ni.user.elim 0 fun u => fieldSize (sz.userSize u)) +
    fixed32Size ni.lastHeard

end NodeSizes

/-- `sz` are the encoded sizes of NodeInfo and config_complete_id messages -/
structure NodeInfoSize (pb : Codec) (sz : NodeSizes) : Prop where
  nodeInfo : ∀ id ni rest b, pb.marshalFromRadio ⟨id, .nodeInfo ni, rest⟩ = some b →
    b.length = sz.envelope id rest + fieldSize (sz.infoSize ni)
  complete : ∀ id n rest b, pb.marshalFromRadio ⟨id, .configCompleteId n, rest⟩ = some b →
    b.length = sz.envelope id rest + 1 + varintSize n.toNat

end MeshProxy.Proto
