/-
A codec on identities in wire form: NodeInfo messages of any node, heard at any time, whose user has a hw_model and a
public key, and `config_complete_id` messages under any nonce. Packets are read from a table.

It obeys every law of `Codec` and of `Encoding` that a proof about the config cache asks for; witnesses whose frames have
to be long, or whose numbers are not declared, instantiate `Codec` with it.
-/
import MeshProxy.Proto.Encoding

namespace MeshProxy.Proto

open MeshProxy.Varint
open MeshProxy.Frame (Bytes)

/-! ## The wire bytes -/

/-- a user of a hw_model number (field 5) and a public key (field 8) -/
def keyUser (hwModel : ℕ) (key : Bytes) : User := { hwModel := hwModel, publicKey := key }

def keyUserBytes (hwModel : ℕ) (key : Bytes) : Bytes := optVarint 0x28 hwModel ++ field 0x42 key

/-- the sizes a frame can hold, and the numbers an enum can -/
def KeyOk (hwModel : ℕ) (key : Bytes) : Prop := hwModel < 2 ^ 31 ∧ 0 < key.length ∧ key.length < 512

instance (hwModel : ℕ) (key : Bytes) : Decidable (KeyOk hwModel key) := inferInstanceAs (Decidable (_ ∧ _))

def decodeKeyUser (bs : Bytes) : Option User :=
  (decodeOptVarint 0x28 bs).bind fun hwModel =>
    (decodeField 0x42 hwModel.2).bind fun key =>
      if KeyOk hwModel.1 key.1 ∧ key.2 = [] then some (keyUser hwModel.1 key.1) else none

def keyNodeInfo (num : UInt32) (hwModel : ℕ) (key : Bytes) (lastHeard : UInt32) : FromRadio :=
  { variant := .nodeInfo { num := num, user := some (keyUser hwModel key), lastHeard := lastHeard } }

/-- fields 1, 2 and 5 of NodeInfo -/
def keyInfoBytes (num : UInt32) (hwModel : ℕ) (key : Bytes) (lastHeard : UInt32) : Bytes :=
  optVarint 8 num.toNat ++ (field 0x12 (keyUserBytes hwModel key) ++ optFixed32 0x2D lastHeard)

def decodeKeyInfo (bs : Bytes) : Option FromRadio :=
  (decodeOptVarint 8 bs).bind fun num =>
    (decodeField 0x12 num.2).bind fun user =>
      (decodeKeyUser user.1).bind fun u =>
        (decodeOptFixed32 0x2D user.2).bind fun lastHeard =>
          if lastHeard.2 = [] then
            some { variant := .nodeInfo { num := UInt32.ofNat num.1, user := some u, lastHeard := lastHeard.1 } }
          else none

/-- field 4 of FromRadio, or `config_complete_id`, or a packet of the table -/
def identityUnmarshal (packets : List (Bytes × FromRadio)) (b : Bytes) : Option FromRadio :=
  match b with
  | 0x22 :: _ => (decodeField 0x22 b).bind fun r => if r.2 = [] then decodeKeyInfo r.1 else none
  | b => tableUnmarshal packets b

def identityMarshal (m : FromRadio) : Option Bytes :=
  match m.variant with
  | .nodeInfo ni =>
    let user := ni.user.getD {}
    if m = keyNodeInfo ni.num user.hwModel.toNat user.publicKey ni.lastHeard ∧ KeyOk user.hwModel.toNat user.publicKey then
      some (field 0x22 (keyInfoBytes ni.num user.hwModel.toNat user.publicKey ni.lastHeard))
    else none
  | _ => tableMarshal [] m

def identityCodec (packets : List (Bytes × FromRadio)) : Codec :=
  { tableCodec [] [] [] with
    unmarshalFromRadio := identityUnmarshal packets
    marshalFromRadio := identityMarshal
    unmarshalUser := decodeKeyUser }

/-- the NODEINFO_APP packet of a node, as a table entry -/
def identityPacket (sender : UInt32) (user : Bytes) : Bytes × FromRadio :=
  (field 0x12 (0x0D :: (fixed32 sender ++ field 0x22 (8 :: 4 :: field 0x12 user))),
    { variant := .packet { from_ := sender, variant := .decoded { portnum := PortNum.nodeinfoApp, payload := user } } })

/-! ## Sizes -/

def optVarintSize (n : ℕ) : ℕ := if n = 0 then 0 else 1 + varintSize n

theorem optVarint_length (tag : UInt8) (n : ℕ) : (optVarint tag n).length = optVarintSize n := by
  by_cases h0 : n = 0
  · simp [optVarint, optVarintSize, h0]
  · simp only [optVarint, optVarintSize, varintSize, h0, if_false, List.length_cons]
    omega

theorem optVarintSize_le (n : ℕ) : optVarintSize n ≤ 11 := by
  have := varint_length_le n
  unfold optVarintSize varintSize
  split_ifs <;> omega

theorem keyUserBytes_length (hwModel : ℕ) (key : Bytes) :
    (keyUserBytes hwModel key).length = optVarintSize hwModel + fieldSize key.length := by
  rw [keyUserBytes, List.length_append, optVarint_length, field_length]

theorem keyInfoBytes_length (num : UInt32) (hwModel : ℕ) (key : Bytes) (lastHeard : UInt32) :
    (keyInfoBytes num hwModel key lastHeard).length =
      optVarintSize num.toNat + fieldSize (optVarintSize hwModel + fieldSize key.length) + fixed32Size lastHeard := by
  rw [keyInfoBytes, List.length_append, List.length_append, optVarint_length, field_length, optFixed32_length,
    keyUserBytes_length, Nat.add_assoc]

theorem keyUserBytes_length_le {hwModel : ℕ} {key : Bytes} (h : KeyOk hwModel key) :
    (keyUserBytes hwModel key).length ≤ 534 := by
  have h1 := optVarintSize_le hwModel
  have h2 := fieldSize_le key.length
  have h3 := h.2.2
  rw [keyUserBytes_length]
  omega

theorem keyInfoBytes_length_lt {hwModel : ℕ} {key : Bytes} (h : KeyOk hwModel key) (num lastHeard : UInt32) :
    (keyInfoBytes num hwModel key lastHeard).length < 2 ^ 64 := by
  have h1 := optVarintSize_le num.toNat
  have h2 := keyUserBytes_length_le h
  have h3 := fieldSize_le (optVarintSize hwModel + fieldSize key.length)
  have h4 := fixed32Size_le lastHeard
  rw [keyUserBytes_length] at h2
  rw [keyInfoBytes_length]
  omega

/-! ## Round trips -/

theorem decodeKeyUser_bytes {hwModel : ℕ} {key : Bytes} (h : KeyOk hwModel key) :
    decodeKeyUser (keyUserBytes hwModel key) = some (keyUser hwModel key) := by
  have hhw : decodeOptVarint 0x28 (keyUserBytes hwModel key) = some (hwModel, field 0x42 key) :=
    decodeOptVarint_append (lt_trans h.1 (by norm_num)) (by simp [field])
  have hkey := decodeField_field 0x42 (lt_trans h.2.2 (by norm_num)) []
  rw [List.append_nil] at hkey
  simp [decodeKeyUser, hhw, hkey, h]

/-- a decoded user is one that can be encoded -/
theorem decodeKeyUser_some {bs : Bytes} {u : User} (h : decodeKeyUser bs = some u) :
    KeyOk u.hwModel.toNat u.publicKey ∧ u = keyUser u.hwModel.toNat u.publicKey := by
  obtain ⟨hwModel, -, hu⟩ := Option.bind_eq_some_iff.1 h
  obtain ⟨key, -, hu⟩ := Option.bind_eq_some_iff.1 hu
  split_ifs at hu with hok
  cases hu
  exact ⟨hok.1, rfl⟩

theorem decodeKeyInfo_bytes {hwModel : ℕ} {key : Bytes} (h : KeyOk hwModel key) (num lastHeard : UInt32) :
    decodeKeyInfo (keyInfoBytes num hwModel key lastHeard) = some (keyNodeInfo num hwModel key lastHeard) := by
  have hnum : decodeOptVarint 8 (keyInfoBytes num hwModel key lastHeard) =
      some (num.toNat, field 0x12 (keyUserBytes hwModel key) ++ optFixed32 0x2D lastHeard) :=
    decodeOptVarint_append (lt_trans num.toNat_lt (by norm_num)) (by simp [field])
  have hlen : (keyUserBytes hwModel key).length < 2 ^ 64 := lt_of_le_of_lt (keyUserBytes_length_le h) (by norm_num)
  simp [decodeKeyInfo, hnum, decodeField_field 0x12 hlen, decodeKeyUser_bytes h, keyNodeInfo]

/-- a decoded NodeInfo message is one that can be encoded -/
theorem decodeKeyInfo_some {bs : Bytes} {m : FromRadio} (h : decodeKeyInfo bs = some m) :
    ∃ num hwModel key lastHeard, KeyOk hwModel key ∧ m = keyNodeInfo num hwModel key lastHeard := by
  obtain ⟨num, -, hm⟩ := Option.bind_eq_some_iff.1 h
  obtain ⟨user, -, hm⟩ := Option.bind_eq_some_iff.1 hm
  obtain ⟨u, hu, hm⟩ := Option.bind_eq_some_iff.1 hm
  obtain ⟨lastHeard, -, hm⟩ := Option.bind_eq_some_iff.1 hm
  obtain ⟨hok, hkey⟩ := decodeKeyUser_some hu
  split_ifs at hm
  cases hm
  exact ⟨UInt32.ofNat num.1, _, _, lastHeard.1, hok, by rw [keyNodeInfo, ← hkey]⟩

theorem identityMarshal_keyNodeInfo {hwModel : ℕ} {key : Bytes} (h : KeyOk hwModel key) (num lastHeard : UInt32) :
    identityMarshal (keyNodeInfo num hwModel key lastHeard) =
      some (field 0x22 (keyInfoBytes num hwModel key lastHeard)) := if_pos ⟨rfl, h⟩

/-- what is encoded is a NodeInfo message with such a user, or a `config_complete_id` -/
theorem identityCodec_marshal {packets : List (Bytes × FromRadio)} {m : FromRadio} {b : Bytes}
    (h : (identityCodec packets).marshalFromRadio m = some b) :
    (∃ num hwModel key lastHeard, KeyOk hwModel key ∧ m = keyNodeInfo num hwModel key lastHeard ∧
      b = field 0x22 (keyInfoBytes num hwModel key lastHeard)) ∨
    ∃ n, m = { variant := .configCompleteId n } ∧ b = configCompleteBytes n := by
  simp only [identityCodec] at h
  unfold identityMarshal at h
  split at h
  · dsimp only at h
    split_ifs at h with hm
    cases h
    exact .inl ⟨_, _, _, _, hm.2, hm.1, rfl⟩
  · unfold tableMarshal at h
    split at h
    · rename_i n _
      split_ifs at h with hm
      cases h
      exact .inr ⟨n, hm, rfl⟩
    · cases h

variable (packets : List (Bytes × FromRadio))

theorem identityUnmarshal_keyNodeInfo {hwModel : ℕ} {key : Bytes} (h : KeyOk hwModel key) (num lastHeard : UInt32) :
    identityUnmarshal packets (field 0x22 (keyInfoBytes num hwModel key lastHeard)) =
      some (keyNodeInfo num hwModel key lastHeard) := by
  have hfield := decodeField_field 0x22 (keyInfoBytes_length_lt h num lastHeard) []
  rw [List.append_nil] at hfield
  have hdec : (decodeField 0x22 (field 0x22 (keyInfoBytes num hwModel key lastHeard))).bind
      (fun r => if r.2 = [] then decodeKeyInfo r.1 else none) = some (keyNodeInfo num hwModel key lastHeard) := by
    simp [hfield, decodeKeyInfo_bytes h]
  exact hdec

theorem identityCodec_roundTrip : (identityCodec packets).RoundTrip := by
  intro m b hb
  rcases identityCodec_marshal hb with ⟨num, hwModel, key, lastHeard, hok, rfl, rfl⟩ | ⟨n, rfl, rfl⟩
  · exact identityUnmarshal_keyNodeInfo packets hok num lastHeard
  · exact tableUnmarshal_configComplete packets n

/-- a NodeInfo message that decodes is one that can be encoded, unless it is in the table -/
theorem identityUnmarshal_nodeInfo {packets : List (Bytes × FromRadio)}
    (hpackets : ∀ e ∈ packets, ∀ ni, e.2.variant ≠ .nodeInfo ni) {raw : Bytes} {m : FromRadio} {ni : NodeInfo}
    (h : identityUnmarshal packets raw = some m) (hm : m.variant = .nodeInfo ni) :
    ∃ num hwModel key lastHeard, KeyOk hwModel key ∧ m = keyNodeInfo num hwModel key lastHeard := by
  unfold identityUnmarshal at h
  split at h
  · obtain ⟨r, -, hr⟩ := Option.bind_eq_some_iff.1 h
    split_ifs at hr
    exact decodeKeyInfo_some hr
  · exact absurd hm (hpackets _ (tableUnmarshal_nodeInfo h hm) ni)

/-! ## The laws -/

theorem identityCodec_encodesUsers : (identityCodec packets).EncodesUsers := by
  intro raw u hu num lastHeard hwModel role
  obtain ⟨hok, hkey⟩ := decodeKeyUser_some hu
  have hok0 : KeyOk 0 u.publicKey := ⟨by norm_num, hok.2⟩
  refine ⟨field 0x22 (keyInfoBytes num 0 u.publicKey lastHeard), ?_⟩
  rw [hkey]
  exact identityMarshal_keyNodeInfo hok0 num lastHeard

theorem identityCodec_userLaw (hpackets : ∀ e ∈ packets, ∀ ni, e.2.variant ≠ .nodeInfo ni) :
    (identityCodec packets).UserLaw := by
  intro raw m old n u t b v hraw hm hb hv hunmessagable hrest
  obtain ⟨num, hwModel, key, lastHeard, -, rfl⟩ := identityUnmarshal_nodeInfo hpackets hraw hm
  cases hm
  have hnone : v.isUnmessagable = none ∧ v.rest = [] ∧ ∃ hwModel key, KeyOk hwModel key ∧ u = keyUser hwModel key := by
    rcases identityCodec_marshal hb with ⟨num', hwModel', key', lastHeard', hok, hbuilt, -⟩ | ⟨k, hbuilt, -⟩
    · cases hbuilt
      refine ⟨?_, hrest, hwModel', key', hok, rfl⟩
      rcases hunmessagable with h | h
      · exact h
      · exact h
    · cases hbuilt
  obtain ⟨hu, hr, hwModel', key', hok, rfl⟩ := hnone
  have hvu : v = keyUser hwModel' key' := by
    rw [← hv]
    cases v
    cases hu
    cases hr
    rfl
  rw [hvu]
  exact ⟨_, identityMarshal_keyNodeInfo hok num t⟩

theorem identityCodec_nonceLaw (hpackets : ∀ e ∈ packets, ∀ k, e.2.variant ≠ .configCompleteId k) :
    (identityCodec packets).NonceLaw := by
  intro raw m k n hraw hm
  have hbare : m = { variant := .configCompleteId k } := by
    have htable : tableUnmarshal packets raw = some m := by
      simp only [identityCodec] at hraw
      unfold identityUnmarshal at hraw
      split at hraw
      · obtain ⟨r, -, hr⟩ := Option.bind_eq_some_iff.1 hraw
        split_ifs at hr
        obtain ⟨num, hwModel, key, lastHeard, -, rfl⟩ := decodeKeyInfo_some hr
        cases hm
      · exact hraw
    unfold tableUnmarshal at htable
    split at htable
    · split at htable
      · cases htable
        cases hm
        rfl
      · cases htable
    · obtain ⟨l₁, l₂, hl, -⟩ := List.lookup_eq_some_iff.1 htable
      exact absurd hm (hpackets (raw, m) (by simp [hl]) k)
  subst hbare
  exact ⟨configCompleteBytes n, by simp [identityCodec, identityMarshal, tableMarshal],
    tableUnmarshal_configComplete packets n⟩

/-- an enum that declares 0 alone -/
theorem zeroDeclared (name : String) : EnumTable (fun n => if n = 0 then name else toString n) (fun _ => 0)
    (fun n => if n = 0 then some name else none) where
  string_eq := by
    intro n
    by_cases h0 : n = 0 <;> simp [h0]
  value_declared := by
    intro n name' hn
    by_cases h0 : n = 0
    · exact h0.symm
    · simp [h0] at hn
  value_numeral _ := rfl
  zero_declared := rfl

theorem identityCodec_hwModel : EnumTable (identityCodec packets).hwModelString (identityCodec packets).hwModelValue
    fun n => if n = 0 then some "UNSET" else none := zeroDeclared "UNSET"

theorem identityCodec_role : EnumTable (identityCodec packets).roleString (identityCodec packets).roleValue
    fun n => if n = 0 then some "CLIENT" else none := zeroDeclared "CLIENT"

def identitySizes : NodeSizes where
  envelope _ _ := 0
  info ni := optVarintSize ni.num.toNat
  user u := optVarintSize u.hwModel.toNat + fieldSize u.publicKey.length

theorem identityCodec_nodeInfoSize : NodeInfoSize (identityCodec packets) identitySizes where
  nodeInfo := by
    intro id ni rest b hb
    rcases identityCodec_marshal hb with ⟨num, hwModel, key, lastHeard, hok, hm, rfl⟩ | ⟨n, hm, -⟩
    · cases hm
      rw [field_length, keyInfoBytes_length]
      simp [NodeSizes.infoSize, NodeSizes.userSize, identitySizes, keyUser]
    · cases hm
  complete := by
    intro id n rest b hb
    rcases identityCodec_marshal hb with ⟨num, hwModel, key, lastHeard, hok, hm, -⟩ | ⟨n, hm, rfl⟩
    · cases hm
    · cases hm
      simp [configCompleteBytes, identitySizes, varintSize, Nat.add_comm]

end MeshProxy.Proto
