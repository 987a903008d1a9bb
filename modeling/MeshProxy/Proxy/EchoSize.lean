/-
The size of an echo (`internal/proxy/proxy.go`: echoToOtherClients, toRadioToFromRadio).

A client's packet goes to the other clients, and into the chat cache, as a FromRadio message. It keeps its fields, but a
sender and a receive time that the client left 0 are filled in, and each takes five bytes that the client's frame did
not have. A frame longer than `maxFrameSize` is refused by `WriteFrame`, which ends the write loop of every peer.

- `echo_fits_iff`: the echo is faithful always, and fits exactly when the packet leaves room for what is filled in.
Premises: `Codec.PacketLaw`, `PacketSize`.
-/
import MeshProxy.Proto.Encoding
import MeshProxy.Proxy.ChatCache

namespace MeshProxy.EchoSize

open MeshProxy.Proto MeshProxy.ChatCache MeshProxy.Varint
open MeshProxy.Frame (Bytes maxFrameSize)

/-! ## The echo -/

/-- the packet with the sender and the receive time that the client left 0 -/
def stamp (nodeNum now : UInt32) (pkt : MeshPacket) : MeshPacket :=
  { pkt with
    from_ := if pkt.from_ = 0 ∧ nodeNum ≠ 0 then nodeNum else pkt.from_
    rxTime := if pkt.rxTime = 0 then now else pkt.rxTime }

/-- the bytes they take -/
def stampSize (nodeNum now : UInt32) (pkt : MeshPacket) : ℕ :=
  (if pkt.from_ = 0 then fixed32Size nodeNum else 0) + (if pkt.rxTime = 0 then fixed32Size now else 0)

variable {pb : Codec} {size : MeshPacket → ℕ}

theorem size_stamp (hsize : PacketSize pb size) (nodeNum now : UInt32) (pkt : MeshPacket) :
    size (stamp nodeNum now pkt) = size pkt + stampSize nodeNum now pkt := by
  have hfrom : fixed32Size (stamp nodeNum now pkt).from_ =
      fixed32Size pkt.from_ + if pkt.from_ = 0 then fixed32Size nodeNum else 0 := by
    by_cases h0 : pkt.from_ = 0 <;> by_cases hn : nodeNum = 0 <;> simp [stamp, fixed32Size, h0, hn]
  have hrx : fixed32Size (stamp nodeNum now pkt).rxTime =
      fixed32Size pkt.rxTime + if pkt.rxTime = 0 then fixed32Size now else 0 := by
    by_cases h0 : pkt.rxTime = 0 <;> simp [stamp, fixed32Size, h0]
  have hbare : ({ stamp nodeNum now pkt with from_ := 0, rxTime := 0 } : MeshPacket) =
      { pkt with from_ := 0, rxTime := 0 } := rfl
  rw [hsize.stamped, hsize.stamped pkt, hbare, hfrom, hrx, stampSize]
  omega

/-- both functions build the frame of the stamped packet -/
theorem meshPacketFrame_stamp (hlaw : pb.PacketLaw) {payload : Bytes} {pkt : MeshPacket} {rest : Bytes}
    (hu : pb.unmarshalToRadio payload = some ⟨.packet pkt, rest⟩) (nodeNum now : UInt32) :
    ∃ b, meshPacketFrame pb nodeNum now payload = some b ∧
      pb.marshalFromRadio { variant := .packet (stamp nodeNum now pkt) } = some b ∧
      pb.unmarshalFromRadio b = some { variant := .packet (stamp nodeNum now pkt) } := by
  obtain ⟨b, hb, hdec⟩ := hlaw payload pkt rest (stamp nodeNum now pkt).from_ (stamp nodeNum now pkt).rxTime hu
  refine ⟨b, ?_, hb, hdec⟩
  simp only [meshPacketFrame, hu]
  exact hb

/-- **The echo.** For every client packet, node number and clock value, the frame that is echoed and the frame that is
cached fit and decode to the stamped packet exactly when the packet's own bytes and the bytes of what is filled in come
to at most 509. -/
theorem echo_fits_iff (hlaw : pb.PacketLaw) (hsize : PacketSize pb size) (payload : Bytes) (pkt : MeshPacket)
    (rest : Bytes) (hu : pb.unmarshalToRadio payload = some ⟨.packet pkt, rest⟩) (nodeNum now : UInt32) :
    (∃ b, echoFrame pb nodeNum now payload = some b ∧ toRadioToFromRadio pb nodeNum now payload = some b ∧
      b.length ≤ maxFrameSize ∧ pb.unmarshalFromRadio b = some { variant := .packet (stamp nodeNum now pkt) }) ↔
    size pkt + stampSize nodeNum now pkt ≤ 509 := by
  obtain ⟨b, hframe, hb, hdec⟩ := meshPacketFrame_stamp hlaw hu nodeNum now
  have hlen : b.length = fieldSize (size pkt + stampSize nodeNum now pkt) := by
    rw [hsize.frame _ b hb, size_stamp hsize]
  have hfits : b.length ≤ maxFrameSize ↔ size pkt + stampSize nodeNum now pkt ≤ 509 := by
    rw [hlen]
    exact fieldSize_le_iff
  constructor
  · rintro ⟨b', hb', -, hle, -⟩
    obtain rfl : b = b' := Option.some.inj (hframe.symm.trans hb')
    exact hfits.1 hle
  · intro hle
    exact ⟨b, hframe, hframe, hfits.2 hle, hdec⟩

/-! ### Text messages of any length -/

/-- text message 7, to nobody in particular -/
def textPacket (text : Bytes) (sender rxTime : UInt32) : MeshPacket :=
  { from_ := sender, id := 7, rxTime := rxTime, variant := .decoded { portnum := 1, payload := text } }

def packetText (pkt : MeshPacket) : Bytes :=
  match pkt.variant with
  | .decoded d => d.payload
  | _ => []

/-- the fields `decoded` and `id` -/
def textFields (text : Bytes) : Bytes := field 0x22 (8 :: 1 :: field 0x12 text) ++ [0x35, 7, 0, 0, 0]

def packetBytes (text : Bytes) (sender rxTime : UInt32) : Bytes :=
  optFixed32 0x0D sender ++ (textFields text ++ optFixed32 0x3D rxTime)

/-- the text in the fields `decoded` and `id`, and the bytes after them -/
def decodeTextFields (bs : Bytes) : Option (Bytes × Bytes) :=
  (decodeField 0x22 bs).bind fun data =>
    match data with
    | (8 :: 1 :: d, 0x35 :: 7 :: 0 :: 0 :: 0 :: bs) => (decodeField 0x12 d).map fun text => (text.1, bs)
    | _ => none

/-- a packet with a text that a frame can hold -/
def decodePacket (bs : Bytes) : Option MeshPacket :=
  (decodeOptFixed32 0x0D bs).bind fun sender =>
    (decodeTextFields sender.2).bind fun text =>
      (decodeOptFixed32 0x3D text.2).bind fun rxTime =>
        if text.1.length < 512 ∧ rxTime.2 = [] then some (textPacket text.1 sender.1 rxTime.1) else none

/-- a codec on text messages: field 1 of ToRadio, field 2 of FromRadio -/
def textCodec : Codec :=
  { tableCodec [] [] [] with
    unmarshalFromRadio := fun b =>
      (decodeField 0x12 b).bind fun r => (decodePacket r.1).map fun pkt => { variant := .packet pkt }
    marshalFromRadio := fun m =>
      match m.variant with
      | .packet pkt =>
        if m = { variant := .packet (textPacket (packetText pkt) pkt.from_ pkt.rxTime) } ∧ (packetText pkt).length < 512 then
          some (field 0x12 (packetBytes (packetText pkt) pkt.from_ pkt.rxTime))
        else none
      | _ => none
    unmarshalToRadio := fun b =>
      (decodeField 0x0A b).bind fun r => (decodePacket r.1).map fun pkt => { variant := .packet pkt } }

theorem decodeTextFields_append {text : Bytes} (h : text.length < 512) (rest : Bytes) :
    decodeTextFields (textFields text ++ rest) = some (text, rest) := by
  have hlen : (8 :: 1 :: field 0x12 text).length < 2 ^ 64 := by
    have := fieldSize_le text.length
    rw [List.length_cons, List.length_cons, field_length]
    omega
  have htext := decodeField_field 0x12 (lt_trans h (by norm_num)) []
  rw [List.append_nil] at htext
  rw [decodeTextFields, textFields, List.append_assoc, decodeField_field 0x22 hlen, Option.bind_some]
  simp [htext]

theorem packetBytes_length (text : Bytes) (sender rxTime : UInt32) :
    (packetBytes text sender rxTime).length = (textFields text).length + fixed32Size sender + fixed32Size rxTime := by
  simp only [packetBytes, List.length_append, optFixed32_length]
  omega

theorem packetBytes_length_lt {text : Bytes} (h : text.length < 512) (sender rxTime : UInt32) :
    (packetBytes text sender rxTime).length < 2 ^ 64 := by
  have h1 := fieldSize_le text.length
  have h2 := fieldSize_le (8 :: 1 :: field 0x12 text).length
  have h3 := fixed32Size_le sender
  have h4 := fixed32Size_le rxTime
  rw [packetBytes_length]
  simp only [textFields, List.length_append, field_length, List.length_cons, List.length_nil] at h2 ⊢
  omega

theorem decodePacket_packetBytes {text : Bytes} (h : text.length < 512) (sender rxTime : UInt32) :
    decodePacket (packetBytes text sender rxTime) = some (textPacket text sender rxTime) := by
  have hsender : decodeOptFixed32 0x0D (packetBytes text sender rxTime) =
      some (sender, textFields text ++ optFixed32 0x3D rxTime) := decodeOptFixed32_append sender (by simp [textFields, field])
  simp [decodePacket, hsender, decodeTextFields_append h, h]

/-- a decoded packet is a text message that a frame can hold -/
theorem decodePacket_some {bs : Bytes} {pkt : MeshPacket} (h : decodePacket bs = some pkt) :
    (packetText pkt).length < 512 ∧ pkt = textPacket (packetText pkt) pkt.from_ pkt.rxTime := by
  obtain ⟨sender, -, hpkt⟩ := Option.bind_eq_some_iff.1 h
  obtain ⟨text, -, hpkt⟩ := Option.bind_eq_some_iff.1 hpkt
  obtain ⟨rxTime, -, hpkt⟩ := Option.bind_eq_some_iff.1 hpkt
  split_ifs at hpkt with hlen
  cases hpkt
  exact ⟨hlen.1, rfl⟩

theorem textCodec_packetLaw : textCodec.PacketLaw := by
  intro raw pkt rest sender rxTime hu
  obtain ⟨r, -, hr⟩ := Option.bind_eq_some_iff.1 hu
  obtain ⟨pkt', hpkt, hmsg⟩ := Option.map_eq_some_iff.1 hr
  obtain rfl : pkt' = pkt := by simpa using (ToRadio.mk.inj hmsg).1
  obtain ⟨hlen, htext⟩ := decodePacket_some hpkt
  have hstamped : ({ pkt' with from_ := sender, rxTime := rxTime } : MeshPacket) =
      textPacket (packetText pkt') sender rxTime := by
    rw [htext]
    rfl
  rw [hstamped]
  refine ⟨field 0x12 (packetBytes (packetText pkt') sender rxTime), if_pos ⟨rfl, hlen⟩, ?_⟩
  have hfield := decodeField_field 0x12 (packetBytes_length_lt hlen sender rxTime) []
  rw [List.append_nil] at hfield
  simp only [textCodec, hfield, Option.bind_some, decodePacket_packetBytes hlen, Option.map_some]

/-- the size of a text message -/
def textSize (pkt : MeshPacket) : ℕ :=
  (textFields (packetText pkt)).length + fixed32Size pkt.from_ + fixed32Size pkt.rxTime

theorem textCodec_packetSize : PacketSize textCodec textSize where
  frame := by
    intro pkt b hb
    simp only [textCodec] at hb
    split_ifs at hb
    cases hb
    rw [field_length, packetBytes_length, textSize]
  stamped := by
    intro pkt
    simp [textSize, fixed32Size, packetText]

def hiFrame : Bytes := field 0x0A (packetBytes [104, 105] 0 0)

/-- "hi" is echoed -/
theorem echo_fits_hi :
    ∃ b, echoFrame textCodec 9 100 hiFrame = some b ∧
      toRadioToFromRadio textCodec 9 100 hiFrame = some b ∧ b.length ≤ maxFrameSize ∧
      textCodec.unmarshalFromRadio b = some { variant := .packet (stamp 9 100 (textPacket [104, 105] 0 0)) } :=
  (echo_fits_iff textCodec_packetLaw textCodec_packetSize hiFrame (textPacket [104, 105] 0 0) []
    (by decide +kernel) 9 100).2 (by decide +kernel)

/-- the longest text whose ToRadio frame can be read -/
def longText : Bytes := List.replicate 496 97

def longFrame : Bytes := field 0x0A (packetBytes longText 0 0)

/-- its frame has 512 bytes, the echo has 522 -/
theorem echo_too_long :
    longFrame.length = maxFrameSize ∧
    textCodec.unmarshalToRadio longFrame = some { variant := .packet (textPacket longText 0 0) } ∧
    (echoFrame textCodec 9 100 longFrame).map List.length = some 522 ∧
    ¬ ∃ b, echoFrame textCodec 9 100 longFrame = some b ∧ b.length ≤ maxFrameSize := by
  have hecho : (echoFrame textCodec 9 100 longFrame).map List.length = some 522 := by
    decide +kernel
  refine ⟨by decide +kernel, by decide +kernel, hecho, ?_⟩
  rintro ⟨b, hb, hle⟩
  have hlen : b.length = 522 := by simpa [hb] using hecho
  rw [hlen] at hle
  exact absurd hle (by decide)

end MeshProxy.EchoSize
