/-
The Telegram message of a mesh chat message (`internal/telegram/format.go`). Go strings are bytes: a text from the mesh
need not be UTF-8. `html.EscapeString`, `%d`, `%08x` and `%.1f` are modelled as the Go library documents them.

- `tokens_format`: split at its tags, the message is b, i and code, each opened and closed once, around the escaped name,
  channel and node id, with the escaped text between the newlines;
- `format_structure`: so the name, the text and the id are recovered, and messages that format alike have them alike.
Premise: `unescape` undoes EscapeString, as `html.UnescapeString` does.
-/
import MeshProxy.Core.Binary32
import MeshProxy.Core.GoMap
import MeshProxy.Core.TagSplit
import MeshProxy.Protocol.Frame

namespace MeshProxy.Telegram

open MeshProxy.Binary32 MeshProxy.TagSplit
open MeshProxy.Frame (Bytes)

/-! ## The library's part -/

/-- the bytes of a literal -/
def utf8 (s : String) : Bytes := s.toList.flatMap String.utf8EncodeChar

/-- one byte of `html.EscapeString` -/
def escapeByte (c : UInt8) : Bytes :=
  if c = 0x26 then utf8 "&amp;"
  else if c = 0x27 then utf8 "&#39;"
  else if c = 0x3C then utf8 "&lt;"
  else if c = 0x3E then utf8 "&gt;"
  else if c = 0x22 then utf8 "&#34;"
  else [c]

/-- `html.EscapeString` -/
def escapeString (s : Bytes) : Bytes := s.flatMap escapeByte

/-- a digit in base 16, or 10 -/
def digit (d : ℕ) : UInt8 := if d < 10 then 0x30 + UInt8.ofNat d else 0x57 + UInt8.ofNat d

def decimalNat (n : ℕ) : Bytes := if n = 0 then [0x30] else ((Nat.digits 10 n).reverse.map digit)

/-- `%d` -/
def decimal (z : ℤ) : Bytes := (if z < 0 then [0x2D] else []) ++ decimalNat z.natAbs

/-- `%08x` of a uint32 -/
def hex8 (n : UInt32) : Bytes := (List.range 8).map fun i => digit (n.toNat / 16 ^ (7 - i) % 16)

/-- the absolute value of a finite float32 in tenths, rounded to nearest, a tie to even -/
def tenths (x : F32) : ℕ :=
  let mant := if x.expo = 0 then x.mant else x.mant + 2 ^ 23
  let expo := if x.expo = 0 then 1 else x.expo
  let num := mant * 10 * 2 ^ (expo - 150)
  let den := 2 ^ (150 - expo)
  let q := num / den
  if 2 * (num % den) < den ∨ 2 * (num % den) = den ∧ q % 2 = 0 then q else q + 1

/-- `%.1f` of a float32 -/
def fixed1 (x : F32) : Bytes :=
  if x.isNaN then utf8 "NaN"
  else if !x.isFinite then utf8 (if x.neg then "-Inf" else "+Inf")
  else (if x.neg then [0x2D] else []) ++ decimalNat (tenths x / 10) ++ utf8 "." ++ decimalNat (tenths x % 10)

/-- `strings.Join` -/
def join (sep : Bytes) (elems : List Bytes) : Bytes := sep.intercalate elems

/-! ## The message -/

/-- what formatChatMessage reads of a `metrics.ChatMessage` -/
structure ChatMessage where
  from_ : UInt32
  channel : UInt32
  text : Bytes
  fromName : Bytes
  viaMqtt : Bool
  rxRssi : ℤ
  rxSnr : F32

/-- and of a `metrics.NodeEntry` -/
structure NodeEntry where
  userID : Bytes

def channelName (ch : UInt32) : Bytes := if ch = 0 then utf8 "LongFast" else utf8 "Ch " ++ decimal ch.toNat

/-- `fmt.Sprintf("!%08x", msg.From)` -/
def hexName (num : UInt32) : Bytes := utf8 "!" ++ hex8 num

def senderName (msg : ChatMessage) : Bytes := if msg.fromName = [] then hexName msg.from_ else msg.fromName

section Metadata

variable (msg : ChatMessage) (nodeDir : GoMap UInt32 NodeEntry)

/-- the element of the metadata line that names the node -/
def metaNode : Bytes :=
  match nodeDir.get? msg.from_ with
  | some entry =>
    if entry.userID ≠ [] then utf8 "<code>" ++ escapeString entry.userID ++ utf8 "</code>"
    else utf8 "<code>" ++ hexName msg.from_ ++ utf8 "</code>"
  | none => utf8 "<code>" ++ hexName msg.from_ ++ utf8 "</code>"

/-- the optional elements behind it -/
def metaRest : List Bytes :=
  (if msg.rxRssi ≠ 0 then [decimal msg.rxRssi ++ utf8 " dBm"] else []) ++
  (if msg.rxSnr.neZero then [utf8 "SNR " ++ fixed1 msg.rxSnr ++ utf8 " dB"] else []) ++
  (if msg.viaMqtt then [utf8 "via MQTT"] else [])

def formatChatMessage : Bytes :=
  let metadata := metaNode msg nodeDir :: metaRest msg
  utf8 "<b>" ++ escapeString (senderName msg) ++ utf8 "</b>" ++
  utf8 " → <i>" ++ escapeString (channelName msg.channel) ++ utf8 "</i>\n" ++
  escapeString msg.text ++
  (if 0 < metadata.length then utf8 "\n\n" ++ join (utf8 " · ") metadata else [])

/-- the node id that is shown -/
def nodeID : Bytes :=
  match nodeDir.get? msg.from_ with
  | some entry => if entry.userID ≠ [] then entry.userID else hexName msg.from_
  | none => hexName msg.from_

end Metadata

/-! ## Pieces without angle brackets -/

def Plain (s : Bytes) : Prop := 0x3C ∉ s ∧ 0x3E ∉ s

instance : DecidablePred Plain := fun _ => inferInstanceAs (Decidable (_ ∧ _))

theorem Plain.append {a b : Bytes} (ha : Plain a) (hb : Plain b) : Plain (a ++ b) := by
  simp only [Plain, List.mem_append, not_or]
  exact ⟨⟨ha.1, hb.1⟩, ha.2, hb.2⟩

theorem plain_of_forall {s : Bytes} (h : ∀ c ∈ s, c ≠ 0x3C ∧ c ≠ 0x3E) : Plain s :=
  ⟨fun hc => (h _ hc).1 rfl, fun hc => (h _ hc).2 rfl⟩

theorem plain_escapeByte (c : UInt8) : Plain (escapeByte c) := by
  unfold escapeByte
  split_ifs with h1 h2 h3 h4 h5
  · decide
  · decide
  · decide
  · decide
  · decide
  · simp [Plain, Ne.symm h3, Ne.symm h4]

theorem plain_escapeString (s : Bytes) : Plain (escapeString s) := by
  unfold escapeString
  induction s with
  | nil => decide
  | cons c s ih => exact (plain_escapeByte c).append ih

/-- a digit is no angle bracket, and escapes to itself -/
theorem digit_plain {d : ℕ} (h : d < 16) : (digit d ≠ 0x3C ∧ digit d ≠ 0x3E) ∧ escapeByte (digit d) = [digit d] := by
  have hall : ∀ d < 16, (digit d ≠ 0x3C ∧ digit d ≠ 0x3E) ∧ escapeByte (digit d) = [digit d] := by decide
  exact hall d h

theorem plain_decimalNat (n : ℕ) : Plain (decimalNat n) := by
  unfold decimalNat
  split_ifs
  · decide
  · apply plain_of_forall
    intro c hc
    obtain ⟨d, hd, rfl⟩ := List.mem_map.1 hc
    have hlt : d < 10 := Nat.digits_lt_base (by norm_num) (List.mem_reverse.1 hd)
    exact (digit_plain (by omega)).1

theorem plain_decimal (z : ℤ) : Plain (decimal z) := by
  unfold decimal
  apply Plain.append _ (plain_decimalNat _)
  split_ifs <;> decide

theorem plain_fixed1 (x : F32) : Plain (fixed1 x) := by
  unfold fixed1
  split_ifs
  · decide
  · decide
  · decide
  · exact ((Plain.append (by decide) (plain_decimalNat _)).append (by decide)).append (plain_decimalNat _)
  · exact ((Plain.append (by decide) (plain_decimalNat _)).append (by decide)).append (plain_decimalNat _)

theorem escapeString_eq_self {s : Bytes} (h : ∀ c ∈ s, escapeByte c = [c]) : escapeString s = s := by
  unfold escapeString
  induction s with
  | nil => rfl
  | cons c s ih =>
    rw [List.flatMap_cons, h c List.mem_cons_self, ih fun d hd => h d (List.mem_cons_of_mem c hd), List.singleton_append]

theorem escapeString_hexName (num : UInt32) : escapeString (hexName num) = hexName num := by
  apply escapeString_eq_self
  intro c hc
  rcases List.mem_append.1 hc with hc | hc
  · rw [List.mem_singleton.1 hc]
    decide
  · obtain ⟨i, -, rfl⟩ := List.mem_map.1 hc
    exact (digit_plain (Nat.mod_lt _ (by norm_num))).2

variable (msg : ChatMessage) (nodeDir : GoMap UInt32 NodeEntry)

theorem metaNode_eq : metaNode msg nodeDir = utf8 "<code>" ++ escapeString (nodeID msg nodeDir) ++ utf8 "</code>" := by
  unfold metaNode nodeID
  split
  · split_ifs
    · rfl
    · rw [escapeString_hexName]
  · rw [escapeString_hexName]

theorem plain_metaRest : ∀ elem ∈ metaRest msg, Plain elem := by
  intro elem helem
  simp only [metaRest, List.mem_append, List.mem_ite_nil_right, List.mem_singleton] at helem
  rcases helem with (⟨-, rfl⟩ | ⟨-, rfl⟩) | ⟨-, rfl⟩
  · exact (plain_decimal _).append (by decide)
  · exact (Plain.append (by decide) (plain_fixed1 _)).append (by decide)
  · decide

/-- what `join` puts behind the first element -/
def behind (sep : Bytes) (elems : List Bytes) : Bytes := elems.flatMap fun elem => sep ++ elem

theorem join_cons (sep elem : Bytes) (elems : List Bytes) : join sep (elem :: elems) = elem ++ behind sep elems := by
  unfold join behind
  induction elems generalizing elem with
  | nil => simp [List.intercalate]
  | cons next elems ih =>
    calc sep.intercalate (elem :: next :: elems) = elem ++ (sep ++ sep.intercalate (next :: elems)) := by
          simp [List.intercalate]
      _ = elem ++ (next :: elems).flatMap fun elem => sep ++ elem := by rw [ih, List.flatMap_cons, List.append_assoc]

theorem plain_behind {sep : Bytes} (hsep : Plain sep) {elems : List Bytes} (h : ∀ elem ∈ elems, Plain elem) :
    Plain (behind sep elems) := by
  unfold behind
  induction elems with
  | nil => simp [Plain]
  | cons elem elems ih =>
    have hrest := ih fun e he => h e (List.mem_cons_of_mem elem he)
    exact (hsep.append (h elem List.mem_cons_self)).append hrest

/-! ## The message, split at its tags -/

/-- the names of the tags of a message -/
def formatTags : List Bytes := ["b", "/b", "i", "/i", "code", "/code"].map utf8

/-- the text between the channel and the node id -/
def body : Bytes := utf8 "\n" ++ escapeString msg.text ++ utf8 "\n\n"

theorem format_eq : formatChatMessage msg nodeDir =
    [] ++ (tag 0x3C 0x3E (utf8 "b") ++ (escapeString (senderName msg) ++ (tag 0x3C 0x3E (utf8 "/b") ++
      (utf8 " → " ++ (tag 0x3C 0x3E (utf8 "i") ++ (escapeString (channelName msg.channel) ++
        (tag 0x3C 0x3E (utf8 "/i") ++ (body msg ++ (tag 0x3C 0x3E (utf8 "code") ++
          (escapeString (nodeID msg nodeDir) ++ (tag 0x3C 0x3E (utf8 "/code") ++
            behind (utf8 " · ") (metaRest msg)))))))))))) := by
  have hi : utf8 " → <i>" = utf8 " → " ++ tag 0x3C 0x3E (utf8 "i") := by decide
  have hi' : utf8 "</i>\n" = tag 0x3C 0x3E (utf8 "/i") ++ utf8 "\n" := by decide
  simp only [formatChatMessage, join_cons, metaNode_eq, hi, hi', body, List.append_assoc, List.nil_append]
  rfl

/-- **What the message is made of.** -/
theorem tokens_format : tokens 0x3C 0x3E (formatChatMessage msg nodeDir) =
    [.text [], .tag (utf8 "b"), .text (escapeString (senderName msg)), .tag (utf8 "/b"), .text (utf8 " → "),
      .tag (utf8 "i"), .text (escapeString (channelName msg.channel)), .tag (utf8 "/i"), .text (body msg),
      .tag (utf8 "code"), .text (escapeString (nodeID msg nodeDir)), .tag (utf8 "/code"),
      .text (behind (utf8 " · ") (metaRest msg))] := by
  have hbody : Plain (body msg) := (Plain.append (by decide) (plain_escapeString _)).append (by decide)
  have hrest : Plain (behind (utf8 " · ") (metaRest msg)) := plain_behind (by decide) (plain_metaRest msg)
  rw [format_eq, tokens_piece (by decide) (by decide), tokens_piece (plain_escapeString _).1 (by decide),
    tokens_piece (by decide) (by decide), tokens_piece (plain_escapeString _).1 (by decide),
    tokens_piece hbody.1 (by decide), tokens_piece (plain_escapeString _).1 (by decide), tokens_text hrest.1]

/-! ## Reading it back -/

structure Parts where
  name : Bytes
  text : Bytes
  id : Bytes

/-- split at the tags, take the newlines off the body and unescape -/
def recover (unescape : Bytes → Bytes) (html : Bytes) : Option Parts :=
  match tokens 0x3C 0x3E html with
  | [.text _, .tag b, .text name, .tag b', .text _, .tag i, .text _, .tag i', .text body, .tag code, .text id,
      .tag code', .text _] =>
    if [b, b', i, i', code, code'] = formatTags then
      some ⟨unescape name, unescape (body.drop 1).dropLast.dropLast, unescape id⟩
    else none
  | _ => none

theorem recover_format {unescape : Bytes → Bytes} (hun : ∀ s, unescape (escapeString s) = s) :
    recover unescape (formatChatMessage msg nodeDir) = some ⟨senderName msg, msg.text, nodeID msg nodeDir⟩ := by
  have hbody : ((body msg).drop 1).dropLast.dropLast = escapeString msg.text := by
    have h1 : utf8 "\n" = [0x0A] := by decide
    have h2 : utf8 "\n\n" = [0x0A] ++ [0x0A] := by decide
    rw [body, h1, h2, ← List.append_assoc]
    simp
  rw [recover, tokens_format]
  simp only [formatTags, List.map_cons, List.map_nil, ↓reduceIte, hbody, hun]

/-- **The structure of a message.** Its tags are b, i and code, each opened and closed once, and none is left open; the
sender name, the text and the node id are read back from it; and messages that format alike agree on all three. -/
theorem format_structure {unescape : Bytes → Bytes} (hun : ∀ s, unescape (escapeString s) = s) (msg : ChatMessage)
    (nodeDir : GoMap UInt32 NodeEntry) :
    tagNames (tokens 0x3C 0x3E (formatChatMessage msg nodeDir)) = formatTags ∧
    (∀ s, .unclosed s ∉ tokens 0x3C 0x3E (formatChatMessage msg nodeDir)) ∧
    recover unescape (formatChatMessage msg nodeDir) = some ⟨senderName msg, msg.text, nodeID msg nodeDir⟩ ∧
    ∀ msg' nodeDir', formatChatMessage msg' nodeDir' = formatChatMessage msg nodeDir →
      senderName msg' = senderName msg ∧ msg'.text = msg.text ∧ nodeID msg' nodeDir' = nodeID msg nodeDir := by
  refine ⟨?_, ?_, recover_format msg nodeDir hun, ?_⟩
  · rw [tokens_format]
    rfl
  · rw [tokens_format]
    simp
  · intro msg' nodeDir' heq
    have hparts := recover_format msg' nodeDir' hun
    rw [heq, recover_format msg nodeDir hun] at hparts
    injection hparts with hparts
    injection hparts with hname htext hid
    exact ⟨hname.symm, htext.symm, hid.symm⟩

/-! ### A decoder of the five entities -/

def entities : List (Bytes × UInt8) :=
  [(utf8 "&amp;", 0x26), (utf8 "&#39;", 0x27), (utf8 "&lt;", 0x3C), (utf8 "&gt;", 0x3E), (utf8 "&#34;", 0x22)]

/-- skip the rest of an entity, then decode -/
def decodeFrom : ℕ → Bytes → Bytes
  | _, [] => []
  | k + 1, _ :: s => decodeFrom k s
  | 0, c :: s =>
    match entities.find? fun e => e.1.isPrefixOf (c :: s) with
    | some e => e.2 :: decodeFrom (e.1.length - 1) s
    | none => c :: decodeFrom 0 s

def unescapeEntities (s : Bytes) : Bytes := decodeFrom 0 s

theorem decodeFrom_escapeByte (c : UInt8) (rest : Bytes) :
    decodeFrom 0 (escapeByte c ++ rest) = c :: decodeFrom 0 rest := by
  unfold escapeByte
  split_ifs with h1 h2 h3 h4 h5
  · rw [h1]; rfl
  · rw [h2]; rfl
  · rw [h3]; rfl
  · rw [h4]; rfl
  · rw [h5]; rfl
  · have hamp : ∀ e ∈ entities, ∃ s, e.1 = 0x26 :: s := by
      simp only [entities, List.forall_mem_cons, List.not_mem_nil, false_implies, implies_true, and_true]
      exact ⟨⟨_, rfl⟩, ⟨_, rfl⟩, ⟨_, rfl⟩, ⟨_, rfl⟩, ⟨_, rfl⟩⟩
    have hnone : (entities.find? fun e => e.1.isPrefixOf (c :: rest)) = none := by
      apply List.find?_eq_none.2
      intro e he
      obtain ⟨s, hs⟩ := hamp e he
      simp [hs, List.isPrefixOf, Ne.symm h1]
    rw [List.singleton_append, decodeFrom, hnone]

theorem unescapeEntities_escapeString (s : Bytes) : unescapeEntities (escapeString s) = s := by
  unfold unescapeEntities escapeString
  induction s with
  | nil => rfl
  | cons c s ih => rw [List.flatMap_cons, decodeFrom_escapeByte, ih]

/-- a name and a text that imitate the markup -/
def imitation : ChatMessage where
  from_ := 0xf9b0552c
  channel := 2
  text := utf8 "</i>\n\n<code>!00000000</code> &amp; more"
  fromName := utf8 "<b>jfett</b> → <i>"
  viaMqtt := true
  rxRssi := -85
  rxSnr := ⟨0x40D00000#32⟩

theorem imitation_recovered :
    recover unescapeEntities (formatChatMessage imitation .empty) =
      some ⟨utf8 "<b>jfett</b> → <i>", utf8 "</i>\n\n<code>!00000000</code> &amp; more", utf8 "!f9b0552c"⟩ :=
  (format_structure unescapeEntities_escapeString imitation .empty).2.2.1

end MeshProxy.Telegram
