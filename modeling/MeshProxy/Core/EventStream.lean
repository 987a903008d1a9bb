/-
The event stream format of server-sent events, as its reader interprets it: the text is split into lines at LF, CR or CR LF;
a line is a field (`name: value`, with one space after the colon dropped) or a comment; an empty line dispatches the event
that the `event` and `data` fields before it have made. The reader takes one character at a time, so it does not matter in
what pieces the text arrives. `id` and `retry` fields have no part in what is dispatched and are passed over.
- `received_frames`: the frames of one-line messages are read back as these messages, in order;
- `received_prefix`: of a stream that is cut off anywhere, the messages read are a prefix of those framed.
-/
import MeshProxy.Core.Trace

namespace MeshProxy.EventStream

open MeshProxy.Trace

/-! ## The reader -/

structure Message where
  type : List Char
  data : List Char
deriving DecidableEq, Repr

def eventName : List Char := ['e', 'v', 'e', 'n', 't']
def dataName : List Char := ['d', 'a', 't', 'a']

/-- the type of an event without an `event` field -/
def messageType : List Char := ['m', 'e', 's', 's', 'a', 'g', 'e']

/-- the line so far, whether a CR has just ended one, and the two buffers -/
structure Reader where
  line : List Char := []
  afterCR : Bool := false
  type : List Char := []
  data : List Char := []
deriving DecidableEq, Repr

/-- the name and the value of a line -/
def splitField (line : List Char) : List Char × List Char :=
  match line.dropWhile (· ≠ ':') with
  | [] => (line, [])
  | _ :: ' ' :: value => (line.takeWhile (· ≠ ':'), value)
  | _ :: value => (line.takeWhile (· ≠ ':'), value)

namespace Reader

def field (r : Reader) (name value : List Char) : Reader :=
  if name = eventName then { r with type := value }
  else if name = dataName then { r with data := r.data ++ value ++ ['\n'] }
  else r

theorem field_event (r : Reader) (value : List Char) : r.field eventName value = { r with type := value } := by
  rw [field, if_pos rfl]

theorem field_data (r : Reader) (value : List Char) :
    r.field dataName value = { r with data := r.data ++ value ++ ['\n'] } := by
  rw [field, if_neg (by decide), if_pos rfl]

/-- an empty line: the event is complete, unless it has no data -/
def dispatch (r : Reader) : Reader × List Message :=
  if r.data = [] then ({}, [])
  else ({}, [⟨if r.type = [] then messageType else r.type, r.data.dropLast⟩])

/-- the end of a line; a line that begins with a colon is a comment -/
def endLine (r : Reader) : Reader × List Message :=
  if r.line = [] then r.dispatch
  else if r.line.head? = some ':' then ({ r with line := [] }, [])
  else ({ r with line := [] }.field (splitField r.line).1 (splitField r.line).2, [])

/-- the next character -/
def feed (r : Reader) (c : Char) : Reader × List Message :=
  if c = '\n' then
    if r.afterCR then ({ r with afterCR := false }, []) else r.endLine
  else if c = '\r' then
    let (r, messages) := r.endLine
    ({ r with afterCR := true }, messages)
  else ({ r with line := r.line ++ [c], afterCR := false }, [])

end Reader

def next (r : Reader) (c : Char) : Reader := (r.feed c).1

/-- the messages a reader dispatches while it reads -/
def received (r : Reader) (text : List Char) : List Message := emitted next (fun r c => (r.feed c).2) r text

/-! ## The writer -/

/-- `event: …`, `data: …` and an empty line -/
def frame (m : Message) : List Char :=
  eventName ++ [':', ' '] ++ m.type ++ ['\n'] ++ dataName ++ [':', ' '] ++ m.data ++ ['\n', '\n']

/-- no line end -/
def OneLine (s : List Char) : Prop := '\n' ∉ s ∧ '\r' ∉ s

instance : DecidablePred OneLine := fun _ => inferInstanceAs (Decidable (_ ∧ _))

/-- a message that a frame can carry -/
structure Message.Plain (m : Message) : Prop where
  type : OneLine m.type
  named : m.type ≠ []
  data : OneLine m.data

/-! ## Reading back what was written -/

/-- the text takes the reader from one state to another, and these messages are dispatched meanwhile -/
def Reads (r : Reader) (text : List Char) (r' : Reader) (messages : List Message) : Prop :=
  run next r text = r' ∧ received r text = messages

variable {r r' r'' : Reader} {s t : List Char} {ms ms' : List Message}

theorem Reads.append (hs : Reads r s r' ms) (ht : Reads r' t r'' ms') : Reads r (s ++ t) r'' (ms ++ ms') := by
  obtain ⟨rfl, rfl⟩ := hs
  obtain ⟨rfl, rfl⟩ := ht
  exact ⟨run_append next r s t, emitted_append _ r s t⟩

theorem reads_char {c : Char} (h : r.feed c = (r', ms)) : Reads r [c] r' ms := by
  constructor
  · rw [run_cons, run_nil, next, h]
  · rw [received, emitted, h, emitted, List.append_nil]

theorem reads_oneLine (hs : OneLine s) (hr : r.afterCR = false) : Reads r s { r with line := r.line ++ s } [] := by
  induction s generalizing r with
  | nil =>
    rw [List.append_nil]
    exact ⟨rfl, rfl⟩
  | cons c s ih =>
    obtain ⟨hlf, hcr⟩ := hs
    rw [List.mem_cons, not_or] at hlf hcr
    have hfirst : Reads r [c] { r with line := r.line ++ [c] } [] := by
      apply reads_char
      simp [Reader.feed, Ne.symm hlf.1, Ne.symm hcr.1, hr]
    have hrest := ih (r := { r with line := r.line ++ [c] }) ⟨hlf.2, hcr.2⟩ hr
    simpa only [List.append_assoc, List.singleton_append, List.append_nil] using hfirst.append hrest

theorem splitField_colon {name value : List Char} (hname : ':' ∉ name) :
    splitField (name ++ ':' :: ' ' :: value) = (name, value) := by
  have hall : ∀ c ∈ name, decide (c ≠ ':') = true := by
    intro c hc
    simp only [decide_eq_true_eq]
    rintro rfl
    exact hname hc
  have hdrop : (name ++ ':' :: ' ' :: value).dropWhile (· ≠ ':') = ':' :: ' ' :: value := by
    rw [List.dropWhile_append_of_pos hall]
    simp
  have htake : (name ++ ':' :: ' ' :: value).takeWhile (· ≠ ':') = name := by
    rw [List.takeWhile_append_of_pos hall]
    simp
  rw [splitField, hdrop]
  simp only [htake]

/-- a field line, with its LF -/
def fieldLine (name value : List Char) : List Char := name ++ ':' :: ' ' :: value ++ ['\n']

theorem frame_eq (m : Message) :
    frame m = fieldLine eventName m.type ++ fieldLine dataName m.data ++ ['\n'] := by
  simp [frame, fieldLine]

theorem reads_field {name value : List Char} (hname : ':' ∉ name) (hne : name ≠ []) (hline : r.line = [])
    (hr : r.afterCR = false) (htext : OneLine (name ++ ':' :: ' ' :: value)) :
    Reads r (fieldLine name value) (r.field name value) [] := by
  have hread := reads_oneLine htext hr
  rw [hline, List.nil_append] at hread
  refine hread.append (reads_char ?_)
  have hhead : (name ++ ':' :: ' ' :: value).head? ≠ some ':' := by
    obtain ⟨c, name, rfl⟩ := List.exists_cons_of_ne_nil hne
    rintro ⟨rfl⟩
    exact hname List.mem_cons_self
  have hempty : name ++ ':' :: ' ' :: value ≠ [] := by simp
  have hself : ({ r with line := [] } : Reader) = r := by rw [← hline]
  simp only [Reader.feed, ↓reduceIte, hr, Bool.false_eq_true, Reader.endLine, hempty, hhead, splitField_colon hname]
  rw [← hr, hself]

/-- the empty line that ends a frame -/
theorem reads_end (hline : r.line = []) (hr : r.afterCR = false) : Reads r ['\n'] r.dispatch.1 r.dispatch.2 := by
  apply reads_char
  simp [Reader.feed, hr, Reader.endLine, hline]

theorem OneLine.append (hs : OneLine s) (ht : OneLine t) : OneLine (s ++ t) := by
  simp only [OneLine, List.mem_append, not_or]
  exact ⟨⟨hs.1, ht.1⟩, hs.2, ht.2⟩

/-- one frame gives its message, and leaves the reader as it was at first -/
theorem reads_frame {m : Message} (hm : m.Plain) : Reads {} (frame m) {} [m] := by
  have hcolon : ∀ v, OneLine v → OneLine (':' :: ' ' :: v) := fun v hv => OneLine.append (s := [':', ' ']) (by decide) hv
  have htype : Reads {} (fieldLine eventName m.type) (({} : Reader).field eventName m.type) [] :=
    reads_field (by decide) (by decide) rfl rfl (OneLine.append (by decide) (hcolon m.type hm.type))
  have hdata : Reads { type := m.type } (fieldLine dataName m.data)
      (({ type := m.type } : Reader).field dataName m.data) [] :=
    reads_field (by decide) (by decide) rfl rfl (OneLine.append (by decide) (hcolon m.data hm.data))
  rw [Reader.field_event] at htype
  rw [Reader.field_data, List.nil_append] at hdata
  have hend := reads_end (r := { type := m.type, data := m.data ++ ['\n'] }) rfl rfl
  rw [frame_eq]
  simpa [Reader.dispatch, hm.named] using (htype.append hdata).append hend

/-- **Frames are read back.** -/
theorem reads_frames {ms : List Message} (h : ∀ m ∈ ms, m.Plain) : Reads {} (ms.flatMap frame) {} ms := by
  induction ms with
  | nil => exact ⟨rfl, rfl⟩
  | cons m ms ih =>
    rw [List.flatMap_cons]
    exact (reads_frame (h m List.mem_cons_self)).append (ih fun m' hm' => h m' (List.mem_cons_of_mem m hm'))

theorem received_frames {ms : List Message} (h : ∀ m ∈ ms, m.Plain) : received {} (ms.flatMap frame) = ms :=
  (reads_frames h).2

/-- a stream that is cut off gives a prefix of the messages -/
theorem received_prefix {ms : List Message} (h : ∀ m ∈ ms, m.Plain) {text : List Char}
    (hpre : text <+: ms.flatMap frame) : received {} text <+: ms := by
  obtain ⟨rest, hrest⟩ := hpre
  calc received {} text <+: received {} (text ++ rest) := by
        rw [received, received, emitted_append]
        exact List.prefix_append _ _
    _ = ms := by rw [hrest, received_frames h]

end MeshProxy.EventStream
