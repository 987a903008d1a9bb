/-
The chat tab (`templates/static/chat.js`: loadChannels, renderSidebar, selectChannel, applyChatFilter, updateBadges,
loadChatHistory, appendChatMessage).

The page keeps its messages twice, in `allChatMessages` and as elements of the message list, and changes either by itself:
a message comes in at the end of both and what is over 500 goes from the front of both. An element is hidden unless its
message is on the active channel. The sidebar has a button with a badge for each channel; it is rendered when the channels
are there, which are fetched when the tab is shown for the first time. What an element says, and the scrolling, are left out.

`loaded` and `appended` are the last history and what has come since, and `badged` says that the badges have been written
since the sidebar was rendered. They are for the statements only.
- `append_shown`: appendChatMessage keeps list and elements together;
- `panel_shows`: in any order of histories, messages, clicks and channel lists, what the user sees is what the page has.
-/
import MeshProxy.Core.Trace
import MeshProxy.Core.Window

namespace MeshProxy.ChatPanel

open MeshProxy.Trace MeshProxy.Window

/-! ## The panel -/

/-- a message, as far as the panel goes by it -/
structure Msg where
  id : ℕ
  channel : ℕ
deriving DecidableEq, Repr

/-- a `.chat-msg`: its message, the data-channel it was created with, and its display -/
structure Element where
  msg : Msg
  channel : ℕ
  hidden : Bool
deriving DecidableEq, Repr

/-- a button of the sidebar; a badge without a text says nothing -/
structure Button where
  channel : ℕ
  badge : Option ℕ
deriving DecidableEq, Repr

structure Panel where
  allChatMessages : List Msg
  elements : List Element
  buttons : List Button
  activeChannel : ℕ
  chatInitialized : Bool
  /-- the channels have been asked for and are not there yet -/
  fetching : Bool
  /-- the note that there are no messages -/
  emptyNote : Bool
  loaded : List Msg
  appended : List Msg
  badged : Bool

def init : Panel where
  allChatMessages := []
  elements := []
  buttons := []
  activeChannel := 0
  chatInitialized := false
  fetching := false
  emptyNote := true
  loaded := []
  appended := []
  badged := false

inductive Act where
  | history (messages : List Msg)
  | message (msg : Msg)
  | initChat
  /-- the list of channels comes in -/
  | channels (indices : List ℕ)
  | select (index : ℕ)

def createMessageEl (msg : Msg) : Element := ⟨msg, msg.channel, false⟩

namespace Panel

/-- applyChatFilter: every element is shown or hidden, and the ones shown are counted -/
def applyChatFilter (p : Panel) : Panel :=
  let elements := p.elements.map fun el => { el with hidden := el.channel ≠ p.activeChannel }
  { p with elements, emptyNote := (elements.filter fun el => !el.hidden).length = 0 }

/-- `counts[ch]`, and the text it gives -/
def count (p : Panel) (channel : ℕ) : ℕ := (p.allChatMessages.filter fun m => m.channel = channel).length
def badgeText (p : Panel) (channel : ℕ) : Option ℕ := if p.count channel > 0 then some (p.count channel) else none

def updateBadges (p : Panel) : Panel :=
  { p with buttons := p.buttons.map fun b => { b with badge := p.badgeText b.channel }, badged := true }

def selectChannel (p : Panel) (index : ℕ) : Panel := { p with activeChannel := index }.applyChatFilter

def renderSidebar (p : Panel) (indices : List ℕ) : Panel :=
  { p with buttons := indices.map fun i => ⟨i, none⟩, badged := false }

/-- the answer of `/api/chat/channels` -/
def loadChannels (p : Panel) (indices : List ℕ) : Panel :=
  match indices with
  | [] => p.renderSidebar []
  | i :: rest => (p.renderSidebar (i :: rest)).selectChannel i

def loadChatHistory (p : Panel) (messages : List Msg) : Panel :=
  if messages.length = 0 then p
  else
    let p := { p with
      allChatMessages := messages
      elements := messages.map createMessageEl
      emptyNote := messages.length = 0
      loaded := messages
      appended := [] }
    p.updateBadges.applyChatFilter

/-- the part of appendChatMessage before the badges -/
def append (p : Panel) (msg : Msg) : Panel :=
  let all := p.allChatMessages ++ [msg]
  let full := all.length > 500
  let elements := if full then p.elements.tail else p.elements
  let el := createMessageEl msg
  { p with
    allChatMessages := if full then all.tail else all
    elements := elements ++ [if msg.channel ≠ p.activeChannel then { el with hidden := true } else el]
    emptyNote := false
    appended := p.appended ++ [msg] }

def appendChatMessage (p : Panel) (msg : Msg) : Panel := (p.append msg).updateBadges

end Panel

def step (p : Panel) : Act → Panel
  | .history messages => p.loadChatHistory messages
  | .message msg => p.appendChatMessage msg
  | .initChat => if p.chatInitialized then p else { p with chatInitialized := true, fetching := true }
  | .channels indices => if p.fetching then { p with fetching := false }.loadChannels indices else p
  | .select index => if ∃ b ∈ p.buttons, b.channel = index then p.selectChannel index else p

/-! ## What is shown -/

/-- the element of a message when this channel is active -/
def elementOf (active : ℕ) (msg : Msg) : Element := ⟨msg, msg.channel, msg.channel ≠ active⟩

/-- the panel shows what it has -/
structure Shown (p : Panel) : Prop where
  elements : p.elements = p.allChatMessages.map (elementOf p.activeChannel)
  window : p.allChatMessages = (p.loaded ++ p.appended).rtake (max 500 p.loaded.length)
  note : p.emptyNote = true → ∀ m ∈ p.allChatMessages, m.channel ≠ p.activeChannel
  badges : ∀ b ∈ p.buttons, b.badge = if p.badged then p.badgeText b.channel else none

variable {p : Panel}

/-- the elements are those of the messages, whatever is hidden of them -/
def Paired (p : Panel) : Prop :=
  p.elements.map (·.msg) = p.allChatMessages ∧ ∀ el ∈ p.elements, el.channel = el.msg.channel

theorem Shown.paired (h : Shown p) : Paired p := by
  unfold Paired
  rw [h.elements]
  refine ⟨by simp [Function.comp_def, elementOf], fun el hel => ?_⟩
  obtain ⟨m, -, rfl⟩ := List.mem_map.1 hel
  rfl

/-- after applyChatFilter only the window and the badges are left to see to -/
theorem filter_shown (hpaired : Paired p) (hwindow : p.allChatMessages = (p.loaded ++ p.appended).rtake (max 500 p.loaded.length))
    (hbadges : ∀ b ∈ p.buttons, b.badge = if p.badged then p.badgeText b.channel else none) : Shown p.applyChatFilter := by
  have helements : p.applyChatFilter.elements = p.allChatMessages.map (elementOf p.activeChannel) := by
    rw [← hpaired.1, List.map_map]
    apply List.map_congr_left
    intro el hel
    simp [elementOf, hpaired.2 el hel]
  refine ⟨helements, hwindow, fun hnote m hm => ?_, hbadges⟩
  have hnone : (p.applyChatFilter.elements.filter fun el => !el.hidden).length = 0 := of_decide_eq_true hnote
  rw [helements] at hnone
  have hhidden := List.filter_eq_nil_iff.1 (List.eq_nil_of_length_eq_zero hnone) _ (List.mem_map_of_mem hm)
  show m.channel ≠ p.activeChannel
  simpa [elementOf] using hhidden

theorem init_shown : Shown init where
  elements := rfl
  window := rfl
  note := fun _ _ hm => absurd hm List.not_mem_nil
  badges := fun _ hb => absurd hb List.not_mem_nil

theorem select_shown (h : Shown p) (index : ℕ) : Shown (p.selectChannel index) :=
  filter_shown (p := { p with activeChannel := index }) h.paired h.window h.badges

theorem sidebar_shown (h : Shown p) (indices : List ℕ) : Shown (p.renderSidebar indices) where
  elements := h.elements
  window := h.window
  note := h.note
  badges := fun b hb => by
    obtain ⟨i, -, rfl⟩ := List.mem_map.1 hb
    rfl

theorem badges_written (p : Panel) : ∀ b ∈ p.updateBadges.buttons, b.badge = p.badgeText b.channel := by
  intro b hb
  obtain ⟨b', -, rfl⟩ := List.mem_map.1 hb
  rfl

theorem history_shown (h : Shown p) (messages : List Msg) : Shown (p.loadChatHistory messages) := by
  unfold Panel.loadChatHistory
  split_ifs
  · exact h
  · apply filter_shown
    · refine ⟨by simp [Panel.updateBadges, createMessageEl, Function.comp_def], fun el hel => ?_⟩
      obtain ⟨m, -, rfl⟩ := List.mem_map.1 hel
      rfl
    · show messages = (messages ++ []).rtake (max 500 messages.length)
      rw [List.append_nil, rtake_of_length_le (le_max_right _ _)]
    · exact badges_written _

/-- a message comes in at the end, and what is over 500 goes, unless a longer history has been loaded -/
theorem append_window (h : p.allChatMessages = (p.loaded ++ p.appended).rtake (max 500 p.loaded.length)) (msg : Msg) :
    (p.append msg).allChatMessages = (p.loaded ++ (p.appended ++ [msg])).rtake (max 500 p.loaded.length) := by
  have hlen : p.allChatMessages.length = min (max 500 p.loaded.length) (p.loaded.length + p.appended.length) := by
    rw [h, length_rtake, List.length_append]
  calc (p.append msg).allChatMessages
      = push (max 500 p.loaded.length) p.allChatMessages msg := by
        simp only [Panel.append, push]
        split_ifs with hfull
        · have hone : (p.allChatMessages ++ [msg]).length - max 500 p.loaded.length = 1 := by
            simp only [List.length_append, List.length_singleton] at hfull ⊢
            omega
          rw [List.rtake, hone, List.drop_one]
        · rw [rtake_of_length_le]
          omega
    _ = (p.loaded ++ (p.appended ++ [msg])).rtake (max 500 p.loaded.length) := by
        rw [h, push_rtake, List.append_assoc]

theorem append_elements (h : p.elements = p.allChatMessages.map (elementOf p.activeChannel)) (msg : Msg) :
    (p.append msg).elements = (p.append msg).allChatMessages.map (elementOf p.activeChannel) := by
  have hnew : (if msg.channel ≠ p.activeChannel then { createMessageEl msg with hidden := true } else createMessageEl msg) =
      elementOf p.activeChannel msg := by
    by_cases hch : msg.channel = p.activeChannel <;> simp [createMessageEl, elementOf, hch]
  simp only [Panel.append, hnew, h]
  split_ifs with hfull
  · have hsome : p.allChatMessages ≠ [] := by
      rintro hnil
      simp [hnil] at hfull
    rw [List.tail_append_of_ne_nil hsome, List.map_append, List.map_tail, List.map_singleton]
  · rw [List.map_append, List.map_singleton]

/-- **A message.** List and elements stay together. -/
theorem append_shown (h : Shown p) (msg : Msg) : Shown (p.appendChatMessage msg) where
  elements := append_elements h.elements msg
  window := append_window h.window msg
  note := fun hnote => by cases hnote
  badges := badges_written _

theorem step_shown (h : Shown p) (a : Act) : Shown (step p a) := by
  cases a with
  | history messages => exact history_shown h messages
  | message msg => exact append_shown h msg
  | initChat =>
    simp only [step]
    split_ifs
    · exact h
    · exact ⟨h.elements, h.window, h.note, h.badges⟩
  | channels indices =>
    simp only [step]
    split_ifs
    · have hf : Shown { p with fetching := false } := ⟨h.elements, h.window, h.note, h.badges⟩
      cases indices with
      | nil => exact sidebar_shown hf []
      | cons i rest => exact select_shown (sidebar_shown hf (i :: rest)) i
    · exact h
  | select index =>
    simp only [step]
    split_ifs
    · exact select_shown h index
    · exact h

/-- **What the user sees.** In any order of histories, messages, channel lists and clicks:
- the messages are the last of the last history and of what came since, 500 or as many as that history had;
- there is one element for each, in order, hidden exactly if its message is not on the active channel;
- the note that there are no messages stands only if none is on the active channel, as it does after a click;
- once a message or a history has come after the sidebar, each badge counts the messages of its channel; before, no
  badge says anything. -/
theorem panel_shows (as : List Act) :
    let p := run step init as
    p.allChatMessages = (p.loaded ++ p.appended).rtake (max 500 p.loaded.length) ∧
    p.elements = p.allChatMessages.map (elementOf p.activeChannel) ∧
    (p.emptyNote = true → ∀ m ∈ p.allChatMessages, m.channel ≠ p.activeChannel) ∧
    (∀ index, (p.selectChannel index).emptyNote = true ↔ ∀ m ∈ p.allChatMessages, m.channel ≠ index) ∧
    ∀ b ∈ p.buttons, b.badge = if p.badged then p.badgeText b.channel else none := by
  intro p
  have h : Shown p := run_inv_all (I := Shown) (fun _ a hs => step_shown hs a) as init_shown
  refine ⟨h.window, h.elements, h.note, fun index => ⟨(select_shown h index).note, fun hnone => ?_⟩, h.badges⟩
  have helements := (select_shown h index).elements
  show decide (((p.selectChannel index).elements.filter fun el => !el.hidden).length = 0) = true
  rw [helements]
  simpa [elementOf, Panel.selectChannel, Panel.applyChatFilter, List.filter_eq_nil_iff] using hnone

end MeshProxy.ChatPanel
