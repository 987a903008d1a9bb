/-
Reading HTML: the tokenizer of the HTML standard, as far as tags, attribute names and comments go.

`scan` reads a text from a state of the tokenizer and gives the tags it finishes, with their attribute names as they
stand in the text. A character reference is text, in content and in attribute values; a doctype ends like a bogus
comment. The switch to raw text after a start tag such as `<script>` is left out.

- `scan_append`: reading is compositional; `Clean` texts start and end in content and every `<` of them begins a tag;
- `scan_length_le`: no text has more tags than `<`;
- `tags_ne_of_breakout`: a double quote in what was meant to be a double-quoted value shows in the tags, when the value
  has no angle brackets;
- `tags_append_iff`: text put into content as it stands leaves the tags alone exactly when it stands for itself
  (`Contained`). It may end its element and hide the end tag behind it in a comment, for example.
Nothing here names the program under verification.
-/
import Mathlib.Tactic

namespace MeshProxy.Html

/-! ## The tokenizer -/

structure Tag where
  isEnd : Bool
  name : List Char
  attrs : List (List Char)
deriving DecidableEq, Repr

def Tag.push (t : Tag) (n : List Char) : Tag := { t with attrs := t.attrs ++ [n] }

/-- the states of the standard that matter here, with the tag under construction -/
inductive State where
  | data | tagOpen | endTagOpen
  | tagName (t : Tag)
  | beforeAttributeName (t : Tag)
  | attributeName (t : Tag) (n : List Char)
  | afterAttributeName (t : Tag)
  | beforeAttributeValue (t : Tag)
  | doubleQuoted (t : Tag)
  | singleQuoted (t : Tag)
  | unquoted (t : Tag)
  | afterAttributeValue (t : Tag)
  | selfClosing (t : Tag)
  | markupDeclaration | markupDash | bogusComment
  | commentStart | commentStartDash | comment | commentEndDash | commentEnd | commentEndBang
deriving DecidableEq, Repr

def isSpace (c : Char) : Bool := c = ' ' || c = '\n' || c = '\t' || c = '\r' || c = Char.ofNat 12

open State

/-- one character, with what the standard calls reconsuming worked out -/
def feed : State → Char → State × List Tag
  | data, c => (if c = '<' then tagOpen else data, [])
  | tagOpen, c =>
    (if c = '!' then markupDeclaration
      else if c = '/' then endTagOpen
      else if c.isAlpha then tagName ⟨false, [c.toLower], []⟩
      else if c = '?' then bogusComment
      else if c = '<' then tagOpen
      else data, [])
  | endTagOpen, c =>
    (if c.isAlpha then tagName ⟨true, [c.toLower], []⟩ else if c = '>' then data else bogusComment, [])
  | tagName t, c =>
    if c = '>' then (data, [t])
    else
      (if isSpace c then beforeAttributeName t
        else if c = '/' then selfClosing t
        else tagName { t with name := t.name ++ [c.toLower] }, [])
  | beforeAttributeName t, c =>
    if c = '>' then (data, [t])
    else
      (if isSpace c then beforeAttributeName t
        else if c = '/' then selfClosing t
        else attributeName t [c.toLower], [])
  | attributeName t n, c =>
    if c = '>' then (data, [t.push n])
    else
      (if isSpace c then afterAttributeName (t.push n)
        else if c = '/' then selfClosing (t.push n)
        else if c = '=' then beforeAttributeValue (t.push n)
        else attributeName t (n ++ [c.toLower]), [])
  | afterAttributeName t, c =>
    if c = '>' then (data, [t])
    else
      (if isSpace c then afterAttributeName t
        else if c = '/' then selfClosing t
        else if c = '=' then beforeAttributeValue t
        else attributeName t [c.toLower], [])
  | beforeAttributeValue t, c =>
    if c = '>' then (data, [t])
    else
      (if isSpace c then beforeAttributeValue t
        else if c = '"' then doubleQuoted t
        else if c = '\'' then singleQuoted t
        else unquoted t, [])
  | doubleQuoted t, c => (if c = '"' then afterAttributeValue t else doubleQuoted t, [])
  | singleQuoted t, c => (if c = '\'' then afterAttributeValue t else singleQuoted t, [])
  | unquoted t, c =>
    if c = '>' then (data, [t]) else (if isSpace c then beforeAttributeName t else unquoted t, [])
  | afterAttributeValue t, c =>
    if c = '>' then (data, [t])
    else
      (if isSpace c then beforeAttributeName t
        else if c = '/' then selfClosing t
        else attributeName t [c.toLower], [])
  | selfClosing t, c =>
    if c = '>' then (data, [t])
    else
      (if isSpace c then beforeAttributeName t
        else if c = '/' then selfClosing t
        else attributeName t [c.toLower], [])
  | markupDeclaration, c => (if c = '>' then data else if c = '-' then markupDash else bogusComment, [])
  | markupDash, c => (if c = '>' then data else if c = '-' then commentStart else bogusComment, [])
  | bogusComment, c => (if c = '>' then data else bogusComment, [])
  | commentStart, c => (if c = '>' then data else if c = '-' then commentStartDash else comment, [])
  | commentStartDash, c => (if c = '>' then data else if c = '-' then commentEnd else comment, [])
  | comment, c => (if c = '-' then commentEndDash else comment, [])
  | commentEndDash, c => (if c = '-' then commentEnd else comment, [])
  | commentEnd, c =>
    (if c = '>' then data else if c = '!' then commentEndBang else if c = '-' then commentEnd else comment, [])
  | commentEndBang, c => (if c = '>' then data else if c = '-' then commentEndDash else comment, [])

/-- read a text: the state at its end and the tags it finishes -/
def scan : State → List Char → State × List Tag
  | s, [] => (s, [])
  | s, c :: cs => ((scan (feed s c).1 cs).1, (feed s c).2 ++ (scan (feed s c).1 cs).2)

/-- the tags of a text; one that is unfinished at its end is dropped -/
def tags (html : String) : List Tag := (scan data html.toList).2

theorem scan_append (s : State) (a b : List Char) :
    scan s (a ++ b) = ((scan (scan s a).1 b).1, (scan s a).2 ++ (scan (scan s a).1 b).2) := by
  induction a generalizing s with
  | nil => simp [scan]
  | cons c a ih => simp [scan, ih]

/-- reading on after a text whose reading is known -/
theorem scan_append_of {s s' : State} {a : List Char} {T : List Tag} (h : scan s a = (s', T)) (b : List Char) :
    scan s (a ++ b) = ((scan s' b).1, T ++ (scan s' b).2) := by
  rw [scan_append, h]

/-- a state that no character of the text leaves -/
theorem scan_stay {s : State} {a : List Char} (h : ∀ c ∈ a, feed s c = (s, [])) : scan s a = (s, []) := by
  induction a with
  | nil => rfl
  | cons c a ih =>
    rw [scan, h c List.mem_cons_self]
    simp [ih fun d hd => h d (List.mem_cons_of_mem c hd)]

theorem scan_data {a : List Char} (h : '<' ∉ a) : scan data a = (data, []) := by
  apply scan_stay
  intro c hc
  have hne : c ≠ '<' := fun he => h (he ▸ hc)
  simp [feed, hne]

theorem scan_doubleQuoted (t : Tag) {a : List Char} (h : '"' ∉ a) : scan (doubleQuoted t) a = (doubleQuoted t, []) := by
  apply scan_stay
  intro c hc
  have hne : c ≠ '"' := fun he => h (he ▸ hc)
  simp [feed, hne]

theorem scan_singleQuoted (t : Tag) {a : List Char} (h : '\'' ∉ a) :
    scan (singleQuoted t) a = (singleQuoted t, []) := by
  apply scan_stay
  intro c hc
  have hne : c ≠ '\'' := fun he => h (he ▸ hc)
  simp [feed, hne]

/-! ## Tags and angle brackets -/

/-- a tag may be under way -/
def pending : State → ℕ
  | data | markupDeclaration | markupDash | bogusComment => 0
  | commentStart | commentStartDash | comment | commentEndDash | commentEnd | commentEndBang => 0
  | _ => 1

theorem feed_length_le (s : State) (c : Char) :
    (feed s c).2.length + pending (feed s c).1 ≤ (if c = '<' then 1 else 0) + pending s := by
  cases s <;> simp only [feed] <;> split_ifs <;> simp [pending]

/-- a text has at most as many tags as `<`, and the one under way -/
theorem scan_length_le (s : State) (a : List Char) :
    (scan s a).2.length + pending (scan s a).1 ≤ a.count '<' + pending s := by
  induction a generalizing s with
  | nil => simp [scan]
  | cons c a ih =>
    have hfeed := feed_length_le s c
    have hrest := ih (feed s c).1
    have hcount : (c :: a).count '<' = a.count '<' + if c = '<' then 1 else 0 := by simp [List.count_cons]
    simp only [scan, List.length_append]
    omega

/-! ## Clean texts -/

/-- the text starts and ends in content, its tags are `T`, and each `<` begins one of them -/
structure Clean (T : List Tag) (a : List Char) : Prop where
  scan : scan data a = (data, T)
  count : T.length = a.count '<'

theorem Clean.append {T U : List Tag} {a b : List Char} (ha : Clean T a) (hb : Clean U b) : Clean (T ++ U) (a ++ b) where
  scan := by rw [scan_append_of ha.scan, hb.scan]
  count := by rw [List.length_append, List.count_append, ha.count, hb.count]

/-- plain text between the tags -/
theorem clean_text {a : List Char} (h : '<' ∉ a) : Clean [] a := ⟨scan_data h, by simp [List.count_eq_zero.2 h]⟩

/-- a text without quotes and angle brackets changes nothing in these states -/
def takesText : State → Bool
  | data | doubleQuoted _ => true
  | _ => false

theorem scan_text {s : State} (hs : takesText s = true) {v : List Char} (hquote : '"' ∉ v) (hlt : '<' ∉ v) :
    scan s v = (s, []) := by
  cases s <;> first | exact scan_data hlt | exact scan_doubleQuoted _ hquote | cases hs

/-- the two texts read alike, and have as many `<` -/
structure Like (a b : List Char) : Prop where
  scan : scan data a = scan data b
  count : a.count '<' = b.count '<'

theorem Like.refl (a : List Char) : Like a a := ⟨rfl, rfl⟩

theorem Like.append {a b : List Char} (h : Like a b) (c : List Char) : Like (a ++ c) (b ++ c) where
  scan := by rw [scan_append, scan_append, h.scan]
  count := by rw [List.count_append, List.count_append, h.count]

/-- a value put where text may stand -/
theorem Like.value {a b v : List Char} (h : Like a b) (hin : takesText (Html.scan data b).1 = true) (hquote : '"' ∉ v)
    (hlt : '<' ∉ v) : Like (a ++ v) b where
  scan := by
    have hv := scan_text hin hquote hlt
    rw [scan_append, h.scan, hv, List.append_nil]
  count := by rw [List.count_append, List.count_eq_zero.2 hlt, h.count, add_zero]

theorem Like.clean {a b : List Char} {T : List Tag} (h : Like a b) (hb : Clean T b) : Clean T a where
  scan := by rw [h.scan, hb.scan]
  count := by rw [h.count, hb.count]

/-! ## Breaking out of a value -/

/-- in a tag, behind the value of its attribute number `k` -/
def Grown (k : ℕ) : State → Prop
  | beforeAttributeName t | afterAttributeValue t | selfClosing t => k ≤ t.attrs.length
  | attributeName t _ => k ≤ t.attrs.length
  | afterAttributeName t | beforeAttributeValue t | doubleQuoted t | singleQuoted t | unquoted t => k < t.attrs.length
  | _ => False

/-- without a `>` the tag goes on -/
theorem feed_grown {k : ℕ} {s : State} (h : Grown k s) {c : Char} (hc : c ≠ '>') :
    (feed s c).2 = [] ∧ Grown k (feed s c).1 := by
  cases s <;> simp only [Grown] at h <;> simp only [feed, if_neg hc] <;> split_ifs <;>
    simp only [Grown, Tag.push, List.length_append, List.length_singleton] <;> first | omega | exact ⟨trivial, by omega⟩

theorem scan_grown {k : ℕ} {s : State} (h : Grown k s) {a : List Char} (ha : '>' ∉ a) :
    (scan s a).2 = [] ∧ Grown k (scan s a).1 := by
  induction a generalizing s with
  | nil => exact ⟨rfl, h⟩
  | cons c a ih =>
    obtain ⟨hfeed, hgrown⟩ := feed_grown h (fun hc => ha (hc ▸ List.mem_cons_self))
    obtain ⟨hscan, hrest⟩ := ih hgrown fun hmem => ha (List.mem_cons_of_mem c hmem)
    exact ⟨by rw [scan, hfeed, hscan]; rfl, hrest⟩

theorem pending_grown {k : ℕ} {s : State} (h : Grown k s) : pending s = 1 := by
  cases s <;> first | rfl | exact absurd h (by simp [Grown])

/-- read from behind the value it should close, the text ends no tag, or it ends one with more attributes than `z` -/
def Shows (z : Tag) (k : ℕ) (close : List Char) : Prop :=
  ∀ s, Grown k s → ((scan s close).2 = [] ∧ Grown k (scan s close).1) ∨
    ∃ z', scan s close = (data, [z']) ∧ z.attrs.length < z'.attrs.length

/-- a value with a double quote is left behind its attribute -/
theorem scan_breakout (t : Tag) {value : List Char} (hquote : '"' ∈ value) (hgt : '>' ∉ value) :
    (scan (doubleQuoted t) value).2 = [] ∧ Grown t.attrs.length (scan (doubleQuoted t) value).1 := by
  obtain ⟨a, b, rfl, ha⟩ := List.eq_append_cons_of_mem hquote
  have hb : '>' ∉ b := fun h => hgt (by simp [h])
  have hgrown : Grown t.attrs.length (afterAttributeValue t) := le_rfl
  obtain ⟨htags, hstate⟩ := scan_grown hgrown hb
  rw [scan_append_of (scan_doubleQuoted t ha)]
  simpa [scan, feed] using And.intro htags hstate

/-- **Breaking out shows.** Two texts with the same tags up to a double-quoted value. In the first the value has a double
quote and no `>`, and plain text and a `<` follow behind the tag; in the second the value has none, and there are as many
tags as `<` in what follows. Then the tags differ. -/
theorem tags_ne_of_breakout {pre pre' openTag value value' close text rest rest' : List Char} {T : List Tag} {t z : Tag}
    (hpre : scan data pre = (data, T)) (hpre' : scan data pre' = (data, T))
    (hopen : scan data openTag = (doubleQuoted t, [])) (hquote : '"' ∈ value) (hgt : '>' ∉ value)
    (hquote' : '"' ∉ value') (hclose : scan (doubleQuoted t) close = (data, [z])) (hshows : Shows z t.attrs.length close)
    (htext : '>' ∉ text) (hcount : (scan data rest').2.length = (text ++ '<' :: rest).count '<') :
    (scan data (pre ++ (openTag ++ (value ++ (close ++ (text ++ '<' :: rest)))))).2 ≠
      (scan data (pre' ++ (openTag ++ (value' ++ (close ++ rest'))))).2 := by
  obtain ⟨hnone, hgrown⟩ := scan_breakout t hquote hgt
  rw [scan_append_of hpre, scan_append_of hopen, scan_append, hnone, scan_append, scan_append_of hpre',
    scan_append_of hopen, scan_append_of (scan_doubleQuoted t hquote'), scan_append_of hclose]
  generalize (scan (doubleQuoted t) value).1 = s at hgrown ⊢
  intro heq
  simp only [List.nil_append] at heq
  have heq := List.append_cancel_left heq
  rcases hshows s hgrown with ⟨hnone, hstill⟩ | ⟨z', hz', hlt⟩
  · -- the tag swallows a `<`
    obtain ⟨htextTags, htextGrown⟩ := scan_grown hstill htext
    obtain ⟨hltTags, hltGrown⟩ := feed_grown htextGrown (c := '<') (by decide)
    have hle := scan_length_le (feed (scan (scan s close).1 text).1 '<').1 rest
    have hlen := congrArg List.length heq
    rw [hnone, scan_append, htextTags, scan, hltTags] at hlen
    rw [pending_grown hltGrown] at hle
    simp only [List.nil_append, List.length_append, List.length_singleton, hcount, List.count_append,
      List.count_cons_self] at hlen
    omega
  · rw [hz'] at heq
    obtain rfl := (List.cons.inj heq).1
    exact lt_irrefl _ hlt

/-! ## Texts that close no comment -/

def inComment : State → Bool
  | commentStart | commentStartDash | comment | commentEndDash | commentEnd | commentEndBang => true
  | _ => false

/-- no `>` stands behind a dash or an exclamation mark; `d` says whether one is before the text -/
def keepsComment : Bool → List Char → Bool
  | _, [] => true
  | d, c :: cs => !(d && c = '>') && keepsComment (c = '-' || c = '!') cs

theorem keepsComment_mono {d : Bool} {a : List Char} (h : keepsComment true a = true) : keepsComment d a = true := by
  cases a with
  | nil => rfl
  | cons c a => cases d <;> simp_all [keepsComment]

theorem keepsComment_append {d : Bool} {a b : List Char} (ha : keepsComment d a = true)
    (hb : keepsComment true b = true) : keepsComment d (a ++ b) = true := by
  induction a generalizing d with
  | nil => exact keepsComment_mono hb
  | cons c a ih =>
    rw [keepsComment, Bool.and_eq_true] at ha
    rw [List.cons_append, keepsComment, Bool.and_eq_true]
    exact ⟨ha.1, ih ha.2⟩

theorem keepsComment_of_not_mem {d : Bool} {a : List Char} (h : '>' ∉ a) : keepsComment d a = true := by
  induction a generalizing d with
  | nil => rfl
  | cons c a ih =>
    have hc : c ≠ '>' := fun he => h (he ▸ List.mem_cons_self)
    rw [keepsComment, ih fun hmem => h (List.mem_cons_of_mem c hmem)]
    simp [hc]

theorem feed_comment {s : State} {d : Bool} (hs : inComment s = true) (hd : d = false → s = comment) {c : Char}
    (hc : (d && c = '>') = false) :
    (feed s c).2 = [] ∧ inComment (feed s c).1 = true ∧ ((c = '-' || c = '!') = false → (feed s c).1 = comment) := by
  by_cases hgt : c = '>'
  · subst hgt
    obtain rfl := hd (by simpa using hc)
    exact ⟨rfl, rfl, fun _ => rfl⟩
  · cases s <;> cases hs
    all_goals
      simp only [feed, if_neg hgt]
      split_ifs <;> simp_all [inComment]

/-- the reading of such a text stays in the comment -/
theorem scan_comment {s : State} {d : Bool} (hs : inComment s = true) (hd : d = false → s = comment) {a : List Char}
    (ha : keepsComment d a = true) : (scan s a).2 = [] ∧ inComment (scan s a).1 = true := by
  induction a generalizing s d with
  | nil => exact ⟨rfl, hs⟩
  | cons c a ih =>
    rw [keepsComment, Bool.and_eq_true, Bool.not_eq_true'] at ha
    obtain ⟨hnone, hin, hnext⟩ := feed_comment hs hd ha.1
    obtain ⟨hrest, hend⟩ := ih hin hnext ha.2
    exact ⟨by rw [scan, hnone, hrest]; rfl, hend⟩

/-! ## Text put into content as it stands -/

/-- the tag that has a value has an attribute for it -/
def Named : State → Prop
  | afterAttributeName t | beforeAttributeValue t | doubleQuoted t | singleQuoted t | unquoted t => t.attrs ≠ []
  | _ => True

theorem feed_named {s : State} (h : Named s) (c : Char) : Named (feed s c).1 := by
  cases s <;> simp only [feed] <;> split_ifs <;> simp_all [Named, Tag.push]

theorem scan_named {s : State} (h : Named s) (a : List Char) : Named (scan s a).1 := by
  induction a generalizing s with
  | nil => exact h
  | cons c a ih => exact ih (feed_named h c)

/-- a text whose first quoted tag, when a value is open before it, ends with more attributes than its own -/
def Catches (a : List Char) : Prop :=
  ∃ T y Q, scan data a = (data, T ++ y :: Q) ∧
    ∀ z : Tag, z.attrs ≠ [] → ∃ z', scan (doubleQuoted z) a = (data, z' :: Q) ∧ y.attrs.length < z'.attrs.length

theorem Catches.append {a b : List Char} (ha : Catches a) {U : List Tag} (hb : scan data b = (data, U)) :
    Catches (a ++ b) := by
  obtain ⟨T, y, Q, hscan, hz⟩ := ha
  refine ⟨T, y, Q ++ U, by rw [scan_append_of hscan, hb]; simp, fun z hne => ?_⟩
  obtain ⟨z', hscan', hlt⟩ := hz z hne
  exact ⟨z', by rw [scan_append_of hscan', hb]; rfl, hlt⟩

theorem Catches.after {a b : List Char} {U : List Tag} (ha : scan data a = (data, U)) (hquote : '"' ∉ a)
    (hb : Catches b) : Catches (a ++ b) := by
  obtain ⟨T, y, Q, hscan, hz⟩ := hb
  refine ⟨U ++ T, y, Q, by rw [scan_append_of ha, hscan]; simp, fun z hne => ?_⟩
  obtain ⟨z', hscan', hlt⟩ := hz z hne
  exact ⟨z', by rw [scan_append_of (scan_doubleQuoted z hquote), hscan']; rfl, hlt⟩

/-- A text that stands for itself where `following` is the list of tags behind it, the first of them `</span>`: it ends
in content with no tag; or it ends its own `</span>` and loses the one behind it, in a bogus comment; or it ends all
the tags itself and loses those behind it, in a comment or a single-quoted value. -/
def Contained (following : List Tag) (u : List Char) : Prop :=
  match scan data u with
  | (data, t) | (tagOpen, t) => t = []
  | (endTagOpen, t) | (markupDeclaration, t) | (markupDash, t) | (bogusComment, t) => t = following.take 1
  | (singleQuoted _, t) => t = following
  | (s, t) => inComment s = true ∧ t = following

instance (following : List Tag) (u : List Char) : Decidable (Contained following u) := by
  unfold Contained
  split <;> infer_instance

def spanEnd : List Char := ['<', '/', 's', 'p', 'a', 'n', '>']

/-- a tag that is open before `</span>` ends there, with an attribute -/
theorem scan_spanEnd {s : State} (hnamed : Named s) (hs : pending s = 1) (hopen : s ≠ tagOpen) (hend : s ≠ endTagOpen)
    (hdouble : ∀ t, s ≠ doubleQuoted t) (hsingle : ∀ t, s ≠ singleQuoted t) :
    ∃ z, scan s spanEnd = (data, [z]) ∧ z.attrs ≠ [] := by
  cases s <;> simp_all [pending, Named, spanEnd, scan, feed, isSpace, Tag.push]

/-- **Text put in as it stands.** `</span>` and more clean text follow, with a quoted tag, no single quote and nothing
that closes a comment. Then the tags are those of what follows exactly when the text stands for itself. -/
theorem tags_append_iff (u : List Char) {rest : List Char} {Q : List Tag}
    (hrest : scan data rest = (data, Q)) (hsingle : '\'' ∉ rest) (hkeeps : keepsComment true rest = true)
    (hcatches : Catches (spanEnd ++ rest)) :
    (scan data (u ++ (spanEnd ++ rest))).2 = (scan data (spanEnd ++ rest)).2 ↔
      Contained (scan data (spanEnd ++ rest)).2 u := by
  obtain ⟨e, hend, heattrs⟩ : ∃ e, scan data spanEnd = (data, [e]) ∧ e.attrs = [] := ⟨_, rfl, rfl⟩
  have hwhole : scan data (spanEnd ++ rest) = (data, e :: Q) := by rw [scan_append_of hend, hrest]; rfl
  have hnamed : Named (scan data u).1 := scan_named (s := data) trivial u
  rw [Contained, scan_append, hwhole]
  generalize scan data u = r at hnamed ⊢
  obtain ⟨s, t⟩ := r
  -- in a comment nothing more is read, in a bogus one the first tag is lost
  have hcomment (hs : inComment s = true) :
      t ++ (scan s (spanEnd ++ rest)).2 = e :: Q ↔ inComment s = true ∧ t = e :: Q := by
    have hall : keepsComment true (spanEnd ++ rest) = true := keepsComment_append (by decide) hkeeps
    rw [(scan_comment hs (fun h => by cases h) hall).1, List.append_nil, and_iff_right hs]
  have hbogus (hs : scan s spanEnd = (data, [])) :
      t ++ (scan s (spanEnd ++ rest)).2 = e :: Q ↔ t = (e :: Q).take 1 := by
    rw [scan_append_of hs, hrest]
    show t ++ Q = [e] ++ Q ↔ t = [e]
    exact List.append_left_inj Q
  -- a tag that is open at the end of the text shows
  have htag (hs : pending s = 1) (hopen : s ≠ tagOpen) (hendOpen : s ≠ endTagOpen) (hdouble : ∀ z, s ≠ doubleQuoted z)
      (hquoted : ∀ z, s ≠ singleQuoted z) : t ++ (scan s (spanEnd ++ rest)).2 ≠ e :: Q := by
    obtain ⟨z, hz, hattrs⟩ := scan_spanEnd hnamed hs hopen hendOpen hdouble hquoted
    rw [scan_append_of hz, hrest]
    intro heq
    have heq : (t ++ [z]) ++ Q = ([] ++ [e]) ++ Q := by simpa using heq
    obtain ⟨-, heq⟩ := List.append_inj' (List.append_cancel_right heq) rfl
    obtain rfl := List.singleton_inj.1 heq
    exact hattrs heattrs
  have hdata : t ++ (scan data (spanEnd ++ rest)).2 = e :: Q ↔ t = [] := by simp [hwhole]
  cases s with
  | data => exact hdata
  | tagOpen => exact hdata
  | endTagOpen => exact hbogus rfl
  | markupDeclaration => exact hbogus rfl
  | markupDash => exact hbogus rfl
  | bogusComment => exact hbogus rfl
  | singleQuoted z =>
    have hall : '\'' ∉ spanEnd ++ rest := by simp [spanEnd, hsingle]
    rw [scan_singleQuoted z hall, List.append_nil]
  | doubleQuoted z =>
    -- the first quoted tag behind the text takes its place with more attributes
    obtain ⟨T, y, R, hscan, hz⟩ := hcatches
    obtain ⟨z', hz', hlt⟩ := hz z hnamed
    rw [hwhole] at hscan
    rw [hz', (Prod.mk.inj hscan).2]
    refine iff_of_false (fun heq => ?_) (fun h => by cases h.1)
    have heq : (t ++ [z']) ++ R = (T ++ [y]) ++ R := by simpa using heq
    obtain ⟨-, heq⟩ := List.append_inj' (List.append_cancel_right heq) rfl
    obtain rfl := List.singleton_inj.1 heq
    exact lt_irrefl _ hlt
  | commentStart => exact hcomment rfl
  | commentStartDash => exact hcomment rfl
  | comment => exact hcomment rfl
  | commentEndDash => exact hcomment rfl
  | commentEnd => exact hcomment rfl
  | commentEndBang => exact hcomment rfl
  | _ => exact iff_of_false (htag rfl nofun nofun nofun nofun) fun h => by cases h.1

end MeshProxy.Html
