/-
Markup injection: when the strings of a node or a message change the tags of the HTML the dashboard builds from them.

The escape is the same for every context. It keeps a string out of the tags where the string is content; in a
`title="…"` a double quote gets out. The popup puts the user id in with no escape at all. A record is compared with the
same record with letters in place of each string that is not empty (`Harmless`, `HarmlessMessage`):

- `SameTags` and `Broken` pieces: the first keep the tags of what they stand in the same, the second do not, whatever
  stands around them (`broken_title` for a title with a double quote);
- `nodeName_iff`, `buildNodeRow_iff`, `messageRow_iff`: the tags are the same exactly when no double quote is in a title;
- `nodePopupHTML_iff`: they are the same exactly when the user id stands for itself (`Contained`);
- `same_markup_iff`: the four together.

The hardware model and the role are names of enum values, which the server writes; the strings of a radio node are the
three names and the payload.
-/
import MeshProxy.Web.Pieces
import MeshProxy.Web.Totality

namespace MeshProxy.Markup

open MeshProxy.Binary32 MeshProxy.Dashboard MeshProxy.Html

/-! ## Harmless records -/

/-- a harmless letter string -/
def Letters (s : String) : Prop := s ≠ "" ∧ ∀ c ∈ s.toList, c.isAlpha = true

/-- letters in the place of a string that is not empty -/
def Replaced (x x' : Option String) : Prop := if truthy x then ∃ s, x' = some s ∧ Letters s else x' = x

/-- the node's entry with its three strings replaced; equal names stay equal and different ones different -/
structure Harmless (e e' : JsNode) : Prop where
  shortName : Replaced e.shortName e'.shortName
  longName : Replaced e.longName e'.longName
  userID : Replaced e.userID e'.userID
  names : e'.longName = e'.shortName ↔ e.longName = e.shortName
  rest : e' = { e with shortName := e'.shortName, longName := e'.longName, userID := e'.userID }

def HarmlessDir (nodeDir nodeDir' : UInt32 → Option JsNode) : Prop :=
  ∀ n, Option.Rel Harmless (nodeDir n) (nodeDir' n)

structure HarmlessMessage (msg msg' : JsMessage) : Prop where
  payload : Replaced (some msg.payload) (some msg'.payload)
  rest : msg' = { msg with payload := msg'.payload }

theorem truthy_some (s : String) : truthy (some s) = true ↔ s ≠ "" := by simp [truthy, JsonValue.isEmpty]

theorem readField_of_not_truthy {x : Option String} (h : truthy x = false) : readField x = "" := by
  cases x with
  | none => rfl
  | some s =>
    by_contra hne
    exact absurd ((truthy_some s).2 hne) (by simp [h])

theorem Letters.plain {s : String} (h : Letters s) : Plain s := by
  intro c hc
  have halpha := h.2 c hc
  by_contra hspecial
  have hc : c = '<' ∨ c = '>' ∨ c = '"' ∨ c = '\'' ∨ c = '&' := by
    simp only [isPlain, Bool.and_eq_true, decide_eq_true_eq] at hspecial
    tauto
  rcases hc with rfl | rfl | rfl | rfl | rfl <;> exact absurd halpha (by decide)

theorem Replaced.truthy_eq {x x' : Option String} (h : Replaced x x') : truthy x' = truthy x := by
  unfold Replaced at h
  split_ifs at h with hx
  · obtain ⟨s, rfl, hs⟩ := h
    rw [hx, (truthy_some s).2 hs.1]
  · rw [h]

/-- whatever the replaced field was, it has plain text now -/
theorem Replaced.plain {x x' : Option String} (h : Replaced x x') : Plain (readField x') := by
  unfold Replaced at h
  split_ifs at h with hx
  · obtain ⟨s, rfl, hs⟩ := h
    exact hs.plain
  · have hempty : Plain "" := by decide
    rw [h, readField_of_not_truthy (Bool.not_eq_true _ ▸ hx)]
    exact hempty

/-! ## Pieces with a string in them -/

/-- the two pieces are clean and have the same tags -/
def SameTags (html html' : String) : Prop := ∃ T, Clean T html.toList ∧ Clean T html'.toList

/-- the second piece is clean and has as many tags as the first has `<` -/
def SameCount (html html' : String) : Prop := ∃ T, T.length = html.toList.count '<' ∧ Clean T html'.toList

/-- the tags differ whatever stands around the pieces -/
def Broken (html html' : String) : Prop :=
  ∀ pre pre' post post', SameTags pre pre' → SameCount post post' →
    tags (pre ++ html ++ post) ≠ tags (pre' ++ html' ++ post')

variable {a a' c c' : String}

theorem Whole.same (h : Whole a) : SameTags a a := by
  obtain ⟨T, hT⟩ := h
  exact ⟨T, hT, hT⟩

theorem SameTags.append (ha : SameTags a a') (hc : SameTags c c') : SameTags (a ++ c) (a' ++ c') := by
  obtain ⟨T, hT, hT'⟩ := ha
  obtain ⟨U, hU, hU'⟩ := hc
  refine ⟨T ++ U, ?_, ?_⟩
  · rw [String.toList_append]
    exact hT.append hU
  · rw [String.toList_append]
    exact hT'.append hU'

theorem SameTags.count (h : SameTags a a') : SameCount a a' := by
  obtain ⟨T, hT, hT'⟩ := h
  exact ⟨T, hT.count, hT'⟩

theorem SameTags.tags_eq (h : SameTags a a') : tags a = tags a' := by
  obtain ⟨T, hT, hT'⟩ := h
  rw [tags, tags, hT.scan, hT'.scan]

theorem SameCount.append (ha : SameCount a a') (hc : SameCount c c') : SameCount (a ++ c) (a' ++ c') := by
  obtain ⟨T, hT, hT'⟩ := ha
  obtain ⟨U, hU, hU'⟩ := hc
  refine ⟨T ++ U, ?_, ?_⟩
  · rw [String.toList_append, List.count_append, List.length_append, hT, hU]
  · rw [String.toList_append]
    exact hT'.append hU'

theorem Broken.append (ha : Broken a a') (hc : SameCount c c') : Broken (a ++ c) (a' ++ c') := by
  intro pre pre' post post' hpre hpost
  have hbroken := ha pre pre' (c ++ post) (c' ++ post') hpre (hc.append hpost)
  simpa only [String.append_assoc] using hbroken

theorem Broken.after (ha : SameTags a a') (hc : Broken c c') : Broken (a ++ c) (a' ++ c') := by
  intro pre pre' post post' hpre hpost
  have hbroken := hc (pre ++ a) (pre' ++ a') post post' (hpre.append ha) hpost
  simpa only [String.append_assoc] using hbroken

theorem whole_empty : Whole "" := whole_text (by simp)

theorem Broken.tags_ne (h : Broken a a') : tags a ≠ tags a' := by
  have hbroken := h "" "" "" "" whole_empty.same whole_empty.same.count
  simpa only [String.empty_append, String.append_empty] using hbroken

theorem sameTags_text (h : '<' ∉ a.toList) (h' : '<' ∉ a'.toList) : SameTags a a' := ⟨[], clean_text h, clean_text h'⟩

theorem sameTags_esc (s s' : String) : SameTags (esc s) (esc s') := sameTags_text (lt_not_mem_esc s) (lt_not_mem_esc s')

theorem sameTags_onlyIf (p : Bool) (h : SameTags a a') : SameTags (onlyIf p a) (onlyIf p a') := by
  cases p
  · exact whole_empty.same
  · exact h

theorem sameTags_around {cs ds : List Char} (hcs : isWhole cs = true) (h : SameTags a a') (hds : isWhole ds = true) :
    SameTags (String.ofList cs ++ a ++ String.ofList ds) (String.ofList cs ++ a' ++ String.ofList ds) :=
  ((whole_lit hcs).same.append h).append (whole_lit hds).same

/-! ## A title -/

/-- the piece opens the title of a tag, the text ends the tag: when the title is left early it has an attribute more -/
structure Title (a : String) (close : List Char) (t z : Tag) : Prop where
  opens : scan .data a.toList = (.doubleQuoted t, [])
  closes : scan (.doubleQuoted t) close = (.data, [z])
  count : a.toList.count '<' + close.count '<' = 1
  shows : Shows z t.attrs.length close

section Title

variable {a : String} {close es : List Char} {t z : Tag} {v v' text text' : String}

theorem Reads.title {cs : List Char} (h : Reads a cs) (hopens : scan .data cs = (.doubleQuoted t, []))
    (hcloses : scan (.doubleQuoted t) close = (.data, [z])) (hcount : cs.count '<' + close.count '<' = 1)
    (hshows : Shows z t.attrs.length close) : Title a close t z where
  opens := by rw [Like.scan h, hopens]
  closes := hcloses
  count := by rw [Like.count h, hcount]
  shows := hshows

theorem Title.count_eq (h : Title a close t z) (hlt : '<' ∉ v.toList) :
    (a ++ v ++ String.ofList close).toList.count '<' = 1 := by
  simp only [String.toList_append, String.toList_ofList, List.count_append, List.count_eq_zero.2 hlt, add_zero, h.count]

theorem Title.clean (h : Title a close t z) (hv : '"' ∉ v.toList) (hlt : '<' ∉ v.toList) :
    Clean [z] (a ++ v ++ String.ofList close).toList where
  scan := by
    rw [String.toList_append, String.toList_append, String.toList_ofList, List.append_assoc, scan_append_of h.opens,
      scan_append_of (scan_doubleQuoted t hv), h.closes]
    rfl
  count := (h.count_eq hlt).symm

theorem sameTags_title (h : Title a close t z) (hv : '"' ∉ v.toList) (hv' : '"' ∉ v'.toList) (hlt : '<' ∉ v.toList)
    (hlt' : '<' ∉ v'.toList) : SameTags (a ++ v ++ String.ofList close) (a ++ v' ++ String.ofList close) :=
  ⟨[z], h.clean hv hlt, h.clean hv' hlt'⟩

/-- the tags behind a title are as many, whatever is in it -/
theorem sameCount_title (h : Title a close t z) (hv' : '"' ∉ v'.toList) (hlt : '<' ∉ v.toList) (hlt' : '<' ∉ v'.toList) :
    SameCount (a ++ v ++ String.ofList close) (a ++ v' ++ String.ofList close) :=
  ⟨[z], (h.count_eq hlt).symm, h.clean hv' hlt'⟩

/-- **A double quote gets out of a title.** -/
theorem broken_title (h : Title a close t z) (hquote : '"' ∈ v.toList) (hgt : '>' ∉ v.toList) (hv' : '"' ∉ v'.toList)
    (hgtText : '>' ∉ text.toList) (htext : SameTags text text') (hes : isWhole ('<' :: es) = true) :
    Broken (a ++ v ++ String.ofList close ++ text ++ String.ofList ('<' :: es))
      (a ++ v' ++ String.ofList close ++ text' ++ String.ofList ('<' :: es)) := by
  intro pre pre' post post' ⟨T, hT, hT'⟩ hpost
  obtain ⟨U, hcount, hU⟩ := (htext.append (whole_lit hes).same).count.append hpost
  simp only [String.toList_append, String.toList_ofList, List.append_assoc, List.cons_append] at hcount hU
  have hcountTags : (scan .data (text'.toList ++ '<' :: (es ++ post'.toList))).2.length =
      (text.toList ++ '<' :: (es ++ post.toList)).count '<' := by rw [hU.scan, hcount]
  have hne := tags_ne_of_breakout hT.scan hT'.scan h.opens hquote hgt hv' h.closes h.shows hgtText hcountTags
  simpa only [tags, String.toList_append, String.toList_ofList, List.append_assoc, List.cons_append] using hne

end Title

/-- the end of a tag behind a value that is closed already -/
theorem shows_tagEnd {z : Tag} {k : ℕ} (hz : z.attrs.length = k) : Shows z k ['"', '>'] := by
  intro s hs
  subst hz
  cases s <;> simp only [Grown] at hs <;> simp [scan, feed, isSpace, Tag.push, Grown] <;> omega

def classEnd : List Char :=
  [')', '"', ' ', 'c', 'l', 'a', 's', 's', '=', '"', 'c', 'u', 'r', 's', 'o', 'r', '-', 'h', 'e', 'l', 'p', '"', '>']

/-- the same with a parenthesis and a class before it -/
theorem shows_classEnd {z : Tag} {k : ℕ} (hz : z.attrs.length = k + 1) : Shows z k classEnd := by
  intro s hs
  cases s <;> simp only [Grown] at hs <;> simp [classEnd, scan, feed, isSpace, Tag.push, Grown] <;> omega

/-! ## Names -/

/-- the long name in the title is without double quotes, when there is a title -/
def SafeName (nodeDir : UInt32 → Option JsNode) (n : UInt32) : Prop :=
  ∀ entry, n ≠ 0 → named nodeDir n = some entry → '"' ∉ (readField entry.longName).toList

theorem named_harmless {nodeDir nodeDir' : UInt32 → Option JsNode} (h : HarmlessDir nodeDir nodeDir') (n : UInt32) :
    Option.Rel Harmless (named nodeDir n) (named nodeDir' n) := by
  have hn := h n
  unfold named
  generalize nodeDir n = x, nodeDir' n = x' at hn ⊢
  cases hn with
  | none => exact .none
  | @some e e' he =>
    show Option.Rel Harmless (if truthy e.shortName then some e else none) (if truthy e'.shortName then some e' else none)
    rw [he.shortName.truthy_eq]
    split
    · exact .some he
    · exact .none

theorem noQuote_esc {s : String} (h : '"' ∉ s.toList) : '"' ∉ (esc s).toList := fun hmem => h ((quote_mem_esc s).1 hmem)

theorem Replaced.noQuote {x x' : Option String} (h : Replaced x x') : '"' ∉ (esc (readField x')).toList :=
  noQuote_esc (h.plain.not_mem rfl)

theorem title_nodeName (n : UInt32) :
    Title ("<span title=\"" ++ esc (nodeHex n) ++ " (") classEnd ⟨false, "span".toList, ["title".toList]⟩
      ⟨false, "span".toList, ["title".toList, "class".toList]⟩ := by
  have hhex := noQuote_esc ((plain_nodeHex n).not_mem rfl)
  refine Reads.title (reads_lit.text ?_ hhex (lt_not_mem_esc _)).lit ?_ ?_ ?_ (shows_classEnd rfl)
  · decide
  · rfl
  · rfl
  · decide

/-- a name with its title -/
def nameSpan (n : UInt32) (entry : JsNode) : String :=
  "<span title=\"" ++ esc (nodeHex n) ++ " (" ++ esc (readField entry.longName) ++ ")\" class=\"cursor-help\">" ++
    esc (readField entry.shortName) ++ "</span>"

section Name

variable {nodeDir nodeDir' : UInt32 → Option JsNode} (h : HarmlessDir nodeDir nodeDir') (n : UInt32)
include h

/-- what a name is: a piece without the node's strings, or a span with a title in both directories -/
theorem nodeName_cases :
    (nodeName nodeDir n = nodeName nodeDir' n ∧ Whole (nodeName nodeDir n) ∧ SafeName nodeDir n) ∨
      ∃ e e', Harmless e e' ∧ nodeName nodeDir n = nameSpan n e ∧ nodeName nodeDir' n = nameSpan n e' ∧
        (SafeName nodeDir n ↔ '"' ∉ (readField e.longName).toList) := by
  by_cases hn : n = 0
  · refine .inl ⟨by rw [nodeName, nodeName, if_pos hn, if_pos hn], ?_, fun _ hne => absurd hn hne⟩
    rw [nodeName, if_pos hn]
    exact whole_empty
  · have hnamed := named_harmless h n
    generalize hx : named nodeDir n = x, hx' : named nodeDir' n = x' at hnamed
    cases hnamed with
    | none =>
      refine .inl ⟨by rw [nodeName, nodeName, hx, hx'], ?_, fun entry _ hentry => by rw [hx] at hentry; cases hentry⟩
      rw [nodeName, if_neg hn, hx]
      exact whole_around (by decide) (whole_esc _) (by decide)
    | @some e e' he =>
      refine .inr ⟨e, e', he, by rw [nodeName, if_neg hn, hx]; rfl, by rw [nodeName, if_neg hn, hx']; rfl, ?_, ?_⟩
      · exact fun hsafe => hsafe e hn hx
      · intro hquote entry _ hentry
        rw [hx] at hentry
        obtain rfl := Option.some.inj hentry
        exact hquote

theorem nodeName_sameTags (hsafe : SafeName nodeDir n) : SameTags (nodeName nodeDir n) (nodeName nodeDir' n) := by
  rcases nodeName_cases h n with ⟨heq, hwhole, -⟩ | ⟨e, e', he, heq, heq', hiff⟩
  · rw [← heq]
    exact hwhole.same
  · rw [heq, heq']
    have htitle := sameTags_title (title_nodeName n) (noQuote_esc (hiff.1 hsafe)) he.longName.noQuote (lt_not_mem_esc _)
      (lt_not_mem_esc _)
    exact (htitle.append (sameTags_esc _ _)).append (whole_lit (by decide)).same

theorem nodeName_sameCount : SameCount (nodeName nodeDir n) (nodeName nodeDir' n) := by
  rcases nodeName_cases h n with ⟨heq, hwhole, -⟩ | ⟨e, e', he, heq, heq', -⟩
  · rw [← heq]
    exact hwhole.same.count
  · rw [heq, heq']
    have htitle := sameCount_title (title_nodeName n) he.longName.noQuote (lt_not_mem_esc (readField e.longName))
      (lt_not_mem_esc _)
    exact (htitle.append (sameTags_esc _ _).count).append (whole_lit (by decide)).same.count

theorem nodeName_broken (hsafe : ¬ SafeName nodeDir n) : Broken (nodeName nodeDir n) (nodeName nodeDir' n) := by
  rcases nodeName_cases h n with ⟨-, -, hyes⟩ | ⟨e, e', he, heq, heq', hiff⟩
  · exact absurd hyes hsafe
  · rw [heq, heq']
    have hquote := not_not.1 (mt hiff.2 hsafe)
    exact broken_title (title_nodeName n) ((quote_mem_esc _).2 hquote) (gt_not_mem_esc _) he.longName.noQuote
      (gt_not_mem_esc _) (sameTags_esc _ _) (by decide)

theorem nodeName_iff : tags (nodeName nodeDir n) = tags (nodeName nodeDir' n) ↔ SafeName nodeDir n := by
  constructor
  · intro heq
    by_contra hsafe
    exact (nodeName_broken h n hsafe).tags_ne heq
  · exact fun hsafe => (nodeName_sameTags h n hsafe).tags_eq

end Name

/-! ## A row of the node table -/

/-- the long name in the title is without double quotes, when there is a title -/
def SafeTitle (entry : JsNode) : Prop := truthy entry.shortName → '"' ∉ (readField entry.longName).toList

theorem title_nameCell : Title "<span class=\"font-semibold text-gray-100\" title=\"" ['"', '>']
    ⟨false, "span".toList, ["class".toList, "title".toList]⟩ ⟨false, "span".toList, ["class".toList, "title".toList]⟩ := by
  refine Reads.title reads_lit ?_ ?_ ?_ (shows_tagEnd rfl)
  · rfl
  · rfl
  · decide

section Row

variable {e e' : JsNode} (he : Harmless e e')

theorem sameTags_idCell (num : UInt32) : SameTags (idCell num e) (idCell num e') :=
  sameTags_around (by decide) (sameTags_esc _ _) (by decide)

include he

/-- a piece without the node's strings -/
theorem Harmless.same {f : JsNode → String}
    (hf : ∀ shortName longName userID, f { e with shortName, longName, userID } = f e) (h : Whole (f e)) :
    SameTags (f e) (f e') := by
  have heq : f e' = f e := (congrArg f he.rest).trans (hf _ _ _)
  rw [heq]
  exact h.same

theorem sameTags_longName :
    SameTags (onlyIf (truthy e.longName && e.longName ≠ e.shortName)
        (" <span class=\"text-gray-500 text-[11px]\">" ++ esc (readField e.longName) ++ "</span>"))
      (onlyIf (truthy e'.longName && e'.longName ≠ e'.shortName)
        (" <span class=\"text-gray-500 text-[11px]\">" ++ esc (readField e'.longName) ++ "</span>")) := by
  have hne : decide (e'.longName ≠ e'.shortName) = decide (e.longName ≠ e.shortName) :=
    decide_eq_decide.2 (not_congr he.names)
  rw [he.longName.truthy_eq, hne]
  exact sameTags_onlyIf _ (sameTags_around (by decide) (sameTags_esc _ _) (by decide))

theorem sameTags_dot : SameTags
    (onlyIf (truthy e.seenRealtime) "<span class=\"nodes-rt-dot\" title=\"Seen in real-time\"></span>")
    (onlyIf (truthy e'.seenRealtime) "<span class=\"nodes-rt-dot\" title=\"Seen in real-time\"></span>") := by
  have hdot : Whole "<span class=\"nodes-rt-dot\" title=\"Seen in real-time\"></span>" := whole_lit (by decide)
  rw [he.rest]
  exact (whole_onlyIf _ hdot).same

theorem nameCell_sameTags (num : UInt32) (hsafe : SafeTitle e) : SameTags (nameCell num e) (nameCell num e') := by
  refine (sameTags_dot he).append ?_
  rw [he.shortName.truthy_eq]
  split_ifs with hshort
  · have htitle := sameTags_title title_nameCell (noQuote_esc (hsafe hshort)) he.longName.noQuote (lt_not_mem_esc _)
      (lt_not_mem_esc _)
    exact ((htitle.append (sameTags_esc _ _)).append (whole_lit (by decide)).same).append (sameTags_longName he)
  · exact (whole_around (by decide) (whole_esc _) (by decide)).same

theorem nameCell_broken (num : UInt32) (hsafe : ¬ SafeTitle e) : Broken (nameCell num e) (nameCell num e') := by
  obtain ⟨hshort, hquote⟩ : truthy e.shortName = true ∧ '"' ∈ (readField e.longName).toList := by
    simpa [SafeTitle] using hsafe
  refine Broken.after (sameTags_dot he) ?_
  rw [he.shortName.truthy_eq, if_pos hshort, if_pos hshort]
  refine Broken.append ?_ (sameTags_longName he).count
  exact broken_title title_nameCell ((quote_mem_esc _).2 hquote) (gt_not_mem_esc _) he.longName.noQuote
    (gt_not_mem_esc _) (sameTags_esc _ _) (by decide)

/-- what holds of the row up to the name holds of the whole row -/
theorem row_of_name (b : Browser) (ts : Trace) (num : UInt32) {R : String → String → Prop}
    (happend : ∀ {x x' y y'}, R x x' → SameTags y y' → R (x ++ y) (x' ++ y'))
    (hname : R (nameCell num e) (nameCell num e'))
    (hafter : ∀ {x y y'}, Whole x → R y y' → R (x ++ y) (x ++ y')) {row row' : String}
    (hrow : buildNodeRow b ts num e = some row) (hrow' : buildNodeRow b ts num e' = some row') : R row row' := by
  have hcell {x x' c c' : String} {cs ds : List Char} (hx : R x x') (hcs : isWhole cs = true) (hc : SameTags c c')
      (hds : isWhole ds = true) :
      R (x ++ String.ofList cs ++ c ++ String.ofList ds) (x' ++ String.ofList cs ++ c' ++ String.ofList ds) :=
    happend (happend (happend hx (whole_lit hcs).same) hc) (whole_lit hds).same
  have hcoords : coordCell b e' = coordCell b e := by rw [he.rest]; rfl
  unfold buildNodeRow at hrow hrow'
  rw [hcoords] at hrow'
  simp only [Option.bind_eq_bind, Option.bind_eq_some_iff, Option.some.injEq] at hrow hrow'
  obtain ⟨coords, hcell', rfl⟩ := hrow
  obtain ⟨coords', hcell'', rfl⟩ := hrow'
  obtain rfl := Option.some.inj (hcell'.symm.trans hcell'')
  have hstart : Whole ("<tr class=\"hover:bg-gray-800/30 transition-colors\" data-nodenum=\"" ++ toString num.toNat ++
      "\">" ++ "<td class=\"nodes-td\">") :=
    (reads_lit.value (by decide) (plain_nat _)).lit.lit.whole (by decide)
  -- from the last cell to the first
  refine hcell ?_ (by decide) (whole_actionsCell ts num).same (by decide)
  refine hcell ?_ (by decide) (whole_coordCell b hcell').same (by decide)
  refine hcell ?_ (by decide) (he.same (fun _ _ _ => rfl) (whole_battCell b e)) (by decide)
  refine hcell ?_ (by decide) (he.same (fun _ _ _ => rfl) (whole_snrCell b e)) (by decide)
  refine hcell ?_ (by decide) (he.same (fun _ _ _ => rfl) (whole_rssiCell e)) (by decide)
  refine hcell ?_ (by decide) (he.same (fun _ _ _ => rfl) (whole_hopsCell e)) (by decide)
  refine hcell ?_ (by decide) (he.same (fun _ _ _ => rfl) (whole_lhCell b e)) (by decide)
  refine hcell ?_ (by decide) (he.same (fun _ _ _ => rfl) (whole_roleCell e)) (by decide)
  refine hcell ?_ (by decide) (he.same (fun _ _ _ => rfl) (whole_hwCell e)) (by decide)
  refine hcell ?_ (by decide) (sameTags_idCell num) (by decide)
  refine happend (happend (hafter hstart hname) ?_) (whole_lit (by decide)).same
  exact he.same (fun _ _ _ => rfl) (whole_badges e)

theorem buildNodeRow_iff (b : Browser) (ts : Trace) (num : UInt32) :
    (buildNodeRow b ts num e).map tags = (buildNodeRow b ts num e').map tags ↔ (Located e → SafeTitle e) := by
  have hsome := buildNodeRow_isSome (e := e) b ts num
  have hsome' := buildNodeRow_isSome (e := e') b ts num
  have hlocated : Located e' ↔ Located e := by rw [he.rest]; rfl
  rw [hlocated] at hsome'
  cases hrow : buildNodeRow b ts num e with
  | none =>
    have hnot : ¬ Located e := by rw [← hsome, hrow]; simp
    have hrow' : buildNodeRow b ts num e' = none := by
      rw [← Option.not_isSome_iff_eq_none, hsome']
      exact hnot
    rw [hrow']
    exact iff_of_true rfl fun h => absurd h hnot
  | some row =>
    have hloc : Located e := by rw [← hsome, hrow]; rfl
    obtain ⟨row', hrow'⟩ := Option.isSome_iff_exists.1 (hsome'.2 hloc)
    rw [hrow', Option.map_some, Option.map_some, Option.some_inj]
    constructor
    · intro heq _
      by_contra hsafe
      have hbroken : Broken row row' := row_of_name he b ts num (fun hx hy => hx.append hy.count)
        (nameCell_broken he num hsafe) (fun hx hy => Broken.after hx.same hy) hrow hrow'
      exact hbroken.tags_ne heq
    · intro hsafe
      have hsame : SameTags row row' := row_of_name he b ts num SameTags.append (nameCell_sameTags he num (hsafe hloc))
        (fun hx hy => hx.same.append hy) hrow hrow'
      exact hsame.tags_eq

end Row

/-! ## A row of the message table -/

section Message

theorem HarmlessMessage.noQuote {msg msg' : JsMessage} (h : HarmlessMessage msg msg') : '"' ∉ (esc msg'.payload).toList :=
  h.payload.noQuote

set_option maxRecDepth 2000 in
theorem title_payload :
    Title "\n            <td class=\"px-3 py-1.5 border-b border-gray-800/50 max-w-xs truncate\" title=\"" ['"', '>']
      ⟨false, "td".toList, ["class".toList, "title".toList]⟩ ⟨false, "td".toList, ["class".toList, "title".toList]⟩ := by
  refine Reads.title reads_lit ?_ ?_ ?_ (shows_tagEnd rfl)
  · rfl
  · rfl
  · decide

theorem payloadCell_sameTags {payload payload' : String} (h : '"' ∉ payload.toList) (h' : '"' ∉ payload'.toList) :
    SameTags (payloadCell payload) (payloadCell payload') := by
  have htitle := sameTags_title title_payload (noQuote_esc h) (noQuote_esc h') (lt_not_mem_esc _) (lt_not_mem_esc _)
  exact ((htitle.append (whole_lit (by decide)).same).append (sameTags_esc _ _)).append (whole_lit (by decide)).same

theorem payloadCell_sameCount (payload : String) {payload' : String} (h' : '"' ∉ payload'.toList) :
    SameCount (payloadCell payload) (payloadCell payload') := by
  have htitle := sameCount_title title_payload (noQuote_esc h') (lt_not_mem_esc payload) (lt_not_mem_esc _)
  exact ((htitle.append (whole_lit (by decide)).same.count).append (sameTags_esc _ _).count).append
    (whole_lit (by decide)).same.count

theorem payloadCell_broken {payload payload' : String} (h : '"' ∈ payload.toList) (h' : '"' ∉ payload'.toList) :
    Broken (payloadCell payload) (payloadCell payload') := by
  have htitle : Broken
      ("\n            <td class=\"px-3 py-1.5 border-b border-gray-800/50 max-w-xs truncate\" title=\"" ++ esc payload ++
        "\">" ++ "" ++ "<span class=\"text-xs text-gray-300\">")
      ("\n            <td class=\"px-3 py-1.5 border-b border-gray-800/50 max-w-xs truncate\" title=\"" ++ esc payload' ++
        "\">" ++ "" ++ "<span class=\"text-xs text-gray-300\">") :=
    broken_title title_payload ((quote_mem_esc _).2 h) (gt_not_mem_esc _) (noQuote_esc h') (by simp) whole_empty.same
      (by decide)
  rw [String.append_empty, String.append_empty] at htitle
  exact (htitle.append (sameTags_esc _ _).count).append (whole_lit (by decide)).same.count

variable {nodeDir nodeDir' : UInt32 → Option JsNode} (h : HarmlessDir nodeDir nodeDir')

/-- a cell with a name -/
def nameTd (nodeDir : UInt32 → Option JsNode) (n : UInt32) : String := td "" "whitespace-nowrap" (nodeName nodeDir n)

theorem whole_nameTdOpen :
    Whole ("\n            <td class=\"" ++ "" ++ "px-3 py-1.5 border-b border-gray-800/50 " ++ "whitespace-nowrap" ++ "\">") :=
  whole_tdOpen (by decide) (by decide)

include h in
theorem nameTd_sameTags {n : UInt32} (hsafe : SafeName nodeDir n) : SameTags (nameTd nodeDir n) (nameTd nodeDir' n) :=
  (whole_nameTdOpen.same.append (nodeName_sameTags h n hsafe)).append (whole_lit (by decide)).same

include h in
theorem nameTd_sameCount (n : UInt32) : SameCount (nameTd nodeDir n) (nameTd nodeDir' n) :=
  (whole_nameTdOpen.same.count.append (nodeName_sameCount h n)).append (whole_lit (by decide)).same.count

include h in
theorem nameTd_broken {n : UInt32} (hsafe : ¬ SafeName nodeDir n) : Broken (nameTd nodeDir n) (nameTd nodeDir' n) :=
  (Broken.after whole_nameTdOpen.same (nodeName_broken h n hsafe)).append (whole_lit (by decide)).same.count

/-- a row from its names and its payload -/
theorem row_of_message (b : Browser) {R S : String → String → Prop}
    (happend : ∀ {x x' y y'}, R x x' → SameTags y y' → R (x ++ y) (x' ++ y')) {msg msg' : JsMessage}
    (hmsg : HarmlessMessage msg msg')
    (hnames : ∀ x, Whole x → R (x ++ nameTd nodeDir msg.from_ ++ nameTd nodeDir msg.to_)
      (x ++ nameTd nodeDir' msg.from_ ++ nameTd nodeDir' msg.to_))
    (hlast : ∀ {x x'}, R x x' → S (x ++ payloadCell msg.payload) (x' ++ payloadCell msg'.payload)) :
    S (messageRow b nodeDir msg) (messageRow b nodeDir' msg') := by
  have hcls : Plain "" ∧ Plain "hidden sm:table-cell " := by decide
  have hpost : Plain "whitespace-nowrap" ∧ Plain "text-right tabular-nums whitespace-nowrap" := by decide
  have hdash : Whole "&mdash;" := whole_lit (by decide)
  have hrow : messageRow b nodeDir' msg' = messageRow b nodeDir' { msg with payload := msg'.payload } := by rw [← hmsg.rest]
  rw [hrow]
  unfold messageRow
  dsimp only
  have hhops : Whole (if msg.hopLimit ≠ 0 ∨ msg.hopStart ≠ 0 then
      toString msg.hopLimit.toNat ++ "/" ++ toString msg.hopStart.toNat else "&mdash;") := by
    split_ifs
    · exact ((plain_nat _).whole.append (whole_lit (by decide))).append (plain_nat _).whole
    · exact hdash
  have hrssi : Whole (if msg.rxRssi ≠ 0 then toString msg.rxRssi else "&mdash;") := by
    split_ifs
    · exact (plain_int _).whole
    · exact hdash
  have hsnr : Whole (if msg.rxSnr.isZero then "&mdash;" else (b.toFixed msg.rxSnr 1).1) := by
    split_ifs
    · exact hdash
    · exact (b.toFixed _ 1).2.whole
  have hsize : Whole (toString msg.size ++ "B") := (plain_nat _).whole.append (whole_lit (by decide))
  have htime := whole_td hcls.1 hpost.1 (whole_code (b.toLocaleTimeString msg.timestamp).2.whole)
  have hdir := whole_td hcls.1 hpost.1 (whole_dirTag msg)
  have htype := whole_td hcls.1 hpost.1 (whole_code (whole_esc msg.type))
  refine hlast (happend (happend (happend (happend (happend (hnames _ ?_) ?_) ?_) ?_) ?_) ?_)
  · exact ((htime.append hdir).append htype).append
      (whole_td hcls.2 hpost.1 (whole_around (by decide) (whole_esc _) (by decide)))
  · exact (whole_td hcls.2 hpost.1 (whole_code hhops)).same
  · exact (whole_td hcls.1 hpost.2 (whole_code hrssi)).same
  · exact (whole_td hcls.1 hpost.2 (whole_code hsnr)).same
  · exact (whole_td hcls.2 hpost.1 (whole_relayBadges msg)).same
  · exact (whole_td hcls.2 hpost.2 hsize).same

include h in
theorem messageRow_iff (b : Browser) {msg msg' : JsMessage} (hmsg : HarmlessMessage msg msg') :
    tags (messageRow b nodeDir msg) = tags (messageRow b nodeDir' msg') ↔
      SafeName nodeDir msg.from_ ∧ SafeName nodeDir msg.to_ ∧ '"' ∉ msg.payload.toList := by
  have hpayload' : '"' ∉ msg'.payload.toList := hmsg.payload.plain.not_mem rfl
  have hbroken (hnames : ∀ x, Whole x → Broken (x ++ nameTd nodeDir msg.from_ ++ nameTd nodeDir msg.to_)
      (x ++ nameTd nodeDir' msg.from_ ++ nameTd nodeDir' msg.to_)) :
      tags (messageRow b nodeDir msg) ≠ tags (messageRow b nodeDir' msg') := by
    have hrow : Broken (messageRow b nodeDir msg) (messageRow b nodeDir' msg') :=
      row_of_message b (fun hx hy => hx.append hy.count) hmsg hnames
        (fun hx => hx.append (payloadCell_sameCount _ hpayload'))
    exact hrow.tags_ne
  have hsame (hfrom : SafeName nodeDir msg.from_) (hto : SafeName nodeDir msg.to_) (x : String) (hx : Whole x) :
      SameTags (x ++ nameTd nodeDir msg.from_ ++ nameTd nodeDir msg.to_)
        (x ++ nameTd nodeDir' msg.from_ ++ nameTd nodeDir' msg.to_) :=
    (hx.same.append (nameTd_sameTags h hfrom)).append (nameTd_sameTags h hto)
  constructor
  · intro heq
    by_contra hnot
    -- the first title that is left early shows
    by_cases hfrom : SafeName nodeDir msg.from_
    · by_cases hto : SafeName nodeDir msg.to_
      · have hquote : '"' ∈ msg.payload.toList := by
          by_contra hquote
          exact hnot ⟨hfrom, hto, hquote⟩
        have hrow : Broken (messageRow b nodeDir msg) (messageRow b nodeDir' msg') :=
          row_of_message b SameTags.append hmsg (hsame hfrom hto)
            (fun hx => Broken.after hx (payloadCell_broken hquote hpayload'))
        exact hrow.tags_ne heq
      · exact hbroken (fun x hx => Broken.after (hx.same.append (nameTd_sameTags h hfrom)) (nameTd_broken h hto)) heq
    · exact hbroken (fun x hx => (Broken.after hx.same (nameTd_broken h hfrom)).append (nameTd_sameCount h _)) heq
  · rintro ⟨hfrom, hto, hquote⟩
    have hrow : SameTags (messageRow b nodeDir msg) (messageRow b nodeDir' msg') :=
      row_of_message b SameTags.append hmsg (hsame hfrom hto)
        (fun hx => hx.append (payloadCell_sameTags hquote hpayload'))
    exact hrow.tags_eq

end Message

/-! ## The popup -/

section Popup

variable (b : Browser) (ts : Trace) (num : UInt32)

/-- the user id stands for itself in the popup, when there is one -/
def SafeID (entry : JsNode) : Prop :=
  truthy entry.userID → ∀ position, positionSection b entry = some position →
    Contained (tags ("</span>" ++ afterID b ts num entry position)) (readField entry.userID).toList

/-- the popup up to the user id -/
def beforeID (entry : JsNode) : String :=
  "<div class=\"np\">" ++ popupHeader num entry ++
    "<div class=\"np-section\"><div class=\"np-section-title\">Identity</div>" ++
    "<div class=\"np-row\"><span class=\"np-label\">" ++ "ID" ++ "</span><span class=\"np-value\">"

/-- the popup of a node with a user id, around it -/
theorem nodePopupHTML_eq {e : JsNode} (h : truthy e.userID = true) :
    nodePopupHTML b ts num e = (positionSection b e).map fun position =>
      beforeID num e ++ readField e.userID ++ ("</span>" ++ afterID b ts num e position) := by
  have hclose : "</span></div>" = "</span>" ++ "</div>" := by rfl
  have hrow : npRow "ID" (readField e.userID) = "<div class=\"np-row\"><span class=\"np-label\">" ++ "ID" ++
      "</span><span class=\"np-value\">" ++ readField e.userID ++ ("</span>" ++ "</div>") := by
    rw [← hclose]
    rfl
  have hidentity : identitySection e = "<div class=\"np-section\"><div class=\"np-section-title\">Identity</div>" ++
      npRow "ID" (readField e.userID) ++
      onlyIf (truthy e.hwModel) (npRow "Hardware" (formatHwModel (readField e.hwModel))) ++
      onlyIf (truthy e.role) (npRow "Role" (formatRole (readField e.role))) ++ "</div>" := by
    unfold identitySection
    rw [h, Bool.or_true]
    rfl
  unfold nodePopupHTML
  cases positionSection b e with
  | none => rfl
  | some position =>
    rw [hidentity, hrow]
    show some _ = some _
    rw [Option.some_inj]
    unfold beforeID afterID
    simp only [String.append_assoc]

variable {e e' : JsNode} (he : Harmless e e')
include he

theorem sameTags_popupHeader : SameTags (popupHeader num e) (popupHeader num e') := by
  have hlicensed : e'.isLicensed = e.isLicensed := by rw [he.rest]
  have hmqtt : e'.viaMqtt = e.viaMqtt := by rw [he.rest]
  have hfavorite : e'.isFavorite = e.isFavorite := by rw [he.rest]
  unfold popupHeader
  rw [he.shortName.truthy_eq, he.longName.truthy_eq, hlicensed, hmqtt, hfavorite]
  refine SameTags.append ?_ (sameTags_onlyIf _ (sameTags_around (by decide) (sameTags_esc _ _) (by decide)))
  refine SameTags.append ?_ (whole_lit (by decide)).same
  refine SameTags.append ?_ (whole_onlyIf _ (whole_lit (by decide))).same
  refine SameTags.append ?_ (whole_onlyIf _ (whole_lit (by decide))).same
  refine SameTags.append ?_ (whole_onlyIf _ (whole_lit (by decide))).same
  refine SameTags.append ?_ (whole_lit (by decide)).same
  refine SameTags.append ?_ (whole_esc _).same
  refine SameTags.append ?_ (whole_lit (by decide)).same
  refine SameTags.append (whole_lit (by decide)).same ?_
  exact sameTags_onlyIf _ (sameTags_around (by decide) (sameTags_esc _ _) (by decide))

theorem sameTags_beforeID : SameTags (beforeID num e) (beforeID num e') := by
  unfold beforeID
  refine SameTags.append ?_ (whole_lit (by decide)).same
  refine SameTags.append ?_ (whole_lit (by decide)).same
  refine SameTags.append ?_ (whole_lit (by decide)).same
  refine SameTags.append ?_ (whole_lit (by decide)).same
  exact (whole_lit (by decide)).same.append (sameTags_popupHeader num he)

/-- without a user id the popup's tags do not depend on the strings -/
theorem nodePopupHTML_sameTags (hid : truthy e.userID = false) (hhw : Plain (readField e.hwModel))
    (hrole : Plain (readField e.role)) :
    (nodePopupHTML b ts num e).map tags = (nodePopupHTML b ts num e').map tags := by
  have hposition : positionSection b e' = positionSection b e := by rw [he.rest]; rfl
  have hidentity : SameTags (identitySection e) (identitySection e') := by
    have heq : identitySection e' = identitySection e := by
      unfold identitySection
      rw [he.userID.truthy_eq, hid, he.rest]
      rfl
    rw [heq]
    have hnone : Calm (onlyIf (truthy e.userID) (npRow "ID" (readField e.userID))) := by
      have hempty : Plain "" := by decide
      rw [hid]
      exact hempty.calm
    refine (whole_onlyIf _ (Calm.whole ?_)).same
    refine Calm.append ?_ calm_divEnd
    refine Calm.append ?_ (calm_row _ (by decide) (plain_formatRole hrole).calm)
    refine Calm.append ?_ (calm_row _ (by decide) (plain_formatHwModel hhw).calm)
    exact (block_title (by decide)).calm.append hnone
  unfold nodePopupHTML
  rw [hposition]
  cases hcase : positionSection b e with
  | none => simp only [Option.bind_eq_bind, Option.bind_none]
  | some position =>
    simp only [Option.bind_eq_bind, Option.bind_some, Option.map_some, Option.some_inj]
    apply SameTags.tags_eq
    refine SameTags.append ?_ (whole_lit (by decide)).same
    refine SameTags.append ?_ (block_traceSection ts num).calm.whole.same
    refine SameTags.append ?_ (he.same (fun _ _ _ => rfl) (part_environmentSection b e).calm.whole)
    refine SameTags.append ?_ (he.same (fun _ _ _ => rfl) (part_deviceSection b e).calm.whole)
    refine SameTags.append ?_ (part_positionSection b hcase).calm.whole.same
    refine SameTags.append ?_ (he.same (fun _ _ _ => rfl) (part_radioSection b e).calm.whole)
    exact ((whole_lit (by decide)).same.append (sameTags_popupHeader num he)).append hidentity

omit he in
/-- the tags of a text with a value between clean text and `</span>` -/
theorem tags_before_span {T : List Tag} {pre : String} (hpre : Clean T pre.toList) (value rest : String) :
    tags (pre ++ value ++ ("</span>" ++ rest)) = T ++ (scan .data (value.toList ++ (spanEnd ++ rest.toList))).2 := by
  have hspan : "</span>".toList = spanEnd := String.toList_ofList
  rw [tags, String.toList_append, String.toList_append, String.toList_append, hspan, List.append_assoc,
    scan_append_of hpre.scan]

theorem nodePopupHTML_iff (hhw : Plain (readField e.hwModel)) (hrole : Plain (readField e.role)) :
    (nodePopupHTML b ts num e).map tags = (nodePopupHTML b ts num e').map tags ↔ SafeID b ts num e := by
  by_cases hid : truthy e.userID = true
  · have hposition : positionSection b e' = positionSection b e := by rw [he.rest]; rfl
    have hafter (position : String) : afterID b ts num e' position = afterID b ts num e position := by rw [he.rest]; rfl
    rw [nodePopupHTML_eq b ts num hid, nodePopupHTML_eq b ts num (he.userID.truthy_eq.trans hid), hposition]
    unfold SafeID
    cases hcase : positionSection b e with
    | none => simp
    | some position =>
      have hblock := block_afterID b ts num hhw hrole hcase
      obtain ⟨Q, hQ⟩ := hblock.calm.whole
      have hcatches := Catches.after (a := spanEnd) rfl (by decide) hblock.catches
      have hraw := tags_append_iff (readField e.userID).toList hQ.scan hblock.calm.hush.noSingle hblock.calm.hush.keeps
        hcatches
      have hletters := scan_data (he.userID.plain.not_mem rfl)
      have hempty : Clean [] "".toList := clean_text (by simp)
      have hfollowing := tags_before_span hempty "" (afterID b ts num e position)
      obtain ⟨T, hT, hT'⟩ := sameTags_beforeID num he
      simp only [Option.map_some, Option.some_inj, hafter]
      rw [tags_before_span hT, tags_before_span hT', scan_append_of hletters, List.nil_append, List.append_right_inj, hraw]
      rw [String.empty_append, String.empty_append] at hfollowing
      simp [hid, hfollowing]
  · have hno := Bool.not_eq_true _ ▸ hid
    exact iff_of_true (nodePopupHTML_sameTags b ts num he hno hhw hrole) fun h => absurd h hid

end Popup

/-! ## Two nodes and a message -/

/-- a browser that shows no fraction -/
def browser : Browser where
  now := 1700000000
  toFixed _ _ := ⟨"0.0", by decide⟩
  degrees _ _ := ⟨"0.00000", by decide⟩
  toLocaleTimeString _ := ⟨"10:13:20.000 PM", by decide⟩

def idle : Trace := ⟨none, none⟩

def only (entry : JsNode) (n : UInt32) : Option JsNode := if n = 42 then some entry else none

def kit : JsNode where
  shortName := some "KIT"
  longName := some "Kit's node"
  userID := some "!0000002a"

def mallory : JsNode where
  shortName := some "KIT"
  longName := some "\" onmouseover=\"alert(1)"
  userID := some "<img src=x onerror=alert(1)>"

/-- the harmless record for both -/
def letters : JsNode where
  shortName := some "a"
  longName := some "b"
  userID := some "c"

def hello (payload : String) : JsMessage where
  timestamp := "2023-11-14T22:13:20Z"
  direction := "from_node"
  type := "TEXT_MESSAGE_APP"
  portNum := "TEXT_MESSAGE_APP"
  from_ := 42
  to_ := 42
  hopLimit := 3
  hopStart := 3
  rxRssi := -90
  rxSnr := F32.zero
  viaMqtt := false
  relayNode := 0
  size := 40
  payload

theorem replaced_letters {x : Option String} {s : String} (hx : truthy x = true) (hs : Letters s) :
    Replaced x (some s) := by
  rw [Replaced, if_pos hx]
  exact ⟨s, rfl, hs⟩

instance (s : String) : Decidable (Letters s) :=
  decidable_of_iff (s ≠ "" ∧ s.toList.all Char.isAlpha = true) (and_congr_right fun _ => List.all_eq_true)

theorem letters_abc : Letters "a" ∧ Letters "b" ∧ Letters "c" := by decide

theorem kit_harmless : Harmless kit letters where
  shortName := replaced_letters (by decide) letters_abc.1
  longName := replaced_letters (by decide) letters_abc.2.1
  userID := replaced_letters (by decide) letters_abc.2.2
  names := by decide
  rest := rfl

theorem mallory_harmless : Harmless mallory letters where
  shortName := replaced_letters (by decide) letters_abc.1
  longName := replaced_letters (by decide) letters_abc.2.1
  userID := replaced_letters (by decide) letters_abc.2.2
  names := by decide
  rest := rfl

theorem only_harmless {e e' : JsNode} (h : Harmless e e') : HarmlessDir (only e) (only e') := by
  intro n
  unfold only
  split_ifs
  · exact .some h
  · exact .none

theorem hello_harmless (payload : String) (h : truthy (some payload) = true) :
    HarmlessMessage (hello payload) (hello "c") where
  payload := replaced_letters h letters_abc.2.2
  rest := rfl

/-! ## The four builders -/

/-- **When the strings of a node and of a message leave the tags alone.** A record and the same record with letters in
its strings give the same tags and attribute names exactly when no title gets a double quote (the long name of a named
node, the payload of a message) and the user id, read as HTML on its own, stands for itself in the popup. -/
theorem same_markup_iff (b : Browser) (ts : Trace) {nodeDir nodeDir' : UInt32 → Option JsNode}
    (hdir : HarmlessDir nodeDir nodeDir') {entry entry' : JsNode} (hentry : Harmless entry entry')
    (hhw : Plain (readField entry.hwModel)) (hrole : Plain (readField entry.role)) {msg msg' : JsMessage}
    (hmsg : HarmlessMessage msg msg') (n num : UInt32) :
    (tags (nodeName nodeDir n) = tags (nodeName nodeDir' n) ↔ SafeName nodeDir n) ∧
    ((buildNodeRow b ts num entry).map tags = (buildNodeRow b ts num entry').map tags ↔
      (Located entry → SafeTitle entry)) ∧
    ((nodePopupHTML b ts num entry).map tags = (nodePopupHTML b ts num entry').map tags ↔ SafeID b ts num entry) ∧
    (tags (messageRow b nodeDir msg) = tags (messageRow b nodeDir' msg') ↔
      SafeName nodeDir msg.from_ ∧ SafeName nodeDir msg.to_ ∧ '"' ∉ msg.payload.toList) :=
  ⟨nodeName_iff hdir n, buildNodeRow_iff hentry b ts num, nodePopupHTML_iff b ts num hentry hhw hrole,
    messageRow_iff hdir b hmsg⟩

theorem same_markup_kit :
    tags (nodeName (only kit) 42) = tags (nodeName (only letters) 42) ∧
    (buildNodeRow browser idle 42 kit).map tags = (buildNodeRow browser idle 42 letters).map tags ∧
    (nodePopupHTML browser idle 42 kit).map tags = (nodePopupHTML browser idle 42 letters).map tags ∧
    tags (messageRow browser (only kit) (hello "<b>hi</b>")) = tags (messageRow browser (only letters) (hello "c")) := by
  obtain ⟨hname, hrow, hpopup, hmessage⟩ := same_markup_iff browser idle (only_harmless kit_harmless) kit_harmless
    (by decide) (by decide) (hello_harmless "<b>hi</b>" (by decide)) 42 42
  have hquote : '"' ∉ (readField kit.longName).toList := by decide
  have hsafe : SafeName (only kit) 42 := by
    intro entry _ hentry
    obtain rfl := Option.some.inj hentry
    exact hquote
  have hid : SafeID browser idle 42 kit := by
    intro _ position _
    have hscan : scan .data (readField kit.userID).toList = (.data, []) := scan_data (by decide)
    simp only [Contained, hscan]
  exact ⟨hname.2 hsafe, hrow.2 fun _ _ => hquote, hpopup.2 hid, hmessage.2 ⟨hsafe, hsafe, by decide⟩⟩

/-- the names of a radio node, and the text of a message, put attributes and an element into the page -/
theorem mallory_injects :
    (Harmless mallory letters ∧ HarmlessMessage (hello "\" onmouseover=\"alert(1)") (hello "c")) ∧
    tags (nodeName (only mallory) 42) ≠ tags (nodeName (only letters) 42) ∧
    (buildNodeRow browser idle 42 mallory).map tags ≠ (buildNodeRow browser idle 42 letters).map tags ∧
    (nodePopupHTML browser idle 42 mallory).map tags ≠ (nodePopupHTML browser idle 42 letters).map tags ∧
    tags (messageRow browser (only kit) (hello "\" onmouseover=\"alert(1)")) ≠
      tags (messageRow browser (only letters) (hello "c")) := by
  have hquote : '"' ∈ (readField mallory.longName).toList := by decide
  have hpayload := hello_harmless "\" onmouseover=\"alert(1)" (by decide)
  have hlocated : Located mallory := fun h => absurd h (by decide)
  refine ⟨⟨mallory_harmless, hpayload⟩, ?_, ?_, ?_, ?_⟩
  · rw [Ne, nodeName_iff (only_harmless mallory_harmless)]
    exact fun h => h mallory (by decide) (by rfl) hquote
  · rw [Ne, buildNodeRow_iff mallory_harmless]
    exact fun h => h hlocated (by decide) hquote
  · rw [Ne, nodePopupHTML_iff browser idle 42 mallory_harmless (by decide) (by decide)]
    intro h
    have hscan : (scan .data (readField mallory.userID).toList) =
        (.data, [⟨false, "img".toList, ["src".toList, "onerror".toList]⟩]) := by decide +kernel
    have hcontained := h (by decide) "" rfl
    simp only [Contained, hscan] at hcontained
    cases hcontained
  · rw [Ne, messageRow_iff (only_harmless kit_harmless) browser hpayload]
    exact fun h => h.2.2 (by decide)

end MeshProxy.Markup
