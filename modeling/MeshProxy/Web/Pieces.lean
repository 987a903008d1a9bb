/-
Pieces of the dashboard's HTML that read the same whatever the strings of a node or a message are.

- the escape leaves no angle bracket and every double quote (`lt_not_mem_esc`, `quote_mem_esc`);
- `Plain`: numbers, hex names, ages and uptimes mean nothing to HTML;
- `Whole`: the piece starts and ends in content and each `<` of it is a tag. Every cell and every section of the builders
  is one (`whole_*`), but for the titles with a name or a payload in them and the popup's row with the user id;
- `Calm`: a whole piece of the popup that neither closes a comment nor has a single quote. What follows the user id is
  one (`calm_afterID`), with a quoted tag in it.
-/
import MeshProxy.Web.Html
import MeshProxy.Web.Markup

namespace MeshProxy.Markup

open MeshProxy.Binary32 MeshProxy.Dashboard MeshProxy.Html

-- the texts of the source are long lists of characters
set_option maxRecDepth 20000

/-! ## Escaped and plain texts -/

theorem toList_esc (s : String) : (esc s).toList = s.toList.flatMap escChar := String.toList_ofList

/-- an escaped text has the characters of the text but the angle brackets, and those of the references -/
theorem mem_escChar {c d : Char} (h : d ∈ escChar c) :
    (d = c ∧ c ≠ '<' ∧ c ≠ '>') ∨ d ∈ ['&', 'a', 'm', 'p', 'l', 'g', 't', 'n', 'b', 's', ';'] := by
  have hrefs {ref : List Char} (hall : ref.all (· ∈ ['&', 'a', 'm', 'p', 'l', 'g', 't', 'n', 'b', 's', ';']) = true)
      (hd : d ∈ ref) : d ∈ ['&', 'a', 'm', 'p', 'l', 'g', 't', 'n', 'b', 's', ';'] :=
    of_decide_eq_true (List.all_eq_true.1 hall d hd)
  unfold escChar at h
  split_ifs at h with h1 h2 h3 h4
  · exact .inr (hrefs (by decide) h)
  · exact .inr (hrefs (by decide) h)
  · exact .inr (hrefs (by decide) h)
  · exact .inr (hrefs (by decide) h)
  · exact .inl ⟨List.mem_singleton.1 h, h2, h3⟩

theorem mem_esc {s : String} {d : Char} (h : d ∈ (esc s).toList) :
    (d ∈ s.toList ∧ d ≠ '<' ∧ d ≠ '>') ∨ d ∈ ['&', 'a', 'm', 'p', 'l', 'g', 't', 'n', 'b', 's', ';'] := by
  rw [toList_esc, List.mem_flatMap] at h
  obtain ⟨c, hc, hd⟩ := h
  rcases mem_escChar hd with ⟨rfl, hlt, hgt⟩ | href
  · exact .inl ⟨hc, hlt, hgt⟩
  · exact .inr href

theorem lt_not_mem_esc (s : String) : '<' ∉ (esc s).toList := by
  intro h
  rcases mem_esc h with ⟨-, hne, -⟩ | href
  · exact hne rfl
  · exact absurd href (by decide)

theorem gt_not_mem_esc (s : String) : '>' ∉ (esc s).toList := by
  intro h
  rcases mem_esc h with ⟨-, -, hne⟩ | href
  · exact hne rfl
  · exact absurd href (by decide)

/-- the escape leaves quotes as they are -/
theorem quote_mem_esc (s : String) : '"' ∈ (esc s).toList ↔ '"' ∈ s.toList := by
  constructor
  · intro h
    rcases mem_esc h with ⟨hmem, -, -⟩ | href
    · exact hmem
    · exact absurd href (by decide)
  · intro h
    rw [toList_esc, List.mem_flatMap]
    exact ⟨'"', h, by decide⟩

instance (s : String) : Decidable (Plain s) := decidable_of_iff (s.toList.all isPlain = true) List.all_eq_true

theorem Plain.not_mem {s : String} (h : Plain s) {c : Char} (hc : isPlain c = false) : c ∉ s.toList := by
  intro hmem
  rw [h c hmem] at hc
  cases hc

theorem Plain.append {s t : String} (hs : Plain s) (ht : Plain t) : Plain (s ++ t) := by
  intro c hc
  rw [String.toList_append, List.mem_append] at hc
  exact hc.elim (hs c) (ht c)

theorem isPlain_digitChar (n : ℕ) : isPlain n.digitChar = true := by
  by_cases hn : n < 16
  · interval_cases n <;> rfl
  · obtain ⟨m, rfl⟩ := Nat.exists_eq_add_of_le' (not_lt.1 hn)
    simp [Nat.digitChar, isPlain]

theorem plain_toDigitsCore (base fuel n : ℕ) {ds : List Char} (hds : ∀ c ∈ ds, isPlain c = true) :
    ∀ c ∈ Nat.toDigitsCore base fuel n ds, isPlain c = true := by
  induction fuel generalizing n ds with
  | zero => exact hds
  | succ fuel ih =>
    have hcons : ∀ c ∈ (n % base).digitChar :: ds, isPlain c = true :=
      List.forall_mem_cons.2 ⟨isPlain_digitChar _, hds⟩
    rw [Nat.toDigitsCore]
    split
    · exact hcons
    · exact ih _ hcons

theorem plain_toDigits (base n : ℕ) : ∀ c ∈ Nat.toDigits base n, isPlain c = true :=
  plain_toDigitsCore base (n + 1) n (by simp)

theorem plain_nat (n : ℕ) : Plain (toString n) := by
  have hlist : (toString n).toList = Nat.toDigits 10 n := Nat.toList_repr
  rw [Plain, hlist]
  exact plain_toDigits 10 n

theorem plain_int (z : ℤ) : Plain (toString z) := by
  have hminus : Plain "-" := by decide
  rw [Int.toString_eq_repr, Int.repr_eq_if]
  split
  · exact plain_nat _
  · exact hminus.append (plain_nat _)

theorem plain_hex (width n : ℕ) : Plain (hex width n) := by
  intro c hc
  rw [hex, String.toList_ofList, List.mem_append] at hc
  rcases hc with hc | hc
  · rw [(List.mem_replicate.1 hc).2]
    rfl
  · exact plain_toDigits 16 n c hc

theorem plain_nodeHex (n : UInt32) : Plain (nodeHex n) := by
  have hbang : Plain "!" := by decide
  have hempty : Plain "" := by decide
  unfold nodeHex
  split
  · exact hempty
  · exact hbang.append (plain_hex 8 n.toNat)

theorem plain_formatUnixAge (b : Browser) (ts : UInt32) : Plain (formatUnixAge b ts) := by
  have hago (z : ℤ) {unit : String} (hunit : Plain unit) : Plain (toString z ++ unit) := (plain_int z).append hunit
  unfold formatUnixAge
  dsimp only
  split_ifs
  · decide
  · decide
  · exact hago _ (by decide)
  · exact hago _ (by decide)
  · exact hago _ (by decide)
  · exact hago _ (by decide)

theorem plain_formatUptime (secs : ℕ) : Plain (formatUptime secs) := by
  have htwo (m n : ℕ) {u v : String} (hu : Plain u) (hv : Plain v) : Plain (toString m ++ u ++ toString n ++ v) :=
    (((plain_nat m).append hu).append (plain_nat n)).append hv
  unfold formatUptime
  split_ifs
  · decide
  · exact htwo _ _ (by decide) (by decide)
  · exact htwo _ _ (by decide) (by decide)
  · exact (plain_nat _).append (by decide)

theorem isPlain_toLower {c : Char} (h : isPlain c = true) : isPlain c.toLower = true := by
  unfold Char.toLower
  split
  · rename_i hc
    have hlo : 65 ≤ c.toNat := hc.1
    have hhi : c.toNat ≤ 90 := hc.2
    simp only [isPlain, ne_eq, Char.ext_iff, UInt32.ext_iff, Bool.and_eq_true, decide_eq_true_eq, UInt32.toNat_add]
    refine ⟨⟨⟨⟨?_, ?_⟩, ?_⟩, ?_⟩, ?_⟩ <;> simp <;> omega
  · exact h
theorem isPlain_toUpper {c : Char} (h : isPlain c = true) : isPlain c.toUpper = true := by
  unfold Char.toUpper
  split
  · rename_i hc
    have hlo : 97 ≤ c.toNat := hc.1
    have hhi : c.toNat ≤ 122 := hc.2
    simp only [isPlain, ne_eq, Char.ext_iff, UInt32.ext_iff, Bool.and_eq_true, decide_eq_true_eq, UInt32.toNat_add]
    refine ⟨⟨⟨⟨?_, ?_⟩, ?_⟩, ?_⟩, ?_⟩ <;> simp <;> omega
  · exact h
theorem isPlain_capitalise (inWord : Bool) {cs : List Char} (h : ∀ c ∈ cs, isPlain c = true) :
    ∀ c ∈ capitalise inWord cs, isPlain c = true := by
  induction cs generalizing inWord with
  | nil => cases inWord <;> simp [capitalise]
  | cons c cs ih =>
    have hc : isPlain c = true := h c List.mem_cons_self
    have hcs := fun inWord => ih inWord fun d hd => h d (List.mem_cons_of_mem c hd)
    cases inWord
    · rw [capitalise]
      split_ifs
      · exact List.forall_mem_cons.2 ⟨isPlain_toUpper hc, hcs true⟩
      · exact List.forall_mem_cons.2 ⟨hc, hcs false⟩
    · exact List.forall_mem_cons.2 ⟨isPlain_toLower hc, hcs _⟩

theorem isPlain_underscoreToSpace {c : Char} (h : isPlain c = true) : isPlain (underscoreToSpace c) = true := by
  unfold underscoreToSpace
  split_ifs
  · rfl
  · exact h

theorem plain_formatHwModel {m : String} (h : Plain m) : Plain (formatHwModel m) := by
  intro c hc
  rw [formatHwModel, String.toList_ofList] at hc
  refine isPlain_capitalise false (fun d hd => ?_) c hc
  obtain ⟨d', hd', rfl⟩ := List.mem_map.1 hd
  exact isPlain_underscoreToSpace (h d' hd')

theorem plain_formatRole {r : String} (h : Plain r) : Plain (formatRole r) := by
  unfold formatRole
  cases hr : r.toList with
  | nil => decide
  | cons c cs =>
    rw [Plain, hr] at h
    obtain ⟨hc, hcs⟩ := List.forall_mem_cons.1 h
    intro d hd
    rw [String.toList_ofList] at hd
    rcases List.mem_cons.1 hd with rfl | hd
    · exact isPlain_toUpper hc
    · obtain ⟨d', hd', rfl⟩ := List.mem_map.1 hd
      exact isPlain_underscoreToSpace (isPlain_toLower (hcs d' hd'))

/-! ## Clean pieces -/

/-- the piece is clean as it stands -/
def Whole (html : String) : Prop := ∃ T, Clean T html.toList

/-- the test for a text that is written out -/
def isWhole (cs : List Char) : Bool := (scan .data cs).1 = .data && (scan .data cs).2.length = cs.count '<'

theorem clean_of_isWhole {cs : List Char} (h : isWhole cs = true) : Clean (scan .data cs).2 cs := by
  rw [isWhole, Bool.and_eq_true, decide_eq_true_eq, decide_eq_true_eq] at h
  exact ⟨Prod.ext h.1 rfl, h.2⟩

theorem whole_lit {cs : List Char} (h : isWhole cs = true) : Whole (String.ofList cs) :=
  ⟨_, by rw [String.toList_ofList]; exact clean_of_isWhole h⟩

theorem Whole.append {a b : String} (ha : Whole a) (hb : Whole b) : Whole (a ++ b) := by
  obtain ⟨T, hT⟩ := ha
  obtain ⟨U, hU⟩ := hb
  exact ⟨T ++ U, by rw [String.toList_append]; exact hT.append hU⟩

theorem whole_text {a : String} (h : '<' ∉ a.toList) : Whole a := ⟨[], clean_text h⟩

theorem whole_esc (s : String) : Whole (esc s) := whole_text (lt_not_mem_esc s)

theorem Plain.whole {s : String} (h : Plain s) : Whole s := whole_text (h.not_mem rfl)

theorem whole_onlyIf (p : Bool) {a : String} (h : Whole a) : Whole (onlyIf p a) := by
  cases p
  · exact whole_text (by simp [onlyIf])
  · exact h

/-- the piece reads like the written-out text, which it is but for plain values -/
def Reads (a : String) (cs : List Char) : Prop := Like a.toList cs

theorem reads_lit {cs : List Char} : Reads (String.ofList cs) cs := by
  rw [Reads, String.toList_ofList]
  exact Like.refl cs

theorem Reads.lit {a : String} {cs ds : List Char} (h : Reads a cs) : Reads (a ++ String.ofList ds) (cs ++ ds) := by
  rw [Reads, String.toList_append, String.toList_ofList]
  exact Like.append h ds

theorem Reads.text {a v : String} {cs : List Char} (h : Reads a cs) (hin : takesText (scan .data cs).1 = true)
    (hquote : '"' ∉ v.toList) (hlt : '<' ∉ v.toList) : Reads (a ++ v) cs := by
  rw [Reads, String.toList_append]
  exact Like.value h hin hquote hlt

theorem Reads.value {a v : String} {cs : List Char} (h : Reads a cs) (hin : takesText (scan .data cs).1 = true)
    (hv : Plain v) : Reads (a ++ v) cs :=
  h.text hin (hv.not_mem rfl) (hv.not_mem rfl)

theorem Reads.whole {a : String} {cs : List Char} (h : Reads a cs) (hcs : isWhole cs = true) : Whole a :=
  ⟨_, Like.clean h (clean_of_isWhole hcs)⟩

/-! ## The cells of a node's row -/

theorem whole_dash : Whole dash := whole_lit (by decide)

theorem whole_badges (e : JsNode) : Whole (badges e) := by
  refine ((whole_onlyIf _ ?_).append (whole_onlyIf _ ?_)).append (whole_onlyIf _ ?_)
  · exact reads_lit.lit.whole (by decide)
  · exact reads_lit.lit.whole (by decide)
  · exact reads_lit.lit.whole (by decide)

theorem whole_around {cs ds : List Char} {v : String} (hcs : isWhole cs = true) (hv : Whole v)
    (hds : isWhole ds = true) : Whole (String.ofList cs ++ v ++ String.ofList ds) :=
  ((whole_lit hcs).append hv).append (whole_lit hds)

theorem whole_tail {a x v y : String} (ha : Whole a) (h : Whole (x ++ v ++ y)) : Whole (a ++ x ++ v ++ y) := by
  simpa only [String.append_assoc] using ha.append h

theorem whole_hwCell (e : JsNode) : Whole (hwCell e) := by
  unfold hwCell
  split_ifs
  · exact whole_around (by decide) (whole_esc _) (by decide)
  · exact whole_dash

theorem whole_roleCell (e : JsNode) : Whole (roleCell e) := by
  unfold roleCell
  split_ifs
  · exact whole_around (by decide) (whole_esc _) (by decide)
  · exact whole_dash

variable (b : Browser)

theorem whole_lhCell (e : JsNode) : Whole (lhCell b e) := by
  unfold lhCell
  dsimp only
  have hcell {color : String} (hcolor : Plain color) :
      Whole ("<span class=\"" ++ color ++ " tabular-nums\">" ++ formatUnixAge b (readField e.lastHeard) ++ "</span>") := by
    refine Reads.whole (((reads_lit.value ?_ hcolor).lit.value ?_ (plain_formatUnixAge b _)).lit) ?_
    · decide
    · decide
    · decide
  split_ifs
  · exact hcell (by decide)
  · exact hcell (by decide)
  · exact hcell (by decide)
  · exact whole_dash

theorem whole_hopsCell (e : JsNode) : Whole (hopsCell e) := by
  unfold hopsCell
  split_ifs
  · exact whole_around (by decide) (plain_nat _).whole (by decide)
  · exact whole_dash

/-- a level in its colour -/
theorem whole_coloured {color level : String} (hcolor : Plain color) (hlevel : Plain level) :
    Whole ("<code class=\"font-mono text-xs " ++ color ++ "\">" ++ level ++ "</code>") := by
  refine Reads.whole (((reads_lit.value ?_ hcolor).lit.value ?_ hlevel).lit) ?_
  · decide
  · decide
  · decide

theorem whole_rssiCell (e : JsNode) : Whole (rssiCell e) := by
  unfold rssiCell
  dsimp only
  split_ifs
  · exact whole_coloured (by decide) (plain_int _)
  · exact whole_coloured (by decide) (plain_int _)
  · exact whole_coloured (by decide) (plain_int _)
  · exact whole_dash

theorem whole_snrCell (e : JsNode) : Whole (snrCell b e) := by
  unfold snrCell
  dsimp only
  split_ifs
  · exact whole_coloured (by decide) (b.toFixed _ 1).2
  · exact whole_coloured (by decide) (b.toFixed _ 1).2
  · exact whole_coloured (by decide) (b.toFixed _ 1).2
  · exact whole_dash

theorem plain_battery (e : JsNode) : Plain (battery e).2 := by
  unfold battery
  dsimp only
  split_ifs
  · decide
  · decide
  · decide

theorem whole_battCell (e : JsNode) : Whole (battCell b e) := by
  have hlevel := plain_nat (battery e).1
  unfold battCell
  split_ifs
  · refine Whole.append ?_ (whole_onlyIf _ (whole_around ?_ (b.toFixed _ 1).2.whole ?_))
    · refine Reads.whole
        ((((reads_lit.value ?_ hlevel).lit.value ?_ (plain_battery e)).lit.lit.value ?_ hlevel).lit) ?_
      · decide
      · decide
      · decide
      · decide
    · decide
    · decide
  · exact whole_dash

theorem whole_coordCell {e : JsNode} {coords : String} (h : coordCell b e = some coords) : Whole coords := by
  unfold coordCell at h
  split_ifs at h
  · simp only [Option.bind_eq_bind, Option.bind_eq_some_iff, Option.some.injEq] at h
    obtain ⟨latitude, -, longitude, -, rfl⟩ := h
    refine Whole.append ?_ (whole_onlyIf _ (whole_around (by decide) (plain_int _).whole (by decide)))
    refine Whole.append (Whole.append ?_ (b.degrees longitude 5).2.whole) (whole_lit (by decide))
    exact whole_around (by decide) (b.degrees latitude 5).2.whole (by decide)
  · obtain rfl := Option.some.inj h
    exact whole_dash

theorem whole_svg : Whole svgTrace ∧ Whole svgTraceCompact := by
  refine ⟨Reads.whole reads_lit.lit.lit.lit.lit ?_, Reads.whole reads_lit.lit.lit.lit.lit ?_⟩
  · decide
  · decide

theorem whole_actionsCell (ts : Trace) (num : UInt32) : Whole (actionsCell ts num) := by
  have hnum := plain_nat num.toNat
  have hbutton : Whole ("<div style=\"position:relative;display:flex;align-items:center;gap:2px;\">" ++
      "<button class=\"na-trace-btn\" data-trace-target=\"" ++ toString num.toNat ++ "\"" ++
      onlyIf ts.active " disabled" ++ " onclick=\"event.stopPropagation();startTraceroute(" ++
      toString num.toNat ++ ")\" title=\"Trace Route\">") := by
    cases ts.active
    · exact (((reads_lit.lit.value (by decide) hnum).lit.lit.lit.value (by decide) hnum).lit).whole
        (by decide)
    · exact (((reads_lit.lit.value (by decide) hnum).lit.lit.lit.value (by decide) hnum).lit).whole
        (by decide)
  have hmenu : Whole ("<button class=\"na-btn\" onclick=\"event.stopPropagation();toggleNodeActions('" ++
      toString num.toNat ++ "',this)\" title=\"Actions\">&#8942;</button></div>") :=
    (reads_lit.value (by decide) hnum).lit.whole (by decide)
  have hclose : Whole "</button>" := whole_lit (by decide)
  have hcell {content : String} (hcontent : Whole content) :=
    whole_tail ((hbutton.append hcontent).append hclose) hmenu
  unfold actionsCell
  dsimp only
  split
  · exact hcell ((plain_nat _).whole.append (whole_lit (by decide)))
  · split_ifs
    · exact hcell (whole_lit (by decide))
    · exact hcell whole_svg.2

/-! ## The pieces of a message's row -/

theorem whole_relayNameJS (relayNode : UInt32) : Whole (relayNameJS relayNode) := by
  unfold relayNameJS
  split_ifs
  · exact whole_lit (by decide)
  · exact whole_around (by decide) (plain_hex 2 _).whole (by decide)

theorem whole_dirTag (msg : JsMessage) : Whole (dirTag msg) := by
  unfold dirTag
  split_ifs
  · exact reads_lit.lit.whole (by decide)
  · exact reads_lit.lit.whole (by decide)

theorem whole_relayBadges (msg : JsMessage) : Whole (relayBadges msg) := by
  unfold relayBadges
  dsimp only
  split_ifs
  · exact (whole_onlyIf _ (reads_lit.lit.whole (by decide))).append (whole_relayNameJS _)
  · exact whole_dash

theorem whole_code {text : String} (h : Whole text) : Whole (code text) := whole_around (by decide) h (by decide)

/-- a cell of the table, opened -/
theorem whole_tdOpen {pre post : String} (hpre : Plain pre) (hpost : Plain post) :
    Whole ("\n            <td class=\"" ++ pre ++ "px-3 py-1.5 border-b border-gray-800/50 " ++ post ++ "\">") := by
  refine Reads.whole ((reads_lit.value ?_ hpre).lit.value ?_ hpost).lit ?_
  · decide
  · decide
  · decide

theorem whole_td {pre post html : String} (hpre : Plain pre) (hpost : Plain post) (h : Whole html) :
    Whole (td pre post html) :=
  ((whole_tdOpen hpre hpost).append h).append (whole_lit (by decide))

/-! ## The popup -/

/-- a piece that closes no comment and no single-quoted value -/
structure Hush (a : String) : Prop where
  noSingle : '\'' ∉ a.toList
  keeps : keepsComment true a.toList = true

def isHush (cs : List Char) : Bool := cs.all (· ≠ '\'') && keepsComment true cs

theorem hush_lit {cs : List Char} (h : isHush cs = true) : Hush (String.ofList cs) := by
  rw [isHush, Bool.and_eq_true] at h
  refine ⟨?_, by rw [String.toList_ofList]; exact h.2⟩
  rw [String.toList_ofList]
  intro hmem
  simpa using List.all_eq_true.1 h.1 _ hmem

theorem Hush.append {a b : String} (ha : Hush a) (hb : Hush b) : Hush (a ++ b) where
  noSingle := by simp [ha.noSingle, hb.noSingle]
  keeps := by rw [String.toList_append]; exact keepsComment_append ha.keeps hb.keeps

theorem Plain.hush {s : String} (h : Plain s) : Hush s := ⟨h.not_mem rfl, keepsComment_of_not_mem (h.not_mem rfl)⟩

structure Calm (a : String) : Prop where
  whole : Whole a
  hush : Hush a

def isCalm (cs : List Char) : Bool := isWhole cs && isHush cs

theorem calm_lit {cs : List Char} (h : isCalm cs = true) : Calm (String.ofList cs) := by
  rw [isCalm, Bool.and_eq_true] at h
  exact ⟨whole_lit h.1, hush_lit h.2⟩

theorem Calm.append {a b : String} (ha : Calm a) (hb : Calm b) : Calm (a ++ b) :=
  ⟨ha.whole.append hb.whole, ha.hush.append hb.hush⟩

theorem Plain.calm {s : String} (h : Plain s) : Calm s := ⟨h.whole, h.hush⟩

/-- a number with its unit -/
theorem calm_unit {v : String} {cs : List Char} (hv : Plain v) (hcs : isCalm cs = true) :
    Calm (v ++ String.ofList cs) := hv.calm.append (calm_lit hcs)

theorem calm_onlyIf (p : Bool) {a : String} (h : Calm a) : Calm (onlyIf p a) := by
  have hempty : Plain "" := by decide
  cases p
  · exact hempty.calm
  · exact h

/-- a calm piece with a quoted tag -/
structure Block (a : String) : Prop where
  calm : Calm a
  catches : Catches a.toList

/-- a calm piece, whose first quoted tag, if it has one, shows in an open value -/
structure Part (a : String) : Prop where
  calm : Calm a
  catches : '"' ∈ a.toList → Catches a.toList

theorem Block.append {a b : String} (ha : Block a) (hb : Calm b) : Block (a ++ b) where
  calm := ha.calm.append hb
  catches := by
    obtain ⟨U, hU⟩ := hb.whole
    rw [String.toList_append]
    exact ha.catches.append hU.scan

theorem Block.part {a : String} (h : Block a) : Part a := ⟨h.calm, fun _ => h.catches⟩

theorem part_lit {cs : List Char} (h : isCalm cs = true) (hquote : '"' ∉ cs) : Part (String.ofList cs) := by
  refine ⟨calm_lit h, fun hmem => ?_⟩
  rw [String.toList_ofList] at hmem
  exact absurd hmem hquote

theorem part_onlyIf (p : Bool) {a : String} (h : Block a) : Part (onlyIf p a) := by
  have hempty : Plain "" := by decide
  cases p
  · exact ⟨hempty.calm, fun hmem => absurd hmem (hempty.not_mem rfl)⟩
  · exact h.part

theorem Part.append_block {a b : String} (ha : Part a) (hb : Block b) : Block (a ++ b) where
  calm := ha.calm.append hb.calm
  catches := by
    obtain ⟨T, hT⟩ := ha.calm.whole
    obtain ⟨U, hU⟩ := hb.calm.whole
    rw [String.toList_append]
    by_cases hquote : '"' ∈ a.toList
    · exact (ha.catches hquote).append hU.scan
    · exact hb.catches.after hT.scan hquote

theorem Part.append {a b : String} (ha : Part a) (hb : Part b) : Part (a ++ b) := by
  by_cases hquote : '"' ∈ b.toList
  · exact (ha.append_block ⟨hb.calm, hb.catches hquote⟩).part
  · refine ⟨ha.calm.append hb.calm, fun hmem => ?_⟩
    obtain ⟨U, hU⟩ := hb.calm.whole
    rw [String.toList_append] at hmem ⊢
    have hmem := (List.mem_append.1 hmem).resolve_right hquote
    exact (ha.catches hmem).append hU.scan

def sectionTag : List Char :=
  ['<', 'd', 'i', 'v', ' ', 'c', 'l', 'a', 's', 's', '=', '"', 'n', 'p', '-', 's', 'e', 'c', 't', 'i', 'o', 'n', '"', '>']

theorem catches_sectionTag : Catches sectionTag := by
  refine ⟨[], ⟨false, "div".toList, ["class".toList]⟩, [], by decide,
    fun z hz => ⟨z.push "np-section\"".toList, ?_, ?_⟩⟩
  · simp [sectionTag, scan, feed, isSpace, Tag.push]
  · simpa [Tag.push] using List.length_pos_of_ne_nil hz

theorem block_title {cs : List Char} (h : isCalm cs = true) : Block (String.ofList (sectionTag ++ cs)) := by
  have htag : Calm (String.ofList sectionTag) := calm_lit (by decide)
  have hblock : Block (String.ofList sectionTag) := ⟨htag, by rw [String.toList_ofList]; exact catches_sectionTag⟩
  rw [String.ofList_append]
  exact hblock.append (calm_lit h)

theorem block_npRow {label : List Char} {value : String} (hlabel : isCalm label = true) (hvalue : Calm value) :
    Block (npRow (String.ofList label) value) := by
  have hcalm : Calm "<div class=\"np-row\"><span class=\"np-label\">" := calm_lit (by decide)
  have hopen : Block "<div class=\"np-row\"><span class=\"np-label\">" := by
    refine ⟨hcalm, [], ⟨false, "div".toList, ["class".toList]⟩, [⟨false, "span".toList, ["class".toList]⟩],
      by decide, fun z hz => ⟨z.push "np-row\"".toList, ?_, ?_⟩⟩
    · simp [scan, feed, isSpace, Tag.push]
    · simpa [Tag.push] using List.length_pos_of_ne_nil hz
  unfold npRow
  exact (((hopen.append (calm_lit hlabel)).append (calm_lit (by decide))).append hvalue).append
    (calm_lit (by decide))

theorem calm_row (p : Bool) {label : List Char} {value : String} (hlabel : isCalm label = true) (hvalue : Calm value) :
    Calm (onlyIf p (npRow (String.ofList label) value)) := calm_onlyIf p (block_npRow hlabel hvalue).calm

theorem calm_divEnd : Calm "</div>" := calm_lit (by decide)

theorem part_radioSection (e : JsNode) : Part (radioSection b e) := by
  refine part_onlyIf _ (Block.append ?_ calm_divEnd)
  refine ((((((block_title ?_).append (calm_row _ ?_ ?_)).append (calm_row _ ?_ ?_)).append (calm_row _ ?_ ?_)).append
    (calm_row _ ?_ ?_)).append (calm_row _ ?_ ?_)).append (calm_row _ ?_ ?_)
  · decide
  · decide
  · exact calm_unit (plain_int _) (by decide)
  · decide
  · exact calm_unit (b.toFixed _ 1).2 (by decide)
  · decide
  · exact calm_unit (b.toFixed _ 1).2 (by decide)
  · decide
  · exact (plain_nat _).calm
  · decide
  · exact (plain_nat _).calm
  · decide
  · exact (plain_formatUnixAge b _).calm

theorem part_positionSection {e : JsNode} {position : String} (h : positionSection b e = some position) :
    Part position := by
  unfold positionSection at h
  split_ifs at h
  · simp only [Option.bind_eq_bind, Option.bind_eq_some_iff, Option.some.injEq] at h
    obtain ⟨latitude, -, longitude, -, rfl⟩ := h
    refine Block.part (Block.append ?_ calm_divEnd)
    refine ((((((block_title ?_).append (block_npRow ?_ ?_).calm).append (calm_row _ ?_ ?_)).append
      (calm_row _ ?_ ?_)).append (calm_row _ ?_ ?_)).append (calm_row _ ?_ ?_)).append (calm_row _ ?_ ?_)
    · decide
    · decide
    · exact (calm_unit (b.degrees latitude 6).2 (by decide)).append (b.degrees longitude 6).2.calm
    · decide
    · exact calm_unit (plain_int _) (by decide)
    · decide
    · exact calm_unit (plain_nat _) (by decide)
    · decide
    · exact calm_unit (plain_nat _) (by decide)
    · decide
    · exact (plain_nat _).calm
    · decide
    · exact (plain_formatUnixAge b _).calm
  · obtain rfl := Option.some.inj h
    have hnone : Block (String.ofList (sectionTag ++ [])) := block_title rfl
    exact part_onlyIf false hnone

theorem calm_batteryRow (e : JsNode) : Calm ("<div class=\"np-row\"><span class=\"np-label\">Battery</span>" ++
    "<span class=\"np-value\"><span class=\"np-bar\"><span class=\"np-bar-fill\" style=\"width:" ++
    toString (battery e).1 ++ "%;background:" ++ (battery e).2 ++ "\"></span></span>" ++
    toString (battery e).1 ++ "%</span></div>") where
  whole := by
    have hlevel := plain_nat (battery e).1
    refine Reads.whole
      ((((reads_lit.lit.value ?_ hlevel).lit.value ?_ (plain_battery e)).lit.value ?_ hlevel).lit) ?_
    · decide
    · decide
    · decide
    · decide
  hush := by
    have hlevel := (plain_nat (battery e).1).hush
    refine ((((((Hush.append (hush_lit ?_) (hush_lit ?_)).append hlevel).append (hush_lit ?_)).append
      (plain_battery e).hush).append (hush_lit ?_)).append hlevel).append (hush_lit ?_)
    · decide
    · decide
    · decide
    · decide
    · decide

theorem part_deviceSection (e : JsNode) : Part (deviceSection b e) := by
  refine part_onlyIf _ (Block.append ?_ calm_divEnd)
  refine (((((block_title ?_).append (calm_onlyIf _ (calm_batteryRow e))).append (calm_row _ ?_ ?_)).append
    (calm_row _ ?_ ?_)).append (calm_row _ ?_ ?_)).append (calm_row _ ?_ ?_)
  · decide
  · decide
  · exact calm_unit (b.toFixed _ 2).2 (by decide)
  · decide
  · exact (plain_formatUptime _).calm
  · decide
  · exact calm_unit (b.toFixed _ 1).2 (by decide)
  · decide
  · exact calm_unit (b.toFixed _ 1).2 (by decide)

theorem part_environmentSection (e : JsNode) : Part (environmentSection b e) := by
  refine part_onlyIf _ (Block.append ?_ calm_divEnd)
  refine (((block_title ?_).append (calm_row _ ?_ ?_)).append (calm_row _ ?_ ?_)).append (calm_row _ ?_ ?_)
  · decide
  · decide
  · exact calm_unit (b.toFixed _ 1).2 (by decide)
  · decide
  · exact calm_unit (b.toFixed _ 1).2 (by decide)
  · decide
  · exact calm_unit (b.toFixed _ 1).2 (by decide)

theorem calm_svgTrace : Calm svgTrace where
  whole := whole_svg.1
  hush := by
    refine ((((hush_lit ?_).append (hush_lit ?_)).append (hush_lit ?_)).append (hush_lit ?_)).append (hush_lit ?_)
    · decide
    · decide
    · decide
    · decide
    · decide

theorem calm_traceButton (ts : Trace) (num : UInt32) : Calm ("<button class=\"np-trace-btn\" data-trace-target=\"" ++
    toString num.toNat ++ "\"" ++ onlyIf ts.active " disabled" ++ " onclick=\"startTraceroute(" ++
    toString num.toNat ++ ")\">") where
  whole := by
    have hnum := plain_nat num.toNat
    cases ts.active
    · exact (((reads_lit.value (by decide) hnum).lit.lit.lit.value (by decide) hnum).lit).whole
        (by decide)
    · exact (((reads_lit.value (by decide) hnum).lit.lit.lit.value (by decide) hnum).lit).whole
        (by decide)
  hush := by
    have hnum := (plain_nat num.toNat).hush
    have hdisabled : Calm (onlyIf ts.active " disabled") := calm_onlyIf _ (calm_lit (by decide))
    refine ((((((hush_lit ?_).append hnum).append (hush_lit ?_)).append hdisabled.hush).append (hush_lit ?_)).append
      hnum).append (hush_lit ?_)
    · decide
    · decide
    · decide
    · decide

theorem block_traceSection (ts : Trace) (num : UInt32) : Block (traceSection ts num) := by
  have hopen : Block "<div class=\"np-section\" style=\"text-align:center;\">" := by
    refine ⟨calm_lit (by decide), [], ⟨false, "div".toList, ["class".toList, "style".toList]⟩, [],
      by decide, fun z hz => ⟨(z.push "np-section\"".toList).push "style".toList, ?_, ?_⟩⟩
    · simp [scan, feed, isSpace, Tag.push]
    · simpa [Tag.push] using List.length_pos_of_ne_nil hz
  have hclose : Calm "</button></div>" := calm_lit (by decide)
  have hbutton {content : String} (hcontent : Calm content) :=
    hopen.append (((calm_traceButton ts num).append hcontent).append hclose)
  simp only [String.append_assoc] at hbutton
  unfold traceSection
  simp only [String.append_assoc]
  split
  · exact hbutton (calm_unit (plain_nat _) (by decide))
  · split_ifs
    · exact hbutton (calm_svgTrace.append (calm_lit (by decide)))
    · exact hbutton (calm_svgTrace.append (calm_lit (by decide)))
    · exact hbutton (calm_svgTrace.append (calm_lit (by decide)))

/-- what follows the popup's user id and its `</span>` -/
def afterID (ts : Trace) (num : UInt32) (entry : JsNode) (position : String) : String :=
  "</div>" ++ onlyIf (truthy entry.hwModel) (npRow "Hardware" (formatHwModel (readField entry.hwModel))) ++
    onlyIf (truthy entry.role) (npRow "Role" (formatRole (readField entry.role))) ++ "</div>" ++
    radioSection b entry ++ position ++ deviceSection b entry ++ environmentSection b entry ++ traceSection ts num ++
    "</div>"

theorem block_afterID (ts : Trace) (num : UInt32) {e : JsNode} {position : String} (hhw : Plain (readField e.hwModel))
    (hrole : Plain (readField e.role)) (hposition : positionSection b e = some position) :
    Block (afterID b ts num e position) := by
  have hdiv : Part "</div>" := part_lit (by decide) (by decide)
  have hhwRow : Part (onlyIf (truthy e.hwModel) (npRow "Hardware" (formatHwModel (readField e.hwModel)))) :=
    part_onlyIf _ (block_npRow (by decide) (plain_formatHwModel hhw).calm)
  have hroleRow : Part (onlyIf (truthy e.role) (npRow "Role" (formatRole (readField e.role)))) :=
    part_onlyIf _ (block_npRow (by decide) (plain_formatRole hrole).calm)
  have hrows := ((hdiv.append hhwRow).append hroleRow).append hdiv
  have hsections := (((hrows.append (part_radioSection b e)).append (part_positionSection b hposition)).append
    (part_deviceSection b e)).append (part_environmentSection b e)
  exact (hsections.append_block (block_traceSection ts num)).append calm_divEnd

end MeshProxy.Markup
