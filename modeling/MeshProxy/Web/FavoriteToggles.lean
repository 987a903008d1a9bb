/-
Concurrent SetFavorite calls on one node (`internal/metrics/node_directory.go`: SetFavorite; `pubsub.go`: publish;
`internal/web/templates/static/app.js`: the node_favorite handler).

A call changes the directory under the lock and publishes after it has released it, so the calls of several HTTP requests
may publish in another order than they changed the directory. Here any number of calls run interleaved with the delivery of
the events to one page. `updated` and `published` list the values the calls brought, in the order of the two steps.

- `call_alone`: a call that is not interrupted is the store's SetFavorite;
- `favorites_converge_iff`: when all is done the page shows the server's flag exactly when the last value written is the
  last value published (node number 0 apart, of which the handler takes no notice).
-/
import MeshProxy.Web.Dashboard

namespace MeshProxy.FavoriteToggles

open MeshProxy.Store MeshProxy.Dashboard MeshProxy.Trace

/-! ## The machine -/

/-- where a SetFavorite call is -/
inductive Pc where
  | start | updated | returned
deriving DecidableEq, Repr

/-- a SetFavorite call: its argument and where it is -/
structure Toggle where
  fav : Bool
  pc : Pc := .start
deriving DecidableEq, Repr

structure St where
  dir : Directory
  toggles : List Toggle
  /-- the page's channel, with room for every event -/
  channel : List Event
  page : Page
  updated : List Bool
  published : List Bool

inductive Act where
  | update (i : ℕ)
  | publish (i : ℕ)
  | deliver

/-- the calls of SetFavorite(n, ·), one for each value -/
def St.init (dir : Directory) (page : Page) (favs : List Bool) : St where
  dir := dir
  toggles := favs.map fun fav => { fav := fav }
  channel := []
  page := page
  updated := []
  published := []

/-- the part under the lock; a node that is not found ends the call -/
def St.update (n : UInt32) (s : St) (i : ℕ) (t : Toggle) : St :=
  match s.dir.get? n with
  | none => { s with toggles := s.toggles.set i { t with pc := .returned } }
  | some entry =>
    { s with
      dir := s.dir.set n { entry with isFavorite := t.fav }
      toggles := s.toggles.set i { t with pc := .updated }
      updated := s.updated ++ [t.fav] }

def St.publish (n : UInt32) (s : St) (i : ℕ) (t : Toggle) : St :=
  { s with
    toggles := s.toggles.set i { t with pc := .returned }
    channel := s.channel ++ [.nodeFavorite n t.fav]
    published := s.published ++ [t.fav] }

def step (n : UInt32) (s : St) : Act → St
  | .update i =>
    match s.toggles[i]? with
    | some t => if t.pc = .start then s.update n i t else s
    | none => s
  | .publish i =>
    match s.toggles[i]? with
    | some t => if t.pc = .updated then s.publish n i t else s
    | none => s
  | .deliver =>
    match s.channel with
    | [] => s
    | e :: es => { s with channel := es, page := s.page.receive e }

/-- the server's flag -/
def stored (dir : Directory) (n : UInt32) : Option Bool := (dir.get? n).map (·.isFavorite)

/-- the page's flag -/
def shown (p : Page) (n : UInt32) : Option Bool := p.nodeDir.bind fun js => (js.get? n).map fun j => readField j.isFavorite

/-- all calls have returned and all events are delivered -/
structure Done (s : St) : Prop where
  returned : ∀ t ∈ s.toggles, t.pc = .returned
  delivered : s.channel = []

/-- the values the handler acts on: it takes node number 0 for a missing one -/
def heard (n : UInt32) (published : List Bool) : List Bool := if n = 0 then [] else published

/-- a call that is not interrupted is the store's SetFavorite: the same directory, the same event -/
theorem call_alone (m : Metrics) (page : Page) (n : UInt32) (fav : Bool) :
    (run (step n) (.init m.nodeDir page [fav]) [.update 0, .publish 0]).dir = (m.setFavorite n fav).1.nodeDir ∧
      m.events ++ (run (step n) (.init m.nodeDir page [fav]) [.update 0, .publish 0]).channel =
        (m.setFavorite n fav).1.events := by
  cases he : m.nodeDir.get? n with
  | none => simp [step, St.init, St.update, Metrics.setFavorite, he]
  | some entry => simp [step, St.init, St.update, St.publish, Metrics.setFavorite, Metrics.publish, he]

/-! ## The two flags -/

theorem stored_set (dir : Directory) (n : UInt32) (entry : NodeEntry) :
    stored (dir.set n entry) n = some entry.isFavorite := by
  simp [stored, GoMap.get?_set]

theorem mirrors_shown {dir : Directory} {p : Page} (h : Mirrors dir p) (n : UInt32) : shown p n = stored dir n := by
  obtain ⟨js, hp, hget⟩ := h
  have hflag := congrArg (Option.map NodeEntry.isFavorite) (hget n)
  rw [Option.map_map, Option.map_map] at hflag
  have hright : (dir.get? n).map (NodeEntry.isFavorite ∘ fun e => view (nodeJson e)) = stored dir n :=
    Option.map_congr fun e _ => norm_bool e.isFavorite
  rw [hright] at hflag
  rw [shown, hp]
  exact hflag

/-- the handler: a node the page has gets the flag, unless its number is 0 -/
theorem shown_favorite (p : Page) (n : UInt32) (fav : Bool) :
    shown (p.receive (.nodeFavorite n fav)) n = if n = 0 then shown p n else (shown p n).map fun _ => fav := by
  unfold Page.receive
  simp only [marshal, Page.onEvent, Page.onNodeFavorite]
  cases hp : p.nodeDir with
  | none => simp [shown, hp]
  | some js =>
    by_cases h0 : n = 0
    · simp [h0]
    · cases hj : js.get? n with
      | none => simp [h0, hj, shown, hp]
      | some j => simp [h0, hj, shown, hp, GoMap.get?_set, readField]

/-- the flag the server has after the updates so far, and the one the page has once it has its events -/
structure Inv (n : UInt32) (first : Option Bool) (s : St) : Prop where
  server : stored s.dir n = first.map s.updated.getLastD
  page : shown (s.page.receiveAll s.channel) n = first.map (heard n s.published).getLastD

variable {n : UInt32} {first : Option Bool} {s : St}

theorem update_inv (h : Inv n first s) (i : ℕ) (t : Toggle) : Inv n first (s.update n i t) := by
  unfold St.update
  cases he : s.dir.get? n with
  | none => exact ⟨h.server, h.page⟩
  | some entry =>
    refine ⟨?_, h.page⟩
    have hfirst : first.map s.updated.getLastD = some entry.isFavorite := by
      rw [← h.server, stored, he]
      rfl
    obtain ⟨f, rfl, -⟩ := Option.map_eq_some_iff.1 hfirst
    simp only [stored_set, Option.map_some, List.getLastD_concat]

theorem publish_inv (h : Inv n first s) (i : ℕ) (t : Toggle) : Inv n first (s.publish n i t) := by
  refine ⟨h.server, ?_⟩
  simp only [St.publish, Page.receiveAll, List.foldl_append, List.foldl_cons, List.foldl_nil]
  rw [shown_favorite]
  have hpage := h.page
  unfold Page.receiveAll at hpage
  rw [hpage]
  by_cases h0 : n = 0
  · simp [h0, heard]
  · cases first with
    | none => simp [h0]
    | some f => simp [h0, heard]

theorem step_inv (s : St) (a : Act) (h : Inv n first s) : Inv n first (step n s a) := by
  cases a with
  | update i =>
    simp only [step]
    split
    · split_ifs
      · exact update_inv h i _
      · exact h
    · exact h
  | publish i =>
    simp only [step]
    split
    · split_ifs
      · exact publish_inv h i _
      · exact h
    · exact h
  | deliver =>
    simp only [step]
    split
    · exact h
    · rename_i e es hch
      refine ⟨h.server, ?_⟩
      have hpage := h.page
      rw [hch] at hpage
      exact hpage

/-- **Favourite toggles.** For every number of concurrent SetFavorite calls on a node, every interleaving and every page
that mirrors the server at the start: once all calls have returned and all events are delivered, the page's flag equals
the server's exactly when the last value written into the directory is the last one the page heard of (or the node is
unknown). -/
theorem favorites_converge_iff (n : UInt32) (dir : Directory) (page : Page) (favs : List Bool) (as : List Act)
    (hstart : Mirrors dir page) (hdone : Done (run (step n) (.init dir page favs) as)) :
    shown (run (step n) (.init dir page favs) as).page n = stored (run (step n) (.init dir page favs) as).dir n ↔
      ∀ e, dir.get? n = some e →
        (run (step n) (.init dir page favs) as).updated.getLastD e.isFavorite =
          (heard n (run (step n) (.init dir page favs) as).published).getLastD e.isFavorite := by
  have hinit : Inv n (stored dir n) (.init dir page favs) := by
    have hheard : heard n [] = [] := by simp [heard]
    refine ⟨?_, ?_⟩
    · cases hd : stored dir n <;> simp [St.init, hd]
    · rw [St.init, Page.receiveAll, List.foldl_nil, mirrors_shown hstart, hheard]
      cases stored dir n <;> rfl
  have hinv := run_inv_all (fun s a => step_inv s a) as hinit
  generalize run (step n) (.init dir page favs) as = s at hdone hinv ⊢
  have hpage := hinv.page
  rw [hdone.delivered, Page.receiveAll, List.foldl_nil] at hpage
  rw [hpage, hinv.server]
  cases he : dir.get? n with
  | none => simp [stored, he]
  | some e =>
    simp only [stored, he, Option.map_some, Option.some.injEq, forall_eq']
    exact eq_comm

/-! ### Two calls -/

/-- a server that has node 0x11, and its page -/
def elevenPage : Page := ⟨some ((elevenDir false).map nodeJson), fun _ => 0, 0⟩

theorem eleven_mirrors : Mirrors (elevenDir false) elevenPage := by
  refine ⟨_, rfl, fun n => ?_⟩
  rw [GoMap.get?_map, Option.map_map]
  rfl

/-- "yes" and "no", each published before the next is written -/
def inOrder : List Act := [.update 0, .publish 0, .update 1, .deliver, .publish 1, .deliver]

/-- both are written, then published the other way round -/
def crossed : List Act := [.update 0, .update 1, .publish 1, .publish 0, .deliver, .deliver]

theorem favorites_converge_in_order :
    shown (run (step 0x11) (.init (elevenDir false) elevenPage [true, false]) inOrder).page 0x11 =
      stored (run (step 0x11) (.init (elevenDir false) elevenPage [true, false]) inOrder).dir 0x11 := by
  refine (favorites_converge_iff 0x11 (elevenDir false) elevenPage [true, false] inOrder eleven_mirrors
    ⟨by decide +kernel, ?_⟩).2 ?_
  · rfl
  · intro e _
    rfl

/-- crossed, the page shows "yes" while the server has "no" -/
theorem favorites_diverge :
    Mirrors (elevenDir false) elevenPage ∧
    Done (run (step 0x11) (.init (elevenDir false) elevenPage [true, false]) crossed) ∧
    shown (run (step 0x11) (.init (elevenDir false) elevenPage [true, false]) crossed).page 0x11 ≠
      stored (run (step 0x11) (.init (elevenDir false) elevenPage [true, false]) crossed).dir 0x11 :=
  ⟨eleven_mirrors, ⟨by decide +kernel, rfl⟩, by decide +kernel⟩

end MeshProxy.FavoriteToggles
