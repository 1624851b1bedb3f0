import MoviesApp.Extensions.UIImageView
import MoviesApp.Models.Responses
import MoviesApp.Transition

/-! The reusable cells with a downloaded picture, under every order of reuses, responses
and deliveries. -/
namespace MoviesApp.Cells
open ImageView

/-- A cell class: the picture in its interface file, the one `prepareForReuse` puts into
place if the class overrides it, and the path that `setup` takes from a record. -/
structure CellClass (Record : Type) where
  picture : Placeholder
  prepareForReuse : Option Placeholder
  path : Record → Option String

def filmsCollectionViewCell : CellClass MovieInfo := ⟨.blank, some .blank, MovieInfo.poster⟩

def searchTableViewCell : CellClass MovieInfo := ⟨.blank, none, MovieInfo.poster⟩

def castCollectionViewCell : CellClass ActorInfo :=
  ⟨.blank, some (.named "no image"), ActorInfo.profilePath⟩

def reviewsCollectionViewCell : CellClass Review :=
  ⟨.named "no image", none, fun review => review.authorDetails.avatarPath⟩

/-- One cell with the records it was set up with. -/
structure Cell (Record : Type) where
  view : ImageView
  records : List Record

/-- The last record's download has put its picture into place. -/
def Cell.Loaded {Record : Type} (cell : Cell Record) : Prop :=
  ∃ download ∈ cell.view.arrived, download.serial + 1 = cell.records.length

instance {Record : Type} (cell : Cell Record) : Decidable cell.Loaded :=
  inferInstanceAs (Decidable (∃ download ∈ cell.view.arrived, _ = _))

inductive Action (Record : Type) where
  | dequeue (record : Record)
  | respond (serial : Nat) (response : ImageResponse)
  | deliver (serial : Nat)

variable {Record : Type} (c : CellClass Record)

namespace CellClass

def new : Cell Record := ⟨.start c.picture, []⟩

def prepare (view : ImageView) : ImageView :=
  match c.prepareForReuse with
  | some picture => { view with image := .placeholder picture }
  | none => view

def setup (cell : Cell Record) (record : Record) : Cell Record :=
  ⟨cell.view.downloaded (c.path record), cell.records ++ [record]⟩

/-- A cell that was in use is prepared before its next record. -/
def dequeue (cell : Cell Record) (record : Record) : Cell Record :=
  c.setup (if cell.records.isEmpty then cell else { cell with view := c.prepare cell.view }) record

def step (cell : Cell Record) : Action Record → Option (Cell Record)
  | .dequeue record => some (c.dequeue cell record)
  | .respond serial response =>
    (cell.view.respond serial response).map fun view => { cell with view := view }
  | .deliver serial => (cell.view.deliver serial).map fun view => { cell with view := view }

def machine : Transition.Machine (Cell Record) (Action Record) := ⟨c.step⟩

/-- Once no download is under way the cell shows the picture at the last record's path if
that download succeeded, and otherwise the class's own picture. -/
structure ShowsOwnPicture (cell : Cell Record) : Prop where
  loaded : cell.view.outstanding = [] → cell.Loaded → ∃ record url,
    cell.records.getLast? = some record ∧ posterURL (c.path record) = some url ∧
    cell.view.image = .downloaded url
  unloaded : cell.view.outstanding = [] → ¬ cell.Loaded → ∃ picture,
    cell.view.image = .placeholder picture ∧
    (picture = c.picture ∨ c.prepareForReuse = some picture)

/-- A record without a URL and a failing response of the last record's download find no
picture from before, and no picture of an earlier record comes after the last record's
own download, unless it comes from the same URL. -/
def Undisturbed (cell : Cell Record) : Action Record → Prop
  | .dequeue record => posterURL (c.path record) = none →
      c.prepareForReuse.isSome ∨ cell.view.image.IsPlaceholder
  | .respond serial response => FailsPlain cell.view serial response
  | .deliver serial => InOrder cell.view serial

instance (cell : Cell Record) : (a : Action Record) → Decidable (c.Undisturbed cell a)
  | .dequeue record => inferInstanceAs (Decidable (posterURL (c.path record) = none → _))
  | .respond serial response => inferInstanceAs (Decidable (FailsPlain cell.view serial response))
  | .deliver serial => inferInstanceAs (Decidable (InOrder cell.view serial))

/-- What every run keeps: one link for each record, and no placeholder but the class's own. -/
structure Kept (cell : Cell Record) : Prop where
  numbered : Numbered cell.view
  requested : cell.view.requested = cell.records.map fun record => posterURL (c.path record)
  own : ∀ picture, cell.view.image = .placeholder picture →
    picture = c.picture ∨ c.prepareForReuse = some picture

variable {c} {cell next : Cell Record} {a : Action Record} {acts : List (Action Record)}

/-- A setup finds the picture from before, or the reset one. -/
theorem dequeue_cases (cell : Cell Record) (record : Record) :
    ∃ image, c.dequeue cell record =
        ⟨{ cell.view with image := image }.request (posterURL (c.path record)),
          cell.records ++ [record]⟩ ∧
      ((image = cell.view.image ∧ (cell.records = [] ∨ c.prepareForReuse = none)) ∨
        ∃ picture, c.prepareForReuse = some picture ∧ image = .placeholder picture) := by
  unfold dequeue
  cases used : cell.records with
  | nil => exact ⟨cell.view.image, by simp [setup, downloaded, used], Or.inl ⟨rfl, Or.inl rfl⟩⟩
  | cons first rest =>
    cases reset : c.prepareForReuse with
    | none =>
      exact ⟨cell.view.image, by simp [setup, downloaded, prepare, reset],
        Or.inl ⟨rfl, Or.inr rfl⟩⟩
    | some picture =>
      exact ⟨.placeholder picture, by simp [setup, downloaded, prepare, reset],
        Or.inr ⟨picture, rfl, rfl⟩⟩

/-- No download is there before the first setup. -/
theorem Kept.unused (kept : Kept c cell) (unused : cell.records = []) {download : Download}
    (member : download ∈ cell.view.outstanding ++ cell.view.arrived) : False := by
  have earlier := kept.numbered.earlier member
  rw [kept.requested, unused] at earlier
  exact Nat.not_lt_zero _ earlier

theorem step_kept (kept : Kept c cell) (step : c.machine.step cell a = some next) :
    Kept c next := by
  cases a with
  | dequeue record =>
    obtain rfl := Option.some.inj step
    obtain ⟨image, same, picture⟩ := dequeue_cases (c := c) cell record
    rw [same]
    refine ⟨request_numbered (kept.numbered.set image) _, ?_, ?_⟩
    · rw [List.map_append, ← kept.requested]
      rfl
    · intro shown equal
      rcases picture with ⟨rfl, -⟩ | ⟨reset, prepared, rfl⟩
      · exact kept.own shown equal
      · cases equal
        exact Or.inr prepared
  | respond serial response =>
    obtain ⟨view, stepped, rfl⟩ := Option.map_eq_some_iff.mp step
    obtain ⟨requested, image, -⟩ := respond_requested stepped
    exact ⟨respond_numbered kept.numbered stepped, requested.trans kept.requested,
      fun picture shown => kept.own picture (image.symm.trans shown)⟩
  | deliver serial =>
    obtain ⟨view, stepped, rfl⟩ := Option.map_eq_some_iff.mp step
    have numbered := deliver_numbered kept.numbered stepped
    obtain ⟨_, _, _, rfl⟩ := deliver_cases stepped
    exact ⟨numbered, kept.requested, fun _ shown => (nomatch shown)⟩

theorem step_shows (kept : Kept c cell) (shows : ShowsLatest cell.view)
    (undisturbed : c.Undisturbed cell a) (step : c.machine.step cell a = some next) :
    ShowsLatest next.view := by
  cases a with
  | dequeue record =>
    obtain rfl := Option.some.inj step
    obtain ⟨image, same, picture⟩ := dequeue_cases (c := c) cell record
    rw [same]
    apply request_shows (kept.numbered.set image)
    intro without
    rcases picture with ⟨rfl, unused | unreset⟩ | ⟨reset, -, rfl⟩
    · exact shows.unloaded fun _ member _ => kept.unused unused member
    · rcases undisturbed without with resets | plain
      · rw [unreset] at resets
        contradiction
      · exact plain
    · exact ⟨reset, rfl⟩
  | respond serial response =>
    obtain ⟨view, stepped, rfl⟩ := Option.map_eq_some_iff.mp step
    exact respond_shows shows undisturbed stepped
  | deliver serial =>
    obtain ⟨view, stepped, rfl⟩ := Option.map_eq_some_iff.mp step
    exact deliver_shows kept.numbered undisturbed stepped

/-- What the view shows for its latest link is what the cell shows for its last record. -/
theorem Kept.shows (kept : Kept c cell) (shows : ShowsLatest cell.view) :
    c.ShowsOwnPicture cell := by
  have length : cell.view.requested.length = cell.records.length := by
    rw [kept.requested, List.length_map]
  constructor
  · rintro - ⟨download, arrived, last⟩
    have asked := kept.numbered.requested download (List.mem_append_right _ arrived)
    rw [kept.requested, List.getElem?_map] at asked
    obtain ⟨record, found, url⟩ := Option.map_eq_some_iff.mp asked
    refine ⟨record, download.url, ?_, url, shows.loaded download arrived (last.trans length.symm)⟩
    rw [List.getLast?_eq_getElem?, ← last, Nat.add_sub_cancel, found]
  · intro settled unloaded
    have plain : cell.view.image.IsPlaceholder := by
      apply shows.unloaded
      intro download member latest
      rw [settled] at member
      exact unloaded ⟨download, member, latest.trans length⟩
    obtain ⟨picture, shown⟩ := plain
    exact ⟨picture, shown, kept.own picture shown⟩

theorem new_kept : Kept c c.new :=
  ⟨start_numbered c.picture, rfl, fun _ shown => Or.inl (Picture.placeholder.inj shown).symm⟩

/-- In every run whose steps are undisturbed, whatever the cell class, every state reached
shows the last record's picture or the class's own. -/
theorem shows_own_picture (run : c.machine.run c.new acts = some cell)
    (undisturbed : c.machine.Along c.Undisturbed c.new acts) : c.ShowsOwnPicture cell := by
  obtain ⟨kept, shows⟩ := Transition.Machine.run_invariant_along
    (P := fun cell : Cell Record => Kept c cell ∧ ShowsLatest cell.view)
    (fun inv undisturbed step =>
      ⟨step_kept inv.1 step, step_shows inv.1 inv.2 undisturbed step⟩)
    run undisturbed ⟨new_kept, start_shows c.picture⟩
  exact kept.shows shows

end CellClass

def review (avatarPath : Option String) : Review := ⟨some "Ann", ⟨avatarPath⟩, some "Good."⟩

def movie (poster : String) : MovieInfo :=
  ⟨some poster, some 949, some "Heat", none, none, none, none, none, none⟩

def poster (name : String) (valid : URL.wellFormed ("https://image.tmdb.org/t/p/w500" ++ name)) :
    Picture :=
  .downloaded ⟨_, valid⟩

/-- The first review's download is overtaken by the reuse and still comes first. -/
def reused : List (Action Review) :=
  [.dequeue (review "/a.jpg"), .dequeue (review "/b.jpg"), .respond 0 .jpeg, .deliver 0,
    .respond 1 .jpeg, .deliver 1]

theorem shows_own_picture_reused : ∃ cell,
    reviewsCollectionViewCell.machine.run reviewsCollectionViewCell.new reused = some cell ∧
    cell.view.outstanding = [] ∧ cell.view.image = poster "/b.jpg" (by decide +kernel) ∧
    reviewsCollectionViewCell.ShowsOwnPicture cell := by
  have observed : (reviewsCollectionViewCell.machine.run reviewsCollectionViewCell.new reused).map
      (fun cell => (cell.view.outstanding, cell.view.image)) =
        some ([], poster "/b.jpg" (by decide +kernel)) := by
    decide +kernel
  obtain ⟨cell, run, seen⟩ := Option.map_eq_some_iff.mp observed
  refine ⟨cell, run, congrArg Prod.fst seen, congrArg Prod.snd seen, ?_⟩
  exact CellClass.shows_own_picture run (by decide +kernel)

/-- A review without an avatar keeps the one from before, which no `prepareForReuse` takes
away; and a film's poster that comes late replaces the next film's, which it does not prevent. -/
theorem earlier_picture_shown :
    (∃ cell, reviewsCollectionViewCell.machine.run reviewsCollectionViewCell.new
        [.dequeue (review "/a.jpg"), .respond 0 .jpeg, .deliver 0, .dequeue (review none)] =
          some cell ∧
      cell.view.outstanding = [] ∧ cell.records.getLast? = some (review none) ∧
      cell.view.image = poster "/a.jpg" (by decide +kernel) ∧
      ¬ reviewsCollectionViewCell.ShowsOwnPicture cell) ∧
    ∃ cell, filmsCollectionViewCell.machine.run filmsCollectionViewCell.new
        [.dequeue (movie "/a.jpg"), .dequeue (movie "/b.jpg"), .respond 0 .jpeg, .respond 1 .jpeg,
          .deliver 1, .deliver 0] = some cell ∧
      cell.view.outstanding = [] ∧ cell.records.getLast? = some (movie "/b.jpg") ∧
      cell.view.image = poster "/a.jpg" (by decide +kernel) ∧
      ¬ filmsCollectionViewCell.ShowsOwnPicture cell := by
  constructor
  · have observed : (reviewsCollectionViewCell.machine.run reviewsCollectionViewCell.new
        [.dequeue (review "/a.jpg"), .respond 0 .jpeg, .deliver 0, .dequeue (review none)]).map
        (fun cell => (cell.view.outstanding, cell.records.getLast?, cell.view.image,
          decide cell.Loaded)) =
          some ([], some (review none), poster "/a.jpg" (by decide +kernel), false) := by
      decide +kernel
    obtain ⟨cell, run, seen⟩ := Option.map_eq_some_iff.mp observed
    simp only [Prod.mk.injEq, decide_eq_false_iff_not] at seen
    obtain ⟨settled, last, image, unloaded⟩ := seen
    refine ⟨cell, run, settled, last, image, ?_⟩
    intro shows
    obtain ⟨picture, shown, -⟩ := shows.unloaded settled unloaded
    rw [image] at shown
    contradiction
  · have observed : (filmsCollectionViewCell.machine.run filmsCollectionViewCell.new
        [.dequeue (movie "/a.jpg"), .dequeue (movie "/b.jpg"), .respond 0 .jpeg, .respond 1 .jpeg,
          .deliver 1, .deliver 0]).map
        (fun cell => (cell.view.outstanding, cell.records.getLast?, cell.view.image,
          decide cell.Loaded)) =
          some ([], some (movie "/b.jpg"), poster "/a.jpg" (by decide +kernel), true) := by
      decide +kernel
    obtain ⟨cell, run, seen⟩ := Option.map_eq_some_iff.mp observed
    simp only [Prod.mk.injEq, decide_eq_true_eq] at seen
    obtain ⟨settled, last, image, loaded⟩ := seen
    refine ⟨cell, run, settled, last, image, ?_⟩
    intro shows
    obtain ⟨record, url, found, address, shown⟩ := shows.loaded settled loaded
    obtain rfl := Option.some.inj (last.symm.trans found)
    obtain rfl := Picture.downloaded.inj (image.symm.trans shown)
    have other : posterURL (filmsCollectionViewCell.path (movie "/b.jpg")) ≠
        some ⟨"https://image.tmdb.org/t/p/w500" ++ "/a.jpg", by decide +kernel⟩ := by
      decide +kernel
    exact other address

end MoviesApp.Cells
