import MoviesApp.Screens.DetailsTable

/-! The strip of cast or reviews in row 1 of a details screen. Its collection asks for items
below the count it last got, while the list it got the count of may be replaced, or another
one selected. Only the observer on the cast and the segment's action reload it. -/
namespace MoviesApp.CastStrip
open DetailsVC (CastTableViewCell)

/-- What `cellForItemAt` sets up; the last is a plain `UICollectionViewCell`. -/
inductive Item where
  | cast (actorInfo : ActorInfo)
  | reviews (review : Review)
  | plain
  deriving DecidableEq

/-- An index that was passed to `cellForItemAt`, the length of the list selected at that
moment, and the item; `none` is an index out of range, which traps. -/
structure Request where
  item : Nat
  count : Nat
  answer : Option Item
  deriving DecidableEq

/-- The collection remembers the count it last got. -/
structure State where
  cell : CastTableViewCell
  selectedSegmentIndex : Int
  collectionView : Reload.View Nat
  requests : List Request

def numberOfItemsInSection (s : State) : Nat :=
  match s.selectedSegmentIndex with
  | 0 => s.cell.cast.length
  | 1 => s.cell.reviews.length
  | _ => 0

def cellForItemAt (s : State) (item : Nat) : Option Item :=
  match s.selectedSegmentIndex with
  | 0 => s.cell.cast[item]?.map .cast
  | 1 => s.cell.reviews[item]?.map .reviews
  | _ => some .plain

/-- The strip as its interface file has it; `setup()` gives the collection its data source. -/
def State.start : State := ⟨⟨[], []⟩, 0, ⟨true, 0⟩, []⟩

/-- The observer on the cast reloads the collection. -/
def State.setCast (s : State) (cast : List ActorInfo) : State := { s with
  cell := { s.cell with cast := cast }
  collectionView := s.collectionView.reloadData }

def State.setReviews (s : State) (reviews : List Review) : State :=
  { s with cell := { s.cell with reviews := reviews } }

def setupWithViewModel (s : State) (cast : List ActorInfo) (reviews : List Review) : State :=
  (s.setCast cast).setReviews reviews

def didChangeSegment (s : State) : State :=
  { s with collectionView := s.collectionView.reloadData }

/-- A layout or scroll pass consists of any of the last two. -/
inductive Action where
  | setupWithViewModel (cast : List ActorInfo) (reviews : List Review)
  | selectSegment (selectedSegmentIndex : Int)
  | numberOfItemsInSection
  | cellForItemAt (item : Nat)

/-- After a reload no cell is asked for before the count. -/
def step (s : State) : Action → Option State
  | .setupWithViewModel cast reviews => some (setupWithViewModel s cast reviews)
  | .selectSegment selectedSegmentIndex =>
    some (didChangeSegment { s with selectedSegmentIndex := selectedSegmentIndex })
  | .numberOfItemsInSection => some { s with collectionView := .layout (numberOfItemsInSection s) }
  | .cellForItemAt item =>
    if s.collectionView.pending = false ∧ item < s.collectionView.shown then
      some { s with
        requests := s.requests ++ [⟨item, numberOfItemsInSection s, cellForItemAt s item⟩] }
    else none

def machine : Transition.Machine State Action := ⟨step⟩

/-- The index is below the selected list's length, and nothing traps. -/
def Request.InRange (request : Request) : Prop :=
  request.item < request.count ∧ request.answer.isSome

/-- Unless a reload is pending the remembered count is the selected list's length. -/
structure Inv (s : State) : Prop where
  count : s.collectionView.Shows fun count => count = numberOfItemsInSection s
  inRange : ∀ request ∈ s.requests, request.InRange

variable {s t : State} {a : Action} {acts : List Action}

/-- The row that the details screen's table lays out holds what the strip shows. -/
theorem cellForRowAt_strip (screen : Details.Screen) (details : DetailsVC.DetailsTableViewCell)
    (s : State) : (DetailsVC.cellForRowAt screen details s.cell).cast =
      (setupWithViewModel s screen.cast screen.reviews).cell := rfl

theorem cellForItemAt_isSome {item : Nat} (below : item < numberOfItemsInSection s) :
    (cellForItemAt s item).isSome := by
  unfold numberOfItemsInSection at below
  unfold cellForItemAt
  split at below
  · rw [Option.isSome_map, List.getElem?_eq_getElem below]
    rfl
  · rw [Option.isSome_map, List.getElem?_eq_getElem below]
    rfl
  · exact absurd below (Nat.not_lt_zero item)

theorem start_inv : Inv .start := by
  refine ⟨?_, List.forall_mem_nil _⟩
  intro laidOut
  contradiction

theorem step_inv (inv : Inv s) (step : machine.step s a = some t) : Inv t := by
  cases a with
  | setupWithViewModel cast reviews =>
    cases Option.some.inj step
    -- The reviews are assigned silently, but after the cast's reload.
    exact ⟨Reload.View.shows_reloadData, inv.inRange⟩
  | selectSegment selectedSegmentIndex =>
    cases Option.some.inj step
    exact ⟨Reload.View.shows_reloadData, inv.inRange⟩
  | numberOfItemsInSection =>
    cases Option.some.inj step
    exact ⟨Reload.View.shows_layout rfl, inv.inRange⟩
  | cellForItemAt item =>
    obtain ⟨⟨laidOut, below⟩, asked⟩ := Option.ite_none_right_eq_some.mp step
    cases Option.some.inj asked
    rw [inv.count laidOut] at below
    exact ⟨inv.count, Pool.forall_snoc inv.inRange ⟨below, cellForItemAt_isSome below⟩⟩

/-- For every run of setups, segment changes and passes of the collection: every index
passed to `cellForItemAt` is below the length of the list selected at that moment. -/
theorem requests_in_range (run : machine.run .start acts = some s) :
    ∀ request ∈ s.requests, request.item < request.count ∧ request.answer.isSome :=
  (Transition.Machine.run_invariant step_inv run start_inv).inRange

def pacino : ActorInfo := ⟨"Al Pacino", "/a.jpg"⟩

def good : Review := ⟨"Ann", ⟨none⟩, "Good."⟩

/-- Both lists are shown, and both get shorter while they are. -/
def scrolling : List Action :=
  [.setupWithViewModel [pacino, pacino] [good, good, good], .numberOfItemsInSection,
    .cellForItemAt 1, .selectSegment 1, .numberOfItemsInSection, .cellForItemAt 2,
    .setupWithViewModel [pacino] [good], .numberOfItemsInSection, .cellForItemAt 0]

theorem requests_in_range_scrolling : ∃ s, machine.run .start scrolling = some s ∧
    s.requests = [⟨1, 2, some (.cast pacino)⟩, ⟨2, 3, some (.reviews good)⟩,
      ⟨0, 1, some (.reviews good)⟩] ∧
    ∀ request ∈ s.requests, request.item < request.count ∧ request.answer.isSome := by
  have observed : (machine.run .start scrolling).map State.requests =
      some [⟨1, 2, some (.cast pacino)⟩, ⟨2, 3, some (.reviews good)⟩,
        ⟨0, 1, some (.reviews good)⟩] := by
    decide +kernel
  obtain ⟨s, run, requests⟩ := Option.map_eq_some_iff.mp observed
  exact ⟨s, run, requests, requests_in_range run⟩

end MoviesApp.CastStrip
