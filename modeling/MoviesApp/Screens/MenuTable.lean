import MoviesApp.Reload
import MoviesApp.Screens.MainMenu

/-! What the main menu displays: a table of category rows in reused cells, and in each cell
a collection of films with their genre labels. The genres go from the menu's dictionary
into each cell's own, and from there into the labels; each hop waits for a reload. -/
namespace MoviesApp.MenuTable
open NetworkService MainMenu

/-- The texts of an item and the link of its poster. -/
structure FilmsCollectionViewCell where
  filmNameLabel : Option String
  ganreLabel : String
  poster : Option String
  deriving DecidableEq

def FilmsCollectionViewCell.setup (info : MovieInfo) (genre : String) : FilmsCollectionViewCell :=
  ⟨info.title, genre, info.poster⟩

/-- `none` is an index out of range, which traps. -/
def getGenreName (cell : Cell) (item : Nat) : Option String :=
  cell.movies[item]?.bind fun movie =>
    match movie.genre with
    | none => some ""
    | some genresId => genresId[0]?.map fun id => (cell.genresDictionary id).getD ""

def cellForItemAt (cell : Cell) (item : Nat) : Option FilmsCollectionViewCell :=
  cell.movies[item]?.bind fun info => (getGenreName cell item).map (.setup info)

/-- What a layout of the collection asks its data source for. -/
def items (cell : Cell) : Option (List FilmsCollectionViewCell) :=
  (List.range cell.movies.length).mapM (cellForItemAt cell)

/-- The table shows rows in numbered cells; each cell has a collection. -/
structure State where
  app : App client
  table : Reload.View (List (Nat × Nat))
  collections : Nat → Reload.View (List FilmsCollectionViewCell)

abbrev State.menu (s : State) : MainMenu.State := s.app.screen

def State.start (cache : URL → Option tmdb.Any) : State :=
  ⟨⟨.start cache, .start⟩, ⟨false, []⟩, fun _ => ⟨false, []⟩⟩

/-- Cells are dequeued by UIKit: a layout of the table assigns any cells to the rows, and
single rows scroll in and out. -/
inductive Action where
  | event (e : Event client)
  | layoutTable (rows : List (Nat × Nat))
  | cellForRowAt (row cell : Nat)
  | endDisplaying (row : Nat)
  | layoutCollection (cell : Nat)

/-- The observer fires for each entry that the reply writes. -/
def genresDictionaryDidChange (table : Reload.View (List (Nat × Nat))) (genres : List Genre) :
    Reload.View (List (Nat × Nat)) :=
  genres.foldl (fun table _ => table.reloadData) table

/-- The table after an event; its first layout is due once `viewDidLoad` has set it up. -/
def tableAfter (s : State) : Event client → Reload.View (List (Nat × Nat))
  | .act _ => s.table.reloadData
  | .respond .. => s.table
  | .runBlock id =>
    match s.app.service.mainQueue.find? (·.id == id) with
    | some ⟨_, .genres, value⟩ =>
      match received .genres (some value) with
      | some responce => genresDictionaryDidChange s.table responce.genres
      | none => s.table
    | _ => s.table

/-- The observer on a cell's movies reloads its collection. -/
def collectionsAfter (s : State) : Event client → Nat → Reload.View (List FilmsCollectionViewCell)
  | .runBlock id =>
    match s.app.service.mainQueue.find? (·.id == id) with
    | some ⟨_, .movies cell _ _, value⟩ =>
      match received .movies (some value) with
      | some _ => Function.update s.collections cell (s.collections cell).reloadData
      | none => s.collections
    | _ => s.collections
  | .act _ | .respond .. => s.collections

/-- The data source for one row: the cell's `setup(category:)`, its request, and the
dictionary, which reloads the cell's collection. -/
def dequeue (s : State) (entry : Nat × Nat) : Option State :=
  (App.step s.app (.act (.cellForRowAt entry.2 entry.1))).map fun app => { s with
    app := app
    collections := Function.update s.collections entry.2 (s.collections entry.2).reloadData }

def step (s : State) : Action → Option State
  | .event (.act (.cellForRowAt ..)) => none
  | .event e => (App.step s.app e).map fun app => { s with
      app := app
      table := tableAfter s e
      collections := collectionsAfter s e }
  | .layoutTable rows =>
    (rows.foldlM dequeue s).map fun s => { s with table := .layout rows }
  | .cellForRowAt row cell =>
    (dequeue s (row, cell)).map fun s => { s with
      table := { s.table with shown := s.table.shown ++ [(row, cell)] } }
  | .endDisplaying row => some { s with
      table := { s.table with shown := s.table.shown.filter (·.1 != row) } }
  | .layoutCollection cell => (items (s.app.screen.cells cell)).map fun films => { s with
      collections := Function.update s.collections cell (.layout films) }

def machine : Transition.Machine State Action := ⟨step⟩

/-- The movies that are delivered all have a genre. -/
def MoviesHaveGenres (s : State) : Action → Prop
  | .event (.runBlock id) => ∀ block ∈ s.app.service.mainQueue.find? (·.id == id),
      ∀ responce, received .movies (some block.value) = some responce →
        ∀ movie ∈ responce.results, ∃ first rest, movie.genre = some (first :: rest)
  | _ => True

variable {genres : List Genre} {dictionary : Int → Option String} {table : Reload.View (List (Nat × Nat))}
  {collections : Nat → Reload.View (List FilmsCollectionViewCell)} {menu : MainMenu.State}

/-- What the genres reply does to the dictionary, entry by entry. -/
def filled (dictionary : Int → Option String) (genres : List Genre) : Int → Option String :=
  genres.foldl (fun dictionary genre => Function.update dictionary genre.id (some genre.name))
    dictionary

theorem filled_other {id : Int} (absent : ∀ genre ∈ genres, genre.id ≠ id) :
    filled dictionary genres id = dictionary id := by
  induction genres generalizing dictionary with
  | nil => rfl
  | cons genre rest ih =>
    obtain ⟨first, later⟩ := List.forall_mem_cons.mp absent
    exact (ih later).trans (Function.update_of_ne (Ne.symm first) ..)

/-- The last occurrence of an id gives the name. -/
theorem filled_last {before after : List Genre} {genre : Genre}
    (last : ∀ later ∈ after, later.id ≠ genre.id) :
    filled dictionary (before ++ genre :: after) genre.id = some genre.name := by
  induction before generalizing dictionary with
  | nil => exact (filled_other last).trans (Function.update_self ..)
  | cons first rest ih => exact ih

/-- Unless the reply lists nothing, the table is marked. -/
theorem shows_genresDictionaryDidChange {P Q : List (Nat × Nat) → Prop} (shows_ : table.Shows P)
    (same : genres = [] → ∀ rows, P rows → Q rows) :
    (genresDictionaryDidChange table genres).Shows Q := by
  cases genres with
  | nil => exact shows_.mono (same rfl _)
  | cons genre rest =>
    intro laidOut
    have marked : ∀ (genres : List Genre) (table : Reload.View (List (Nat × Nat))),
        table.pending = true → (genresDictionaryDidChange table genres).pending = true := by
      intro genres
      induction genres with
      | nil => exact fun table pending => pending
      | cons genre rest ih => exact fun table _ => ih _ rfl
    exact absurd ((marked rest _ rfl).symm.trans laidOut) (by decide)

/-- Both levels agree unless a reload is pending: the cells in the table's rows have the
menu's dictionary, and a collection shows its cell's movies under its cell's dictionary. -/
structure Inv (menu : MainMenu.State) (table : Reload.View (List (Nat × Nat)))
    (collections : Nat → Reload.View (List FilmsCollectionViewCell)) : Prop where
  haveGenres : ∀ cell, ∀ movie ∈ (menu.cells cell).movies, ∃ first rest,
    movie.genre = some (first :: rest)
  rows : table.Shows fun rows => ∀ entry ∈ rows,
    (menu.cells entry.2).genresDictionary = menu.genresDictionary
  films : ∀ cell, (collections cell).Shows fun films => items (menu.cells cell) = some films

theorem Inv.genresReply (inv : Inv menu table collections) (genres : List Genre) :
    Inv { menu with genresDictionary := filled menu.genresDictionary genres }
      (genresDictionaryDidChange table genres) collections := by
  refine ⟨inv.haveGenres, shows_genresDictionaryDidChange inv.rows ?_, inv.films⟩
  rintro rfl rows agree
  exact agree

theorem Inv.moviesReply (inv : Inv menu table collections) {cell : Nat} {results : List MovieInfo}
    (haveGenres : ∀ movie ∈ results, ∃ first rest, movie.genre = some (first :: rest)) :
    Inv { menu with cells := Function.update menu.cells cell { menu.cells cell with movies := results } }
      table (Function.update collections cell (collections cell).reloadData) := by
  refine ⟨?_, inv.rows.mono ?_, ?_⟩
  · exact (Function.forall_update_iff menu.cells fun _ cell => ∀ movie ∈ cell.movies, ∃ first rest,
      movie.genre = some (first :: rest)).mpr ⟨haveGenres, fun other _ => inv.haveGenres other⟩
  · intro agree entry member
    by_cases same : entry.2 = cell
    · subst same
      simpa only [Function.update_self] using agree entry member
    · simpa only [Function.update_of_ne same] using agree entry member
  · intro other
    by_cases same : other = cell
    · subst same
      simpa only [Function.update_self] using Reload.View.shows_reloadData
    · simpa only [Function.update_of_ne same] using inv.films other

/-- What asking the data source for the rows of these cells does. -/
structure Dequeued (s t : State) (cells : List Nat) : Prop where
  table : t.table = s.table
  dictionary : t.menu.genresDictionary = s.menu.genresDictionary
  movies : ∀ cell, (t.menu.cells cell).movies = (s.menu.cells cell).movies
  own : ∀ cell ∈ cells, (t.menu.cells cell).genresDictionary = s.menu.genresDictionary ∧
    (t.collections cell).pending = true
  other : ∀ cell, cell ∉ cells → t.menu.cells cell = s.menu.cells cell ∧
    t.collections cell = s.collections cell

theorem dequeue_spec {s t : State} {entry : Nat × Nat} (dequeued : dequeue s entry = some t) :
    Dequeued s t [entry.2] := by
  obtain ⟨app, stepped, rfl⟩ := Option.map_eq_some_iff.mp dequeued
  obtain ⟨screen, requests, acted, rfl⟩ := step_act stepped
  obtain ⟨-, acted⟩ := Option.ite_none_right_eq_some.mp acted
  obtain ⟨category, -, done⟩ := Option.map_eq_some_iff.mp acted
  obtain ⟨rfl, -⟩ := Prod.mk.inj done
  refine ⟨rfl, rfl, ?_, ?_, ?_⟩
  · exact (Function.forall_update_iff s.menu.cells fun cell (after : Cell) =>
      after.movies = (s.menu.cells cell).movies).mpr ⟨rfl, fun _ _ => rfl⟩
  · intro cell member
    obtain rfl := List.mem_singleton.mp member
    simp only [State.menu, Function.update_self, Reload.View.reloadData, and_self]
  · intro cell other
    have same : cell ≠ entry.2 := fun same => other (List.mem_singleton.mpr same)
    simp only [State.menu, Function.update_of_ne same, and_self]

theorem foldlM_dequeue {s t : State} {rows : List (Nat × Nat)}
    (dequeued : rows.foldlM dequeue s = some t) : Dequeued s t (rows.map Prod.snd) := by
  induction rows generalizing s with
  | nil =>
    cases Option.some.inj dequeued
    exact ⟨rfl, rfl, fun _ => rfl, List.forall_mem_nil _, fun _ _ => ⟨rfl, rfl⟩⟩
  | cons entry rest ih =>
    obtain ⟨middle, first, later⟩ := Option.bind_eq_some_iff.mp dequeued
    have head := dequeue_spec first
    have tail := ih later
    refine ⟨tail.table.trans head.table, tail.dictionary.trans head.dictionary,
      fun cell => (tail.movies cell).trans (head.movies cell), ?_, ?_⟩
    · intro cell member
      by_cases again : cell ∈ rest.map Prod.snd
      · rw [← head.dictionary]
        exact tail.own cell again
      · have here : cell ∈ [entry.2] := by
          rcases List.mem_cons.mp member with same | later
          · exact List.mem_singleton.mpr same
          · exact absurd later again
        obtain ⟨cells, collections⟩ := tail.other cell again
        rw [cells, collections]
        exact head.own cell here
    · intro cell absent
      obtain ⟨notHere, notLater⟩ := not_or.mp (List.mem_cons.not.mp absent)
      obtain ⟨cells, collections⟩ := tail.other cell notLater
      obtain ⟨before, kept⟩ := head.other cell fun member => notHere (List.mem_singleton.mp member)
      exact ⟨cells.trans before, collections.trans kept⟩

/-- Rows that show dequeued cells, and rows that were shown before. -/
theorem Inv.dequeued {s t : State} {cells : List Nat} (inv : Inv s.menu s.table s.collections)
    (dequeued : Dequeued s t cells) {table : Reload.View (List (Nat × Nat))}
    (rows : table.pending = false → ∀ entry ∈ table.shown,
      entry.2 ∈ cells ∨ s.table.pending = false ∧ entry ∈ s.table.shown) :
    Inv t.menu table t.collections := by
  refine ⟨?_, ?_, ?_⟩
  · intro cell movie member
    exact inv.haveGenres cell movie (dequeued.movies cell ▸ member)
  · intro laidOut entry member
    rw [dequeued.dictionary]
    by_cases own : entry.2 ∈ cells
    · exact (dequeued.own entry.2 own).1
    · obtain ⟨before, shown⟩ := (rows laidOut entry member).resolve_left own
      rw [(dequeued.other entry.2 own).1]
      exact inv.rows before entry shown
  · intro cell laidOut
    by_cases own : cell ∈ cells
    · exact absurd ((dequeued.own cell own).2.symm.trans laidOut) (by decide)
    · obtain ⟨same, collections⟩ := dequeued.other cell own
      rw [same]
      rw [collections] at laidOut ⊢
      exact inv.films cell laidOut

/-- The name the dictionary has for the movie's first genre, or the empty string. -/
def genreLabel (dictionary : Int → Option String) (movie : MovieInfo) : String :=
  ((movie.genre.bind List.head?).bind dictionary).getD ""

theorem mapM_range {α β : Type} {f : Nat → Option β} {g : α → β} {xs : List α}
    (each : ∀ (i : Nat) (x : α), xs[i]? = some x → f i = some (g x)) :
    (List.range xs.length).mapM f = some (xs.map g) := by
  induction xs generalizing f with
  | nil => rfl
  | cons x rest ih =>
    have later : (List.range rest.length).mapM (fun i => f (i + 1)) = some (rest.map g) :=
      ih fun i y found => each (i + 1) y found
    rw [List.length_cons, List.range_succ_eq_map, List.mapM_cons, each 0 x rfl, List.mapM_map]
    simp only [Function.comp_def, Nat.succ_eq_add_one, later, Option.bind_eq_bind, Option.bind_some,
      Option.pure_def, List.map_cons]

theorem cellForItemAt_of_genre {cell : Cell} {item : Nat}
    {movie : MovieInfo} {first : Int} {rest : List Int}
    (found : cell.movies[item]? = some movie) (genre : movie.genre = some (first :: rest)) :
    getGenreName cell item = some (genreLabel cell.genresDictionary movie) ∧
      cellForItemAt cell item = some (.setup movie (genreLabel cell.genresDictionary movie)) := by
  simp only [cellForItemAt, getGenreName, genreLabel, found, genre, Option.bind_some,
    List.getElem?_cons_zero, List.head?_cons, Option.map_some, and_self]

/-- The guard lets an empty list of genres through to its first entry. -/
theorem getGenreName_of_no_genre {cell : Cell} {item : Nat} {movie : MovieInfo}
    (found : cell.movies[item]? = some movie) (genre : movie.genre = some []) :
    getGenreName cell item = none := by
  simp only [getGenreName, found, genre, Option.bind_some, List.getElem?_nil, Option.map_none]

/-- Where every movie has a genre no lookup traps, and each item shows its movie. -/
theorem items_eq {cell : Cell}
    (haveGenres : ∀ movie ∈ cell.movies, ∃ first rest, movie.genre = some (first :: rest)) :
    items cell = some (cell.movies.map fun movie =>
      .setup movie (genreLabel cell.genresDictionary movie)) := by
  apply mapM_range
  intro item movie found
  obtain ⟨first, rest, genre⟩ := haveGenres movie (List.mem_of_getElem? found)
  exact (cellForItemAt_of_genre found genre).2

theorem runBlock_inv {s t : State} {id : Nat} (inv : Inv s.menu s.table s.collections)
    (haveGenres : MoviesHaveGenres s (.event (.runBlock id)))
    (step : machine.step s (.event (.runBlock id)) = some t) :
    Inv t.menu t.table t.collections := by
  obtain ⟨app, stepped, rfl⟩ := Option.map_eq_some_iff.mp step
  obtain ⟨block, mainQueue, taken, rfl⟩ := step_runBlock stepped
  have found := Pool.take?_find taken
  obtain ⟨number, completion, value⟩ := block
  have delivered := haveGenres _ found
  change Inv (complete s.menu completion (some value)) _ _
  cases completion with
  | genres =>
    simp only [tableAfter, collectionsAfter, found]
    cases arrived : received .genres (some value) with
    | none =>
      simp only [complete, arrived]
      exact inv
    | some responce =>
      simp only [complete, arrived]
      exact inv.genresReply responce.genres
  | movies cell serial category =>
    simp only [tableAfter, collectionsAfter, found]
    cases arrived : received .movies (some value) with
    | none =>
      simp only [complete, arrived]
      exact inv
    | some responce =>
      simp only [complete, arrived]
      exact inv.moviesReply (delivered responce arrived)

theorem step_inv {s t : State} {a : Action} (inv : Inv s.menu s.table s.collections)
    (haveGenres : MoviesHaveGenres s a) (step : machine.step s a = some t) :
    Inv t.menu t.table t.collections := by
  cases a with
  | event e =>
    cases e with
    | runBlock id => exact runBlock_inv inv haveGenres step
    | respond id response =>
      obtain ⟨app, stepped, rfl⟩ := Option.map_eq_some_iff.mp step
      obtain ⟨task, tasks, -, rfl⟩ := step_respond stepped
      change Inv (s.app.respond task tasks response).screen s.table s.collections
      rw [respond_screen]
      exact inv
    | act a =>
      cases a with
      | cellForRowAt cell row => contradiction
      | viewDidLoad =>
        obtain ⟨app, stepped, rfl⟩ := Option.map_eq_some_iff.mp step
        obtain ⟨screen, requests, acted, rfl⟩ := step_act stepped
        obtain ⟨-, acted⟩ := Option.ite_none_left_eq_some.mp acted
        cases Option.some.inj acted
        exact ⟨inv.haveGenres, Reload.View.shows_reloadData, inv.films⟩
  | layoutTable rows =>
    obtain ⟨middle, dequeued, rfl⟩ := Option.map_eq_some_iff.mp step
    exact inv.dequeued (foldlM_dequeue dequeued) fun _ entry member =>
      Or.inl (List.mem_map_of_mem member)
  | cellForRowAt row cell =>
    obtain ⟨middle, dequeued, rfl⟩ := Option.map_eq_some_iff.mp step
    have spec := dequeue_spec dequeued
    refine inv.dequeued spec fun laidOut entry member => ?_
    rw [spec.table] at laidOut member
    exact (List.mem_append.mp member).symm.imp
      (fun new => List.mem_singleton.mpr (congrArg Prod.snd (List.mem_singleton.mp new)))
      (fun before => ⟨laidOut, before⟩)
  | endDisplaying row =>
    cases Option.some.inj step
    exact ⟨inv.haveGenres, fun laidOut entry member =>
      inv.rows laidOut entry (List.mem_filter.mp member).1, inv.films⟩
  | layoutCollection cell =>
    obtain ⟨films, asked, rfl⟩ := Option.map_eq_some_iff.mp step
    refine ⟨inv.haveGenres, inv.rows, ?_⟩
    refine (Function.forall_update_iff s.collections fun other collection =>
      collection.Shows fun films => items (s.menu.cells other) = some films).mpr ⟨?_, ?_⟩
    · exact Reload.View.shows_layout asked
    · exact fun other _ => inv.films other

/-- The genres that a step delivers to the menu, if it is the genre reply. -/
def genresReply (s : State) : Action → Option (List Genre)
  | .event (.runBlock id) =>
    match s.app.service.mainQueue.find? (·.id == id) with
    | some ⟨_, .genres, value⟩ => (received .genres (some value)).map GenresOfMovie.genres
    | _ => none
  | _ => none

/-- Only the genre reply changes the menu's dictionary. -/
theorem step_dictionary {s t : State} {a : Action} (step : machine.step s a = some t) :
    t.menu.genresDictionary = filled s.menu.genresDictionary ((genresReply s a).getD []) := by
  cases a with
  | event e =>
    cases e with
    | runBlock id =>
      obtain ⟨app, stepped, rfl⟩ := Option.map_eq_some_iff.mp step
      obtain ⟨⟨number, completion, value⟩, mainQueue, taken, rfl⟩ := step_runBlock stepped
      change (complete s.menu completion (some value)).genresDictionary = _
      simp only [genresReply, Pool.take?_find taken]
      cases completion with
      | genres =>
        cases arrived : received .genres (some value) <;> simp only [complete, arrived] <;> rfl
      | movies cell serial category =>
        cases arrived : received .movies (some value) <;> simp only [complete, arrived] <;> rfl
    | respond id response =>
      obtain ⟨app, stepped, rfl⟩ := Option.map_eq_some_iff.mp step
      obtain ⟨task, tasks, -, rfl⟩ := step_respond stepped
      exact congrArg MainMenu.State.genresDictionary (respond_screen s.app task tasks response)
    | act a =>
      cases a with
      | cellForRowAt cell row => contradiction
      | viewDidLoad =>
        obtain ⟨app, stepped, rfl⟩ := Option.map_eq_some_iff.mp step
        obtain ⟨screen, requests, acted, rfl⟩ := step_act stepped
        obtain ⟨-, acted⟩ := Option.ite_none_left_eq_some.mp acted
        cases Option.some.inj acted
        rfl
  | layoutTable rows =>
    obtain ⟨middle, dequeued, rfl⟩ := Option.map_eq_some_iff.mp step
    exact (foldlM_dequeue dequeued).dictionary
  | cellForRowAt row cell =>
    obtain ⟨middle, dequeued, rfl⟩ := Option.map_eq_some_iff.mp step
    exact (dequeue_spec dequeued).dictionary
  | endDisplaying row => cases Option.some.inj step; rfl
  | layoutCollection cell =>
    obtain ⟨films, -, rfl⟩ := Option.map_eq_some_iff.mp step
    rfl

theorem start_inv (cache : URL → Option tmdb.Any) :
    Inv (State.start cache).menu (State.start cache).table (State.start cache).collections := by
  refine ⟨?_, fun _ => List.forall_mem_nil _, fun _ _ => rfl⟩
  intro cell movie member
  exact absurd member List.not_mem_nil

/-- For every run of replies, reloads and reused cells: the genre reply gives each id it lists
the name of its last occurrence and nothing else changes the dictionary; where no reload
is pending, the items of every visible row are labelled from that dictionary; and no
lookup of a label traps. -/
theorem labels_follow_genres {cache : URL → Option tmdb.Any} {acts : List Action} {s : State}
    (run : machine.run (.start cache) acts = some s)
    (haveGenres : machine.Along MoviesHaveGenres (.start cache) acts) :
    (∀ a t, machine.step s a = some t →
      (∀ genres, genresReply s a = some genres →
        (∀ before genre after, genres = before ++ genre :: after →
          (∀ later ∈ after, later.id ≠ genre.id) →
          t.menu.genresDictionary genre.id = some genre.name) ∧
        ∀ id, (∀ genre ∈ genres, genre.id ≠ id) →
          t.menu.genresDictionary id = s.menu.genresDictionary id) ∧
      (genresReply s a = none → t.menu.genresDictionary = s.menu.genresDictionary)) ∧
    (s.table.pending = false → ∀ entry ∈ s.table.shown, (s.collections entry.2).pending = false →
      (s.collections entry.2).shown = (s.menu.cells entry.2).movies.map fun movie =>
        .setup movie (genreLabel s.menu.genresDictionary movie)) ∧
    ∀ cell, ∃ t, machine.step s (.layoutCollection cell) = some t := by
  have inv := Transition.Machine.run_invariant_along
    (P := fun s : State => Inv s.menu s.table s.collections) step_inv run haveGenres (start_inv cache)
  refine ⟨?_, ?_, ?_⟩
  · intro a t step
    have dictionary := step_dictionary step
    refine ⟨fun genres reply => ?_, fun silent => by rw [dictionary, silent]; rfl⟩
    rw [reply, Option.getD_some] at dictionary
    rw [dictionary]
    refine ⟨?_, fun id absent => filled_other absent⟩
    rintro before genre after rfl last
    exact filled_last last
  · intro tableLaidOut entry visible laidOut
    have asked := inv.films entry.2 laidOut
    rw [items_eq (inv.haveGenres entry.2), inv.rows tableLaidOut entry visible] at asked
    exact (Option.some.inj asked).symm
  · intro cell
    exact ⟨_, congrArg (Option.map _) (items_eq (inv.haveGenres cell))⟩

def crimeMovie : tmdb.Body :=
  some (.object [("results", .array [.object [("poster_path", .string "/p.jpg"), ("id", .number 949),
    ("title", .string "Heat"), ("backdrop_path", .string "/b.jpg"), ("genre_ids", .array [.number 80]),
    ("overview", .string ""), ("release_date", .string "1995-12-15"),
    ("original_language", .string "en"), ("vote_average", .number 8)]])])

/-- The genres, with one id listed twice. -/
def crimeGenres : tmdb.Body :=
  some (.object [("genres", .array [.object [("id", .number 80), ("name", .string "Thriller")],
    .object [("id", .number 80), ("name", .string "Crime")]])])

/-- The movies come before the genres; the row is laid out again in another cell, which
asks for its movies anew and finds them in the cache. -/
def genresLast : List Action :=
  [.event (.act .viewDidLoad), .layoutTable [(0, 0)], .event (.respond 1 (.data crimeMovie)),
    .event (.runBlock 1), .layoutCollection 0, .event (.respond 0 (.data crimeGenres)),
    .event (.runBlock 0), .layoutTable [(0, 1)], .event (.runBlock 2), .layoutCollection 1]

/-- What a test sees of a run: nothing in flight, the visible rows and the items of cell 1. -/
structure Seen where
  outstanding : Nat
  tablePending : Bool
  rows : List (Nat × Nat)
  pending : Bool
  films : List FilmsCollectionViewCell
  deriving DecidableEq

def seen (s : State) : Seen where
  outstanding := s.app.service.tasks.length + s.app.service.mainQueue.length
  tablePending := s.table.pending
  rows := s.table.shown
  pending := (s.collections 1).pending
  films := (s.collections 1).shown

theorem labels_follow_genres_last : ∃ s, machine.run (.start fun _ => none) genresLast = some s ∧
    (s.collections 1).shown = [⟨some "Heat", "Crime", some "/p.jpg"⟩] ∧
    (s.collections 1).shown = (s.menu.cells 1).movies.map fun movie =>
      .setup movie (genreLabel s.menu.genresDictionary movie) := by
  have observed : (machine.run (.start fun _ => none) genresLast).map seen =
      some ⟨0, false, [(0, 1)], false, [⟨some "Heat", "Crime", some "/p.jpg"⟩]⟩ := by
    decide +kernel
  have haveGenres : machine.Along MoviesHaveGenres (.start fun _ => none) genresLast := by
    refine ⟨trivial, trivial, trivial, ?_, trivial, trivial, ?_, trivial, ?_, trivial, trivial⟩
    all_goals
      intro block found responce arrived movie member
      cases found
      cases arrived
    all_goals
      obtain rfl := List.mem_singleton.mp member
      exact ⟨80, [], rfl⟩
  obtain ⟨s, run, last⟩ := Option.map_eq_some_iff.mp observed
  obtain ⟨-, tableLaidOut, visible, laidOut, shown⟩ := Seen.mk.inj last
  have row : (0, 1) ∈ s.table.shown := visible ▸ List.mem_singleton_self _
  exact ⟨s, run, shown, (labels_follow_genres run haveGenres).2.1 tableLaidOut (0, 1) row laidOut⟩

/-- For every decoded list, dictionary and item of the list: the item is shown with the name
of its first genre, or none, exactly when its list of genres is not empty. -/
theorem shown_without_trap_iff {json : JSON} {responce : MoviesResponce}
    (decoded : MoviesResponce.decode json = some responce) {cell : Cell}
    (listed : cell.movies = responce.results) {item : Nat} (below : item < responce.results.length) :
    let movie := responce.results[item]
    (getGenreName cell item = some (genreLabel cell.genresDictionary movie) ∧
      cellForItemAt cell item = some (.setup movie (genreLabel cell.genresDictionary movie))) ↔
      movie.genre ≠ some [] := by
  intro movie
  have found : cell.movies[item]? = some movie := by
    rw [listed]
    exact List.getElem?_eq_getElem below
  obtain ⟨genresId, genre⟩ := MoviesResponce.decode_genre decoded (List.getElem_mem below)
  constructor
  · rintro ⟨named, -⟩ empty
    rw [getGenreName_of_no_genre found empty] at named
    contradiction
  · intro nonempty
    cases genresId with
    | nil => exact absurd genre nonempty
    | cons first rest => exact cellForItemAt_of_genre found genre

/-- A reply with one movie of these genres. -/
def moviesReply (genreIds : List JSON) : JSON :=
  .object [("results", .array [.object [("poster_path", .string "/p.jpg"), ("id", .number 949),
    ("title", .string "Heat"), ("backdrop_path", .string "/b.jpg"), ("genre_ids", .array genreIds),
    ("overview", .string ""), ("release_date", .string "1995-12-15"),
    ("original_language", .string "en"), ("vote_average", .number 8)]])]

def heat (genresId : List Int) : MovieInfo :=
  ⟨some "/p.jpg", some 949, some "Heat", some "/b.jpg", some genresId, some "", some "1995-12-15",
    some "en", some 8⟩

/-- A row's cell with its movies. -/
def popular (movies : List MovieInfo) : Cell :=
  ⟨"Popular", movies, Function.update (fun _ => none) 80 (some "Crime"), none⟩

theorem shown_without_trap_crime :
    MoviesResponce.decode (moviesReply [.number 80]) = some ⟨[heat [80]]⟩ ∧
    getGenreName (popular [heat [80]]) 0 = some "Crime" ∧
    cellForItemAt (popular [heat [80]]) 0 = some ⟨some "Heat", "Crime", some "/p.jpg"⟩ := by
  have decoded : MoviesResponce.decode (moviesReply [.number 80]) = some ⟨[heat [80]]⟩ := by
    decide +kernel
  obtain ⟨named, shown⟩ := (@shown_without_trap_iff _ _ decoded (popular [heat [80]]) rfl 0
    Nat.zero_lt_one).mpr (by decide)
  exact ⟨decoded, named, shown⟩

/-- A movie whose list of genres is empty decodes, and traps when its item is asked for. -/
theorem movie_without_genre_traps :
    MoviesResponce.decode (moviesReply []) = some ⟨[heat []]⟩ ∧
    getGenreName (popular [heat []]) 0 = none ∧ cellForItemAt (popular [heat []]) 0 = none := by
  refine ⟨?_, rfl, rfl⟩
  decide +kernel

end MoviesApp.MenuTable
