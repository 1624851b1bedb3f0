import MoviesApp.Services.Ledger
import MoviesApp.Services.TMDB

/-! The main menu: one reusable cell instance per visible category row, each with a
view model of its own. A reload assigns any instances to the rows, and an instance
takes every reply that any of its requests receives. -/
namespace MoviesApp.MainMenu
open NetworkService

inductive MoviePath where
  | popular
  | topRated
  | upcoming

def MoviePath.rawValue : MoviePath → String
  | popular => "/movie/popular"
  | topRated => "/movie/top_rated"
  | upcoming => "/movie/upcoming"

def MoviePath.name : MoviePath → String
  | popular => "Popular"
  | topRated => "Top Rated"
  | upcoming => "Upcoming"

def MoviePath.allCases : List MoviePath := [popular, topRated, upcoming]

structure Category where
  name : String
  url : Option String
  deriving DecidableEq

def allCategory : List Category :=
  MoviePath.allCases.map fun path => ⟨path.name, some path.rawValue⟩

/-- A cell instance with its view model, and the last request issued for it. -/
structure Cell where
  categoryNameLabel : String
  movies : List MovieInfo
  genresDictionary : Int → Option String
  latest : Option (Nat × Category)

/-- The instances are numbered; `setups` counts the calls of `setup(category:)`. -/
structure State where
  loaded : Bool
  cells : Nat → Cell
  genresDictionary : Int → Option String
  setups : Nat

inductive Completion where
  | genres
  | movies (cell serial : Nat) (category : Category)

inductive Action where
  | viewDidLoad
  | cellForRowAt (cell row : Nat)

def genresURL : String :=
  "https://api.themoviedb.org/3/genre/movie/list?api_key=83224e1665f2c91754d1c03ad23dd491"

def moviesURL (urlString : String) : String :=
  "https://api.themoviedb.org/3" ++ urlString ++ "?api_key=83224e1665f2c91754d1c03ad23dd491"

def loadMovies (urlString : Option String) (completion : Completion) : List (Request tmdb Completion) :=
  match urlString with
  | none => []
  | some urlString => [⟨URL.ofString? (moviesURL urlString), .movies, completion⟩]

/-- The row's `setup(category:)`, and the dictionary that `cellForRowAt` hands over. -/
def setup (s : State) (cell : Nat) (category : Category) : State × List (Request tmdb Completion) :=
  ({ s with
      setups := s.setups + 1
      cells := Function.update s.cells cell { s.cells cell with
        categoryNameLabel := category.name
        genresDictionary := s.genresDictionary
        latest := some (s.setups, category) } },
    loadMovies category.url (.movies cell s.setups category))

def act (s : State) : Action → Option (State × List (Request tmdb Completion))
  | .viewDidLoad =>
    if s.loaded then none
    else some ({ s with loaded := true }, [⟨URL.ofString? genresURL, .genres, .genres⟩])
  | .cellForRowAt cell row =>
    if s.loaded then allCategory[row]?.map (setup s cell) else none

def complete (s : State) (completion : Completion) (value : Option tmdb.Any) : State :=
  match completion with
  | .genres =>
    match received .genres value with
    | some responce => { s with
        genresDictionary := responce.genres.foldl
          (fun dictionary genre => Function.update dictionary genre.id (some genre.name))
          s.genresDictionary }
    | none => s
  | .movies cell _ _ =>
    match received .movies value with
    | some responce => { s with
        cells := Function.update s.cells cell { s.cells cell with movies := responce.results } }
    | none => s

def client : Client tmdb Completion := ⟨State, Action, act, complete⟩

def State.start : State :=
  ⟨false, fun _ => ⟨"Label", [], fun _ => none, none⟩, fun _ => none, 0⟩

/-- The last request of the cell has been answered with movies. -/
def Answered (app : App client) (cell serial : Nat) (category : Category) : Prop :=
  ∃ invocation ∈ app.service.invoked, invocation.completion = .movies cell serial category ∧
    (received .movies invocation.value).isSome

/-- Once a cell's last request is answered, no reply for another category changes its list. -/
def NotOvertaken (app : App client) : Event client → Prop
  | .runBlock id => ∀ block ∈ app.service.mainQueue.find? (·.id == id), ∀ cell serial category,
    block.completion = .movies cell serial category →
      ∀ last current, (app.screen.cells cell).latest = some (last, current) →
        category = current ∨ ¬ Answered app cell last current ∨
        ∀ responce, received .movies (some block.value) = some responce →
          responce.results = (app.screen.cells cell).movies
  | .act _ | .respond _ _ => True

/-- The list is that of a reply the cell received for the category. -/
def ListsReply (app : App client) (cell : Nat) (category : Category) : Prop :=
  ∃ invocation ∈ app.service.invoked, ∃ serial responce,
    invocation.completion = .movies cell serial category ∧
    received .movies invocation.value = some responce ∧
    (app.screen.cells cell).movies = responce.results

/-- The label names the category of the cell's last request, and once that request has
succeeded the list is a reply for this category. -/
def ShowsCategory (app : App client) (cell : Nat) : Prop :=
  ∀ serial category, (app.screen.cells cell).latest = some (serial, category) →
    (app.screen.cells cell).categoryNameLabel = category.name ∧
    (Answered app cell serial category → ListsReply app cell category)

/-- The setups behind the completions of movies requests have been made. -/
structure Numbered (app : App client) : Prop where
  accounted : Accounted app.service
  before : ∀ request ∈ app.service.calls, ∀ cell serial category,
    request.completion = .movies cell serial category → serial < app.screen.setups

theorem act_cases {s next : State} {a : Action} {requests : List (Request tmdb Completion)}
    (acted : act s a = some (next, requests)) :
    (next = { s with loaded := true } ∧
      requests = [⟨URL.ofString? genresURL, .genres, .genres⟩]) ∨
    ∃ cell path, (next, requests) = setup s cell ⟨MoviePath.name path, some path.rawValue⟩ := by
  cases a with
  | viewDidLoad =>
    simp only [act] at acted
    split at acted
    · contradiction
    · cases acted
      exact Or.inl ⟨rfl, rfl⟩
  | cellForRowAt cell row =>
    simp only [act] at acted
    split at acted
    · obtain ⟨category, listed, done⟩ := Option.map_eq_some_iff.mp acted
      obtain ⟨path, -, rfl⟩ := List.mem_map.mp (List.mem_of_getElem? listed)
      exact Or.inr ⟨cell, path, done.symm⟩
    · contradiction

theorem complete_setups (s : State) (completion : Completion) (value : Option tmdb.Any) :
    (complete s completion value).setups = s.setups := by
  unfold complete
  split <;> split <;> rfl

theorem complete_none (s : State) (completion : Completion) : complete s completion none = s := by
  cases completion <;> rfl

theorem respond_screen (app : App client) (task : DataTask tmdb Completion)
    (tasks : List (DataTask tmdb Completion)) (response : Response tmdb) :
    (app.respond task tasks response).screen = app.screen :=
  app.respond_screen complete_none task tasks response

theorem step_numbered {app next : App client} {e : Event client} (numbered : Numbered app)
    (step : (machine client).step app e = some next) : Numbered next := by
  have accounted := step_accounted numbered.accounted step
  cases e with
  | act a =>
    obtain ⟨screen, requests, acted, rfl⟩ := step_act step
    refine ⟨accounted, ?_⟩
    intro request member other serial category same
    rw [foldl_load_calls] at member
    obtain ⟨rfl, rfl⟩ | ⟨cell, path, called⟩ := act_cases acted
    · rcases List.mem_append.mp member with earlier | new
      · exact numbered.before request earlier other serial category same
      · obtain rfl := List.mem_singleton.mp new
        cases same
    · obtain ⟨rfl, rfl⟩ := Prod.mk.inj called
      rcases List.mem_append.mp member with earlier | new
      · exact Nat.lt_succ_of_lt (numbered.before request earlier other serial category same)
      · obtain rfl := List.mem_singleton.mp new
        cases same
        exact Nat.lt_succ_self _
  | respond id response =>
    obtain ⟨task, tasks, -, rfl⟩ := step_respond step
    have calls := respond_calls { app.service with tasks := tasks } task response
    refine ⟨accounted, ?_⟩
    rw [respond_screen]
    exact calls.symm ▸ numbered.before
  | runBlock id =>
    obtain ⟨block, mainQueue, -, rfl⟩ := step_runBlock step
    refine ⟨accounted, ?_⟩
    have setups : (app.runBlock block mainQueue).screen.setups = app.screen.setups :=
      complete_setups app.screen block.completion (some block.value)
    rw [setups]
    exact numbered.before

theorem Numbered.invoked {app : App client} (numbered : Numbered app)
    {invocation : Invocation tmdb Completion} (member : invocation ∈ app.service.invoked)
    {cell serial : Nat} {category : Category}
    (same : invocation.completion = .movies cell serial category) : serial < app.screen.setups := by
  obtain ⟨request, found, completion, -⟩ := numbered.accounted.invoked_call member
  exact numbered.before request (List.mem_of_getElem? found) cell serial category
    (completion.symm.trans same)

theorem ListsReply.mono {app next : App client} {cell : Nat} {category : Category}
    (lists : ListsReply app cell category)
    (same : (next.screen.cells cell).movies = (app.screen.cells cell).movies)
    (invoked : ∀ invocation, invocation ∈ app.service.invoked → invocation ∈ next.service.invoked) :
    ListsReply next cell category := by
  obtain ⟨invocation, member, serial, responce, completion, delivered, movies⟩ := lists
  exact ⟨invocation, invoked invocation member, serial, responce, completion, delivered,
    same.trans movies⟩

/-- A cell keeps showing its category when its list stays and nothing it waits for arrives. -/
theorem ShowsCategory.congr {app next : App client} {cell : Nat} (shows : ShowsCategory app cell)
    (same : next.screen.cells cell = app.screen.cells cell)
    (invoked : ∀ invocation, invocation ∈ app.service.invoked → invocation ∈ next.service.invoked)
    (answered : ∀ serial category, Answered next cell serial category →
      Answered app cell serial category) : ShowsCategory next cell := by
  intro serial category latest
  rw [same] at latest ⊢
  obtain ⟨label, lists⟩ := shows serial category latest
  refine ⟨label, fun done => ?_⟩
  exact (lists (answered serial category done)).mono (congrArg Cell.movies same) invoked

theorem act_shows {app : App client} {screen : State} {a : Action}
    {requests : List (Request tmdb Completion)} {cell : Nat} (numbered : Numbered app)
    (shows : ShowsCategory app cell) (acted : act app.screen a = some (screen, requests)) :
    ShowsCategory (⟨requests.foldl load app.service, screen⟩ : App client) cell := by
  have invoked := foldl_load_invoked requests app.service
  have kept : ∀ invocation, invocation ∈ app.service.invoked →
      invocation ∈ (requests.foldl load app.service).invoked := by
    rw [invoked]
    exact fun _ member => member
  have answered : ∀ serial category,
      Answered (⟨requests.foldl load app.service, screen⟩ : App client) cell serial category →
      Answered app cell serial category := by
    rintro serial category ⟨invocation, member, rest⟩
    exact ⟨invocation, invoked ▸ member, rest⟩
  obtain ⟨rfl, -⟩ | ⟨target, path, called⟩ := act_cases acted
  · exact shows.congr rfl kept answered
  · obtain ⟨rfl, rfl⟩ := Prod.mk.inj called
    by_cases same : cell = target
    · subst same
      intro serial category latest
      simp only [Function.update_self, Option.some.injEq, Prod.mk.injEq] at latest ⊢
      obtain ⟨rfl, rfl⟩ := latest
      refine ⟨rfl, fun done => ?_⟩
      obtain ⟨invocation, member, completion, -⟩ := answered _ _ done
      exact absurd (numbered.invoked member completion) (Nat.lt_irrefl _)
    · exact shows.congr (Function.update_of_ne same ..) kept answered

theorem respond_shows {app : App client} {task : DataTask tmdb Completion}
    {tasks : List (DataTask tmdb Completion)} {response : Response tmdb} {cell : Nat}
    (shows : ShowsCategory app cell) : ShowsCategory (app.respond task tasks response) cell := by
  have screen := respond_screen app task tasks response
  apply shows.congr
  · rw [screen]
  · intro invocation member
    exact respond_keeps_invoked _ task response member
  · rintro serial category ⟨invocation, member, completion, delivered⟩
    rcases respond_invoked _ task response member with earlier | ⟨-, none⟩
    · exact ⟨invocation, earlier, completion, delivered⟩
    · rw [none] at delivered
      contradiction

theorem complete_other {s : State} {completion : Completion} {value : Option tmdb.Any} {cell : Nat}
    (other : ∀ serial category, completion ≠ .movies cell serial category) :
    (complete s completion value).cells cell = s.cells cell := by
  unfold complete
  split
  · split <;> rfl
  · rename_i target serial category
    split
    · apply Function.update_of_ne
      rintro rfl
      exact other serial category rfl
    · rfl

/-- A value that is no movies reply touches no cell. -/
theorem complete_unread {s : State} {completion : Completion} {value : Option tmdb.Any}
    (unread : received .movies value = none) : (complete s completion value).cells = s.cells := by
  unfold complete
  split
  · split <;> rfl
  · rw [unread]

theorem complete_movies {s : State} {completion : Completion} {cell serial : Nat} {category : Category}
    {value : Option tmdb.Any} {responce : MoviesResponce}
    (named : completion = .movies cell serial category)
    (content : received .movies value = some responce) :
    (complete s completion value).cells cell =
      { s.cells cell with movies := responce.results } := by
  simp only [complete, named, content, Function.update_self]

/-- A block for another cell, or for the genres, leaves the cell alone. -/
theorem runBlock_shows_other {app : App client} {block : Block tmdb Completion}
    {mainQueue : List (Block tmdb Completion)} {cell : Nat} (shows : ShowsCategory app cell)
    (other : ∀ serial category, block.completion ≠ .movies cell serial category) :
    ShowsCategory (app.runBlock block mainQueue) cell := by
  apply shows.congr
  · exact complete_other other
  · intro invocation member
    exact List.mem_append_left _ member
  · rintro serial category ⟨invocation, member, completion, delivered⟩
    rcases List.mem_append.mp member with earlier | new
    · exact ⟨invocation, earlier, completion, delivered⟩
    · obtain rfl := List.mem_singleton.mp new
      exact absurd completion (other serial category)

theorem runBlock_shows_unread {app : App client} {block : Block tmdb Completion}
    {mainQueue : List (Block tmdb Completion)} {cell : Nat} (shows : ShowsCategory app cell)
    (unread : received .movies (some block.value) = none) :
    ShowsCategory (app.runBlock block mainQueue) cell := by
  apply shows.congr
  · exact congrFun (complete_unread unread) cell
  · intro invocation member
    exact List.mem_append_left _ member
  · rintro serial category ⟨invocation, member, completion, delivered⟩
    rcases List.mem_append.mp member with earlier | new
    · exact ⟨invocation, earlier, completion, delivered⟩
    · obtain rfl := List.mem_singleton.mp new
      rw [Block.invocation, unread] at delivered
      contradiction

/-- A reply for the cell is for its category, or too early, or brings what is listed. -/
theorem runBlock_shows_reply {app : App client} {id : Nat} {block : Block tmdb Completion}
    {mainQueue : List (Block tmdb Completion)} {cell serial : Nat} {category : Category}
    {responce : MoviesResponce} (shows : ShowsCategory app cell)
    (inOrder : NotOvertaken app (.runBlock id))
    (taken : Pool.take? (·.id == id) app.service.mainQueue = some (block, mainQueue))
    (named : block.completion = .movies cell serial category)
    (content : received .movies (some block.value) = some responce) :
    ShowsCategory (app.runBlock block mainQueue) cell := by
  have after : (app.runBlock block mainQueue).screen.cells cell =
      { app.screen.cells cell with movies := responce.results } :=
    complete_movies named content
  have movies := congrArg Cell.movies after
  have arrived : ListsReply (app.runBlock block mainQueue) cell category :=
    ⟨block.invocation, List.mem_append_right _ (List.mem_singleton_self _), serial, responce, named,
      content, movies⟩
  intro last current latest
  rw [after] at latest ⊢
  obtain ⟨label, lists⟩ := shows last current latest
  refine ⟨label, ?_⟩
  rintro ⟨invocation, member, completion, delivered⟩
  rcases List.mem_append.mp member with earlier | new
  · have answered : Answered app cell last current := ⟨invocation, earlier, completion, delivered⟩
    rcases inOrder block (Pool.take?_find taken) cell serial category named last current latest with
      rfl | waiting | kept
    · exact arrived
    · exact absurd answered waiting
    · exact (lists answered).mono (movies.trans (kept responce content))
        fun _ member => List.mem_append_left _ member
  · obtain rfl := List.mem_singleton.mp new
    obtain ⟨-, -, rfl⟩ := Completion.movies.inj (named.symm.trans completion)
    exact arrived

theorem runBlock_shows {app : App client} {id : Nat} {block : Block tmdb Completion}
    {mainQueue : List (Block tmdb Completion)} {cell : Nat} (shows : ShowsCategory app cell)
    (inOrder : NotOvertaken app (.runBlock id))
    (taken : Pool.take? (·.id == id) app.service.mainQueue = some (block, mainQueue)) :
    ShowsCategory (app.runBlock block mainQueue) cell := by
  by_cases own : ∃ serial category, block.completion = .movies cell serial category
  · obtain ⟨serial, category, named⟩ := own
    cases content : received .movies (some block.value) with
    | none => exact runBlock_shows_unread shows content
    | some responce => exact runBlock_shows_reply shows inOrder taken named content
  · exact runBlock_shows_other shows (fun serial category same => own ⟨serial, category, same⟩)

theorem step_shows {app next : App client} {e : Event client} {cell : Nat} (numbered : Numbered app)
    (shows : ShowsCategory app cell) (inOrder : NotOvertaken app e)
    (step : (machine client).step app e = some next) : ShowsCategory next cell := by
  cases e with
  | act a =>
    obtain ⟨screen, requests, acted, rfl⟩ := step_act step
    exact act_shows numbered shows acted
  | respond id response =>
    obtain ⟨task, tasks, -, rfl⟩ := step_respond step
    exact respond_shows shows
  | runBlock id =>
    obtain ⟨block, mainQueue, taken, rfl⟩ := step_runBlock step
    exact runBlock_shows shows inOrder taken

/-- In every run that delivers no overtaken reply, every cell is labelled with the
category of its last request and lists a reply for it once that request has succeeded. -/
theorem rows_show_their_category {cache : URL → Option tmdb.Any} {events : List (Event client)}
    {app : App client} (run : (machine client).run ⟨.start cache, .start⟩ events = some app)
    (inOrder : (machine client).Along NotOvertaken ⟨.start cache, .start⟩ events) (cell : Nat) :
    ShowsCategory app cell := by
  have initial : Numbered (⟨.start cache, .start⟩ : App client) ∧
      ShowsCategory (⟨.start cache, .start⟩ : App client) cell :=
    ⟨⟨start_accounted cache, fun _ member => nomatch member⟩, nofun⟩
  have final := Transition.Machine.run_invariant_along
    (P := fun app : App client => Numbered app ∧ ShowsCategory app cell)
    (fun inv inOrder step => ⟨step_numbered inv.1 step, step_shows inv.1 inv.2 inOrder step⟩)
    run inOrder initial
  exact final.2

def listOf (title : String) : tmdb.Body := some (.object [("results", .array [movieJSON 1 title])])

def topRated : Category := ⟨"Top Rated", some "/movie/top_rated"⟩

/-- One instance is assigned to two rows in turn, and both requests are answered. -/
def reloaded : List (Event client) :=
  [.act .viewDidLoad, .respond 0 (.failure ⟨-1009⟩), .act (.cellForRowAt 0 0), .act (.cellForRowAt 0 1),
    .respond 1 (.data (listOf "Heat")), .respond 2 (.data (listOf "Alien"))]

/-- What a test observes of a run: nothing in flight, the cell, and the replies it took. -/
structure Observed where
  outstanding : Nat
  label : String
  latest : Option (Nat × Category)
  titles : List (Option String)
  replies : List (Option (Nat × Nat × Category) × Option (List (Option String)))
  deriving DecidableEq

def reply (invocation : Invocation tmdb Completion) :
    Option (Nat × Nat × Category) × Option (List (Option String)) :=
  (match invocation.completion with
    | .genres => none
    | .movies cell serial category => some (cell, serial, category),
  (received .movies invocation.value).map fun responce => responce.results.map MovieInfo.title)

def observe (app : App client) : Observed where
  outstanding := app.service.tasks.length + app.service.mainQueue.length
  label := (app.screen.cells 0).categoryNameLabel
  latest := (app.screen.cells 0).latest
  titles := (app.screen.cells 0).movies.map MovieInfo.title
  replies := app.service.invoked.map reply

theorem rows_show_in_order : ∃ app,
    (machine client).run ⟨.start fun _ => none, .start⟩ (reloaded ++ [.runBlock 1, .runBlock 2]) =
      some app ∧
    (app.screen.cells 0).movies.map MovieInfo.title = [some "Alien"] ∧ ShowsCategory app 0 := by
  have observed : ((machine client).run ⟨.start fun _ => none, .start⟩
      (reloaded ++ [.runBlock 1, .runBlock 2])).map (fun app =>
        (app.screen.cells 0).movies.map MovieInfo.title) = some [some "Alien"] := by
    decide +kernel
  obtain ⟨app, run, titles⟩ := Option.map_eq_some_iff.mp observed
  have inOrder : (machine client).Along NotOvertaken ⟨.start fun _ => none, .start⟩
      (reloaded ++ [.runBlock 1, .runBlock 2]) := by
    refine ⟨trivial, trivial, trivial, trivial, trivial, trivial, ?_, ?_, trivial⟩
    · intro block found cell serial category named last current latest
      cases found
      cases named
      cases latest
      refine Or.inr (Or.inl ?_)
      rintro ⟨invocation, member, completion, -⟩
      obtain rfl := List.mem_singleton.mp member
      cases completion
    · intro block found cell serial category named last current latest
      cases found
      cases named
      cases latest
      exact Or.inl rfl
  exact ⟨app, run, titles, rows_show_their_category run inOrder 0⟩

/-- The same reload with the replies delivered in the other order: the row is labelled
Top Rated and lists the popular movies. -/
theorem row_shows_other_category : ∃ app,
    (machine client).run ⟨.start fun _ => none, .start⟩ (reloaded ++ [.runBlock 2, .runBlock 1]) =
      some app ∧
    observe app = ⟨0, "Top Rated", some (1, topRated), [some "Heat"],
      [(none, none), (some (0, 1, topRated), some [some "Alien"]),
        (some (0, 0, ⟨"Popular", some "/movie/popular"⟩), some [some "Heat"])]⟩ ∧
    ¬ ShowsCategory app 0 := by
  have observed : ((machine client).run ⟨.start fun _ => none, .start⟩
      (reloaded ++ [.runBlock 2, .runBlock 1])).map observe = some ⟨0, "Top Rated",
        some (1, topRated), [some "Heat"],
        [(none, none), (some (0, 1, topRated), some [some "Alien"]),
          (some (0, 0, ⟨"Popular", some "/movie/popular"⟩), some [some "Heat"])]⟩ := by
    decide +kernel
  obtain ⟨app, run, seen⟩ := Option.map_eq_some_iff.mp observed
  refine ⟨app, run, seen, ?_⟩
  intro shows
  have latest : (app.screen.cells 0).latest = some (1, topRated) := congrArg Observed.latest seen
  have titles : (app.screen.cells 0).movies.map MovieInfo.title = [some "Heat"] :=
    congrArg Observed.titles seen
  have replies : app.service.invoked.map reply = _ := congrArg Observed.replies seen
  have answered : Answered app 0 1 topRated := by
    have alien : (some (0, 1, topRated), some [some "Alien"]) ∈ app.service.invoked.map reply := by
      rw [replies]
      exact List.mem_cons_of_mem _ List.mem_cons_self
    obtain ⟨invocation, member, same⟩ := List.mem_map.mp alien
    obtain ⟨named, titled⟩ := Prod.mk.inj same
    refine ⟨invocation, member, ?_, ?_⟩
    · split at named
      · contradiction
      · rename_i completion
        cases named
        exact completion
    · rw [← Option.isSome_map, titled]
      rfl
  obtain ⟨invocation, member, serial, responce, completion, delivered, movies⟩ :=
    (shows _ _ latest).2 answered
  have listed : reply invocation ∈ app.service.invoked.map reply := List.mem_map_of_mem member
  rw [replies, reply, completion, delivered] at listed
  simp only [Option.map_some, ← movies, titles] at listed
  simp [topRated] at listed

end MoviesApp.MainMenu
