import MoviesApp.Services.Outstanding
import MoviesApp.Services.TMDB

/-! The details screens. Opening one starts its three loads at once; the observer
that records the movie hangs on the cast and is installed by `viewDidLoad`, which may
first load the cast again. -/
namespace MoviesApp.Details
open NetworkService

/-- One details screen with its view model; `bound` says that `viewDidLoad` has run,
`uploads` are the calls of `uploadHistoryToFirebase`. -/
structure Screen where
  movie : Option MovieDetailsResponce
  cast : List ActorInfo
  reviews : List Review
  bound : Bool
  header : Option String
  uploads : List (String × String)

structure State where
  opened : Nat
  screens : Nat → Screen

inductive Completion where
  | movie (screen : Nat)
  | cast (screen : Nat)
  | reviews (screen : Nat)
  deriving DecidableEq

def Completion.screen : Completion → Nat
  | movie screen | cast screen | reviews screen => screen

/-- The menu, the search and the history open a screen with a movie's id. -/
inductive Action where
  | open (movieId : String)
  | viewDidLoad (screen : Nat)

def movieURL (movieId : String) : String :=
  "https://api.themoviedb.org/3/movie/" ++ movieId ++ "?api_key=83224e1665f2c91754d1c03ad23dd491"

def castURL (id : String) : String :=
  "https://api.themoviedb.org/3/movie/" ++ id ++ "/credits?api_key=83224e1665f2c91754d1c03ad23dd491"

def reviewsURL (id : String) : String :=
  "https://api.themoviedb.org/3/movie/" ++ id ++ "/reviews?api_key=83224e1665f2c91754d1c03ad23dd491"

def loadMovie (screen : Nat) (movieId : String) : Request tmdb Completion :=
  ⟨URL.ofString? (movieURL movieId), .movieDetails, .movie screen⟩

def loadCast (screen : Nat) (id : String) : Request tmdb Completion :=
  ⟨URL.ofString? (castURL id), .cast, .cast screen⟩

def loadReviews (screen : Nat) (id : String) : Request tmdb Completion :=
  ⟨URL.ofString? (reviewsURL id), .reviews, .reviews screen⟩

@[simp] theorem loadMovie_completion (screen : Nat) (movieId : String) :
    (loadMovie screen movieId).completion = .movie screen := rfl

@[simp] theorem loadCast_completion (screen : Nat) (id : String) :
    (loadCast screen id).completion = .cast screen := rfl

@[simp] theorem loadReviews_completion (screen : Nat) (id : String) :
    (loadReviews screen id).completion = .reviews screen := rfl

/-- The view controller's `load()`, before the observers are installed. -/
def load (screen : Nat) (s : Screen) : List (Request tmdb Completion) :=
  match s.movie.bind MovieDetailsResponce.id with
  | none => []
  | some id => [loadCast screen (toString id), loadReviews screen (toString id)]

/-- The loads that the menu, the search and the history start for the screen they push. -/
def opening (screen : Nat) (movieId : String) : List (Request tmdb Completion) :=
  [loadMovie screen movieId, loadCast screen movieId, loadReviews screen movieId]

/-- The view controller's `bind()`. -/
def bind (s : Screen) : Screen := { s with bound := true }

def act (s : State) : Action → Option (State × List (Request tmdb Completion))
  | .open movieId => some ({ s with opened := s.opened + 1 }, opening s.opened movieId)
  | .viewDidLoad i =>
    if i < s.opened ∧ (s.screens i).bound = false then
      some ({ s with screens := Function.update s.screens i (bind (s.screens i)) },
        load i (s.screens i))
    else none

/-- The observer that `bind()` installs on the cast. -/
def castDidChange (s : Screen) : Screen :=
  match s.movie with
  | none => s
  | some movie =>
    match movie.id, movie.title with
    | some id, some title => { s with
        header := some (movie.backdropPath.getD "")
        uploads := s.uploads ++ [(toString id, title)] }
    | _, _ => s

theorem castDidChange_bound (s : Screen) : (castDidChange s).bound = s.bound := by
  unfold castDidChange
  split
  · rfl
  · split <;> rfl

theorem castDidChange_movie (s : Screen) : (castDidChange s).movie = s.movie := by
  unfold castDidChange
  split
  · rfl
  · split <;> rfl

theorem castDidChange_absent {s : Screen} (absent : s.movie = none) : castDidChange s = s := by
  simp only [castDidChange, absent]

theorem castDidChange_uploads {s : Screen} {movie : MovieDetailsResponce} {id : Int} {title : String}
    (present : s.movie = some movie) (named : movie.id = some id) (titled : movie.title = some title) :
    (castDidChange s).uploads = s.uploads ++ [(toString id, title)] := by
  simp only [castDidChange, present, named, titled]

/-- The new value of a screen whose completion receives `value`. -/
def Screen.complete (s : Screen) (completion : Completion) (value : Option tmdb.Any) : Screen :=
  match completion with
  | .movie _ =>
    match received .movieDetails value with
    | some movie => { s with movie := some movie }
    | none => s
  | .cast _ =>
    match received .cast value with
    | some cast =>
      if s.bound then castDidChange { s with cast := cast.cast } else { s with cast := cast.cast }
    | none => s
  | .reviews _ =>
    match received .reviews value with
    | some reviews => { s with reviews := reviews.results }
    | none => s

def complete (s : State) (completion : Completion) (value : Option tmdb.Any) : State :=
  let screen := (s.screens completion.screen).complete completion value
  { s with screens := Function.update s.screens completion.screen screen }

def client : Client tmdb Completion := ⟨State, Action, act, complete⟩

def Screen.start : Screen := ⟨none, [], [], false, none, []⟩

def State.start : State := ⟨0, fun _ => .start⟩

theorem complete_other {s : State} {completion : Completion} {value : Option tmdb.Any} {i : Nat}
    (other : i ≠ completion.screen) : (complete s completion value).screens i = s.screens i :=
  Function.update_of_ne other ..

theorem complete_own (s : State) (completion : Completion) (value : Option tmdb.Any) :
    (complete s completion value).screens completion.screen =
      (s.screens completion.screen).complete completion value :=
  Function.update_self ..

theorem complete_movie {s : State} {i : Nat} {value : Option tmdb.Any} {movie : MovieDetailsResponce}
    (arrived : received .movieDetails value = some movie) :
    (complete s (.movie i) value).screens i = { s.screens i with movie := some movie } := by
  apply (complete_own s (.movie i) value).trans
  simp only [Screen.complete, arrived]
  rfl

theorem complete_cast {s : State} {i : Nat} {value : Option tmdb.Any} {cast : CastResponce}
    (arrived : received .cast value = some cast) :
    (complete s (.cast i) value).screens i =
      if (s.screens i).bound then castDidChange { s.screens i with cast := cast.cast }
      else { s.screens i with cast := cast.cast } := by
  apply (complete_own s (.cast i) value).trans
  simp only [Screen.complete, arrived]
  rfl

theorem complete_reviews {s : State} {i : Nat} {value : Option tmdb.Any} {reviews : ReviewsResponce}
    (arrived : received .reviews value = some reviews) :
    (complete s (.reviews i) value).screens i = { s.screens i with reviews := reviews.results } := by
  apply (complete_own s (.reviews i) value).trans
  simp only [Screen.complete, arrived]
  rfl

/-- The type each completion takes its value with. -/
def Completion.model : Completion → Model
  | movie _ => .movieDetails
  | cast _ => .cast
  | reviews _ => .reviews

structure Typed (app : App client) : Prop where
  accounted : Accounted app.service
  genuine : Genuine app.service
  calls : ∀ request ∈ app.service.calls, request.model = request.completion.model

theorem act_viewDidLoad {s next : State} {i : Nat} {requests : List (Request tmdb Completion)}
    (acted : act s (.viewDidLoad i) = some (next, requests)) :
    i < s.opened ∧ (s.screens i).bound = false ∧
      next = { s with screens := Function.update s.screens i (bind (s.screens i)) } ∧
      requests = load i (s.screens i) := by
  simp only [act] at acted
  split at acted
  · rename_i loadable
    cases acted
    exact ⟨loadable.1, loadable.2, rfl, rfl⟩
  · contradiction

theorem act_typed {s next : State} {a : Action} {requests : List (Request tmdb Completion)}
    (acted : act s a = some (next, requests)) :
    ∀ request ∈ requests, request.model = request.completion.model := by
  cases a with
  | «open» movieId =>
    cases acted
    simp only [opening, List.forall_mem_cons]
    exact ⟨rfl, rfl, rfl, fun _ member => nomatch member⟩
  | viewDidLoad i =>
    obtain ⟨-, -, -, rfl⟩ := act_viewDidLoad acted
    unfold load
    split
    · exact fun _ member => nomatch member
    · simp only [List.forall_mem_cons]
      exact ⟨rfl, rfl, fun _ member => nomatch member⟩

theorem complete_none (s : State) (completion : Completion) : complete s completion none = s := by
  have kept : (s.screens completion.screen).complete completion none =
      s.screens completion.screen := by
    cases completion <;> rfl
  simp only [complete, kept, Function.update_eq_self]

theorem respond_screen (app : App client) (task : DataTask tmdb Completion)
    (tasks : List (DataTask tmdb Completion)) (response : Response tmdb) :
    (app.respond task tasks response).screen = app.screen :=
  app.respond_screen complete_none task tasks response

theorem step_typed {app next : App client} {e : Event client} (typed : Typed app)
    (step : (machine client).step app e = some next) : Typed next := by
  refine ⟨step_accounted typed.accounted step, step_genuine typed.genuine step, ?_⟩
  cases e with
  | act a =>
    obtain ⟨screen, requests, acted, rfl⟩ := step_act step
    intro request member
    rw [foldl_load_calls] at member
    rcases List.mem_append.mp member with earlier | new
    · exact typed.calls request earlier
    · exact act_typed acted request new
  | respond id response =>
    obtain ⟨task, tasks, -, rfl⟩ := step_respond step
    have calls := respond_calls { app.service with tasks := tasks } task response
    exact calls.symm ▸ typed.calls
  | runBlock id =>
    obtain ⟨block, mainQueue, -, rfl⟩ := step_runBlock step
    exact typed.calls

/-- A queued value has its completion's type and was decoded from some body. -/
theorem Typed.block {app : App client} (typed : Typed app) {block : Block tmdb Completion}
    {completion : Completion} (queued : block ∈ app.service.mainQueue)
    (same : block.completion = completion) :
    ∃ value json, received completion.model (some block.value) = some value ∧
      completion.model.decode json = some value := by
  subst same
  obtain ⟨request, value, _, found, _, _, shape, _⟩ := typed.accounted.block_queued queued
  obtain ⟨body, decoded⟩ := typed.genuine.queued block queued
  have model := typed.calls request (List.mem_of_getElem? found)
  obtain ⟨id, completion, stored⟩ := block
  simp only [Block.mk.injEq, true_and] at shape
  obtain ⟨rfl, rfl⟩ := shape
  obtain ⟨url, asked, completion⟩ := request
  dsimp only at model value decoded ⊢
  subst model
  obtain ⟨json, -, decoded⟩ := Option.bind_eq_some_iff.mp decoded
  exact ⟨value, json, received_value _ value, decoded⟩

end MoviesApp.Details
