import MoviesApp.Screens.Addresses
import MoviesApp.Screens.Session
import MoviesApp.Screens.UserHistory

/-! What a details screen records is what it was opened for: proved of the screens alone and
without a cache, and true in every session of the app because the screens share no more
than the cache. -/
namespace MoviesApp.Details
open NetworkService

variable {server : URL → tmdb.Body}

/-- The server has the movie at the URL of the screen's own movie request. -/
def Answers (server : URL → tmdb.Body) (app : App client) (i : Nat) (movie : MovieDetailsResponce) :
    Prop :=
  ∃ request ∈ app.service.calls, request.completion = .movie i ∧ ∃ url, request.url = some url ∧
    tmdb.decode Model.movieDetails (server url) = some movie

/-- Each screen asks for one movie, shows nothing but the server's answer, and records
nothing but this answer's id and title. -/
structure Opened (server : URL → tmdb.Body) (app : App client) : Prop where
  accounted : Accounted app.service
  sound : Sound server app.service
  before : ∀ request ∈ app.service.calls, request.completion.screen < app.screen.opened
  single : ∀ first ∈ app.service.calls, ∀ second ∈ app.service.calls, ∀ i,
    first.completion = .movie i → second.completion = .movie i → first = second
  movie : ∀ i movie, (app.screen.screens i).movie = some movie → Answers server app i movie
  uploads : ∀ i, ∀ upload ∈ (app.screen.screens i).uploads, ∃ movie, Answers server app i movie ∧
    ∃ id title, movie.id = some id ∧ movie.title = some title ∧ upload = (toString id, title)

theorem Answers.mono {app next : App client} {i : Nat} {movie : MovieDetailsResponce}
    (answers : Answers server app i movie) (calls : app.service.calls <+: next.service.calls) :
    Answers server next i movie := by
  obtain ⟨request, member, rest⟩ := answers
  exact ⟨request, calls.subset member, rest⟩

/-- Nothing new on the screens, and what is asked for is still asked for. -/
theorem Opened.congr {app next : App client} (opened : Opened server app)
    (accounted : Accounted next.service) (sound : Sound server next.service)
    (calls : next.service.calls = app.service.calls) (screen : next.screen = app.screen) :
    Opened server next := by
  have grown : app.service.calls <+: next.service.calls := calls ▸ List.prefix_rfl
  refine ⟨accounted, sound, ?_, ?_, ?_, ?_⟩
  · rw [calls, screen]
    exact opened.before
  · rw [calls]
    exact opened.single
  · rw [screen]
    exact fun i movie present => (opened.movie i movie present).mono grown
  · rw [screen]
    intro i upload member
    obtain ⟨movie, answers, rest⟩ := opened.uploads i upload member
    exact ⟨movie, answers.mono grown, rest⟩

/-- The requests an action makes. Only an opening asks for a movie, and only for the new screen. -/
theorem act_requests {s next : State} {a : Action} {requests : List (Request tmdb Completion)}
    (acted : act s a = some (next, requests)) : s.opened ≤ next.opened ∧
      ∀ request ∈ requests, request.completion.screen < next.opened ∧
        ∀ i, request.completion = .movie i → i = s.opened ∧
          ∃ movieId, a = .open movieId ∧ request = loadMovie i movieId := by
  cases a with
  | «open» movieId =>
    cases acted
    refine ⟨Nat.le_succ _, ?_⟩
    have own : s.opened < s.opened + 1 := Nat.lt_succ_self _
    simp only [opening, List.forall_mem_cons, loadMovie_completion, loadCast_completion,
      loadReviews_completion, Completion.screen, reduceCtorEq, false_implies, implies_true, and_true]
    refine ⟨⟨own, fun i named => ?_⟩, own, own, List.forall_mem_nil _⟩
    cases named
    exact ⟨rfl, movieId, rfl, rfl⟩
  | viewDidLoad j =>
    obtain ⟨loadable, -, rfl, rfl⟩ := act_viewDidLoad acted
    refine ⟨Nat.le_refl _, ?_⟩
    unfold Details.load
    split
    · exact List.forall_mem_nil _
    · simp only [List.forall_mem_cons, loadCast_completion, loadReviews_completion, reduceCtorEq,
        false_implies, implies_true, and_true]
      exact ⟨loadable, loadable, List.forall_mem_nil _⟩

/-- No action shows a movie or records one. -/
theorem act_shown {s next : State} {a : Action} {requests : List (Request tmdb Completion)}
    (acted : act s a = some (next, requests)) (i : Nat) :
    (next.screens i).movie = (s.screens i).movie ∧
      (next.screens i).uploads = (s.screens i).uploads := by
  cases a with
  | «open» movieId =>
    cases acted
    exact ⟨rfl, rfl⟩
  | viewDidLoad j =>
    obtain ⟨-, -, rfl, -⟩ := act_viewDidLoad acted
    by_cases same : i = j
    · simp only [same, Function.update_self, bind, and_self]
    · simp only [Function.update_of_ne same, and_self]

theorem opened_act {app next : App client} {a : Action} (opened : Opened server app)
    (step : (machine client).step app (.act a) = some next) : Opened server next := by
  have service := step_sound ⟨opened.accounted, opened.sound⟩ (e := .act a) nofun step
  have grown := step_calls step
  obtain ⟨screen, requests, acted, rfl⟩ := step_act step
  have calls : (requests.foldl NetworkService.load app.service).calls =
      app.service.calls ++ requests := foldl_load_calls requests app.service
  obtain ⟨more, made⟩ := act_requests acted
  have earlier : ∀ request ∈ app.service.calls, ∀ i, request.completion = .movie i →
      i ≠ app.screen.opened := by
    intro request member i named
    have before := opened.before request member
    rw [named] at before
    exact Nat.ne_of_lt before
  refine ⟨service.1, service.2, ?_, ?_, ?_, ?_⟩
  · rw [calls]
    exact List.forall_mem_append.mpr
      ⟨fun request member => Nat.lt_of_lt_of_le (opened.before request member) more,
        fun request member => (made request member).1⟩
  · rw [calls]
    intro first firstMember second secondMember i firstNamed secondNamed
    rcases List.mem_append.mp firstMember with old | new <;>
      rcases List.mem_append.mp secondMember with old' | new'
    · exact opened.single first old second old' i firstNamed secondNamed
    · exact absurd ((made second new').2 i secondNamed).1 (earlier first old i firstNamed)
    · exact absurd ((made first new).2 i firstNamed).1 (earlier second old' i secondNamed)
    · obtain ⟨-, movieId, rfl, rfl⟩ := (made first new).2 i firstNamed
      obtain ⟨-, _, same, rfl⟩ := (made second new').2 i secondNamed
      cases same
      rfl
  · intro i movie present
    exact (opened.movie i movie ((act_shown acted i).1 ▸ present)).mono grown
  · intro i upload member
    obtain ⟨movie, answers, rest⟩ := opened.uploads i upload ((act_shown acted i).2 ▸ member)
    exact ⟨movie, answers.mono grown, rest⟩

/-- A movie is shown by its own completion alone. -/
theorem complete_shown (s : Screen) (completion : Completion) (value : Option tmdb.Any) :
    (s.complete completion value).movie = s.movie ∨ ∃ i movie, completion = .movie i ∧
      received .movieDetails value = some movie ∧
      (s.complete completion value).movie = some movie := by
  cases completion with
  | movie i =>
    cases arrived : received .movieDetails value with
    | none => exact Or.inl (by simp only [Screen.complete, arrived])
    | some movie => exact Or.inr ⟨i, movie, rfl, rfl, by simp only [Screen.complete, arrived]⟩
  | cast i =>
    refine Or.inl ?_
    simp only [Screen.complete]
    split
    · split
      · rw [castDidChange_movie]
      · rfl
    · rfl
  | reviews i =>
    refine Or.inl ?_
    simp only [Screen.complete]
    split <;> rfl

theorem opened_runBlock {app next : App client} {id : Nat} (opened : Opened server app)
    (step : (machine client).step app (.runBlock id) = some next) : Opened server next := by
  have service := step_sound ⟨opened.accounted, opened.sound⟩ (e := .runBlock id) nofun step
  obtain ⟨block, mainQueue, taken, rfl⟩ := step_runBlock step
  have due := opened.sound.queued block (Pool.take?_mem taken)
  let i := block.completion.screen
  let value : Option tmdb.Any := some block.value
  have other : ∀ j ≠ i, (complete app.screen block.completion value).screens j =
      app.screen.screens j := fun j different => complete_other different
  have own := complete_own app.screen block.completion value
  refine ⟨service.1, service.2, opened.before, opened.single, ?_, ?_⟩
  · intro j movie present
    change ((complete app.screen block.completion value).screens j).movie = some movie at present
    by_cases same : j = i
    · rw [same, own] at present
      obtain kept | ⟨k, arrivedMovie, named, arrived, shown⟩ :=
        complete_shown (app.screen.screens i) block.completion value
      · rw [kept] at present
        exact same ▸ opened.movie i movie present
      · obtain rfl := Option.some.inj (shown.symm.trans present)
        obtain ⟨request, url, result, found, asked, completion, decoded, content⟩ := due
        obtain ⟨_, stored, cast⟩ := Option.bind_eq_some_iff.mp arrived
        obtain rfl := Option.some.inj stored
        have shape := Codec.cast?_eq_some.mp cast
        obtain ⟨model, result⟩ := Sigma.mk.inj (content.symm.trans shape)
        obtain ⟨requestURL, requestModel, requestCompletion⟩ := request
        dsimp only at model result decoded asked completion
        subst model
        cases eq_of_heq result
        refine ⟨_, List.mem_of_getElem? found, ?_, url, asked, decoded⟩
        rw [same]
        exact completion.symm.trans (named.trans (by simp only [i, named, Completion.screen]))
    · rw [other j same] at present
      exact opened.movie j movie present
  · intro j upload member
    change upload ∈ ((complete app.screen block.completion value).screens j).uploads at member
    by_cases same : j = i
    · rw [same, own] at member
      obtain kept | ⟨k, movie, movieId, title, -, -, present, named, titled, added⟩ :=
        UserHistory.complete_uploads (app.screen.screens i) block.completion value
      · rw [kept] at member
        exact same ▸ opened.uploads i upload member
      · rw [added] at member
        rcases List.mem_append.mp member with earlier | new
        · exact same ▸ opened.uploads i upload earlier
        · exact ⟨movie, same ▸ opened.movie i movie present, movieId, title, named, titled,
            List.mem_singleton.mp new⟩
    · rw [other j same] at member
      exact opened.uploads j upload member

theorem step_opened {app next : App client} {e : Event client} (opened : Opened server app)
    (served : ServedBy server app e) (step : (machine client).step app e = some next) :
    Opened server next := by
  cases e with
  | act a => exact opened_act opened step
  | respond id response =>
    have service := step_sound ⟨opened.accounted, opened.sound⟩ served step
    obtain ⟨task, tasks, -, rfl⟩ := step_respond step
    exact opened.congr service.1 service.2 (respond_calls _ task response)
      (respond_screen app task tasks response)
  | runBlock id => exact opened_runBlock opened step

theorem Opened.withoutCache {app : App client} (opened : Opened server app) :
    Opened server app.withoutCache := by
  have sound : Sound server app.service.withoutCache :=
    ⟨fun _ entry stored => absurd stored.symm (Option.some_ne_none entry), opened.sound.queued,
      opened.sound.delivered⟩
  exact opened.congr opened.accounted.withoutCache sound rfl rfl

theorem start_opened : Opened server (⟨.empty, .start⟩ : App client) where
  accounted := start_accounted _
  sound := empty_sound
  before := List.forall_mem_nil _
  single := List.forall_mem_nil _
  movie i movie present := by
    change Screen.start.movie = some movie at present
    exact nomatch present
  uploads i := by
    change ∀ upload ∈ Screen.start.uploads, _
    exact List.forall_mem_nil _

/-- Alone and without a cache, every details screen shows and records its own movie. -/
theorem uncached_opened {events : List (Event client)} {app : App client}
    (run : (uncached client).run ⟨.empty, .start⟩ events = some app)
    (served : (uncached client).Along (ServedBy server) ⟨.empty, .start⟩ events) :
    Opened server app := by
  refine Transition.Machine.run_invariant_along ?_ run served start_opened
  intro s e t opened met step
  obtain ⟨after, stepped, rfl⟩ := Option.map_eq_some_iff.mp step
  have met : ServedBy server s.withoutCache e := met
  exact (step_opened opened.withoutCache met stepped).withoutCache

end MoviesApp.Details

namespace MoviesApp.Session
open NetworkService

variable {server : URL → tmdb.Body}

/-- The server has each movie under its own id. -/
def Catalogue (server : URL → tmdb.Body) : Prop :=
  ∀ (movieId : Int) url, URL.ofString? (Details.movieURL (toString movieId)) = some url →
    ∀ movie, tmdb.decode Model.movieDetails (server url) = some movie → movie.id = some movieId

/-- A tap that opens a details screen asks for its movie. -/
theorem tap_calls {s t : App client} {tap : Action} {movieId : String}
    (tapped : performed s.screen tap = some ⟨.details, .open movieId⟩)
    (step : (machine client).step s (.act tap) = some t) :
    (Details.loadMovie (s.screen .details).opened movieId).sent Screen.details ∈ t.service.calls := by
  obtain ⟨screen, requests, acted, rfl⟩ := step_act step
  obtain ⟨a, does, done⟩ := Option.bind_eq_some_iff.mp acted
  obtain rfl := Option.some.inj (tapped.symm.trans does)
  obtain ⟨opened, sent, own, -, rfl⟩ := together_act done
  cases own
  have calls : ∀ requests : List (Request tmdb (Σ i, Completion i)),
      (requests.foldl load s.service).calls = s.service.calls ++ requests :=
    fun requests => foldl_load_calls requests s.service
  rw [calls]
  exact List.mem_append_right _ List.mem_cons_self

/-- In every session over a server that has each movie under its own id: the details screen
that a tap opens shows no movie but the one tapped, and whatever it records in the
history is this movie's id with the title the server has for it. -/
theorem tapped_is_recorded {before after : List (Event client)} {tap : Action} {s app : App client}
    {movieId : Int} (catalogue : Catalogue server)
    (reached : (machine client).run ⟨.empty, start⟩ before = some s)
    (tapped : performed s.screen tap = some ⟨.details, .open (toString movieId)⟩)
    (run : (machine client).run ⟨.empty, start⟩ (before ++ .act tap :: after) = some app)
    (served : (machine client).Along (ServedBy server) ⟨.empty, start⟩
      (before ++ .act tap :: after)) :
    let screen := (app.screen .details).screens (s.screen .details).opened
    (∀ movie, screen.movie = some movie → movie.id = some movieId) ∧
    ∀ upload ∈ screen.uploads, ∃ url movie title,
      URL.ofString? (Details.movieURL (toString movieId)) = some url ∧
      tmdb.decode Model.movieDetails (server url) = some movie ∧ movie.title = some title ∧
      upload = (toString movieId, title) := by
  intro screen
  obtain ⟨s', reached', run'⟩ := Transition.Machine.run_append.mp run
  obtain rfl := Option.some.inj (reached.symm.trans reached')
  obtain ⟨t, step, later⟩ := Transition.Machine.run_cons.mp run'
  have asked := (run_calls later).subset (tap_calls tapped step)
  obtain ⟨answers, reachedScreens, kept⟩ := run_screens run served
  obtain ⟨events, u, alone, aloneServed, calls, -, shown⟩ :=
    together_alone reachedScreens kept .details
  have opened := Details.uncached_opened alone aloneServed
  have own : Details.loadMovie (s.screen .details).opened (toString movieId) ∈ u.service.calls := by
    rw [calls]
    exact List.mem_filterMap.mpr ⟨_, asked, by simp [Request.part, Request.sent, Details.loadMovie]⟩
  have answered : ∀ movie, Details.Answers server u (s.screen .details).opened movie →
      ∃ url, URL.ofString? (Details.movieURL (toString movieId)) = some url ∧
        tmdb.decode Model.movieDetails (server url) = some movie := by
    rintro movie ⟨request, member, named, url, present, decoded⟩
    obtain rfl := opened.single request member _ own _ named rfl
    exact ⟨url, present, decoded⟩
  have same : screen = u.screen.screens (s.screen .details).opened := by rw [shown]; rfl
  rw [same]
  constructor
  · intro movie present
    obtain ⟨url, asked, decoded⟩ := answered movie (opened.movie _ movie present)
    exact catalogue movieId url asked movie decoded
  · intro upload member
    obtain ⟨movie, answers, id, title, named, titled, rfl⟩ := opened.uploads _ upload member
    obtain ⟨url, asked, decoded⟩ := answered movie answers
    obtain rfl := Option.some.inj (named.symm.trans (catalogue movieId url asked movie decoded))
    exact ⟨url, movie, title, asked, decoded, titled, rfl⟩

def heatFound : tmdb.Body := some (.object [("results", .array [movieJSON 949 "Heat"])])

/-- A server with one movie, without a cast, which every search finds. -/
def heatServer (url : URL) : tmdb.Body :=
  if url.absoluteString = Details.movieURL "949" then Details.movieDetails
  else if url.absoluteString = Details.castURL "949" then Details.noCast else heatFound

theorem heatServer_catalogue : Catalogue heatServer := by
  intro movieId url asked movie decoded
  obtain ⟨valid, rfl⟩ := URL.ofString?_eq_some.mp asked
  by_cases same : movieId = 949
  · subst same
    have body : heatServer ⟨_, valid⟩ = Details.movieDetails := if_pos rfl
    rw [body] at decoded
    cases decoded
    rfl
  · have other : Details.movieURL (toString movieId) ≠ Details.movieURL "949" := fun equal =>
      same (Addresses.Address.movie.inj (Addresses.Address.string_injective equal))
    have undecoded : tmdb.decode Model.movieDetails (heatServer ⟨_, valid⟩) = none := by
      rw [show heatServer ⟨_, valid⟩ = _ from if_neg other]
      exact apply_ite (tmdb.decode Model.movieDetails) .. |>.trans (ite_self _)
    exact nomatch undecoded.symm.trans decoded

/-- The movie is searched for, found and tapped; its details screen is loaded and answered. -/
def searched : List (Event client) :=
  [.act (.search (.textDidChange "Heat")), .act (.search .timerFires),
    .respond 0 (.data heatFound), .runBlock 0]

def answered : List (Event client) :=
  [.act (.viewDidLoad 0), .respond 1 (.data Details.movieDetails), .runBlock 1,
    .respond 2 (.data Details.noCast), .runBlock 2]

def askedAt : Nat → String
  | 0 => Search.searchURL "Heat"
  | 1 => Details.movieURL "949"
  | _ => Details.castURL "949"

theorem searched_served : (machine client).Along (ServedBy heatServer) ⟨.empty, start⟩
    (searched ++ .act (.didSelectRowAt 0) :: answered) := by
  have asked : (machine client).Along (AskedAt askedAt) ⟨.empty, start⟩
      (searched ++ .act (.didSelectRowAt 0) :: answered) := by
    decide +kernel
  refine Transition.Machine.along_mono asked fun s e member met => ?_
  refine servedBy_askedAt met fun id body answer url same => ?_
  subst answer
  simp only [searched, answered, List.cons_append, List.nil_append, List.mem_cons, reduceCtorEq,
    Event.respond.injEq, List.not_mem_nil, or_false, false_or] at member
  have distinct : Search.searchURL "Heat" ≠ Details.movieURL "949" ∧
      Search.searchURL "Heat" ≠ Details.castURL "949" ∧
      Details.castURL "949" ≠ Details.movieURL "949" := by
    decide +kernel
  obtain ⟨rfl, content⟩ | ⟨rfl, content⟩ | ⟨rfl, content⟩ := member <;> cases content
  · have body : heatServer url = heatFound := by
      rw [heatServer, same, askedAt, if_neg distinct.1, if_neg distinct.2.1]
    exact body.symm
  · have body : heatServer url = Details.movieDetails := by
      rw [heatServer, same, askedAt, if_pos rfl]
    exact body.symm
  · have body : heatServer url = Details.noCast := by
      rw [heatServer, same]
      exact (if_neg distinct.2.2).trans (if_pos rfl)
    exact body.symm

theorem tapped_is_recorded_heat : ∃ app, (machine client).run ⟨.empty, start⟩
      (searched ++ .act (.didSelectRowAt 0) :: answered) = some app ∧
    ((app.screen .details).screens 0).uploads.map Prod.fst = ["949"] ∧
    ∀ upload ∈ ((app.screen .details).screens 0).uploads, ∃ title, upload = ("949", title) := by
  have before : ((machine client).run ⟨.empty, start⟩ searched).map (fun app =>
      ((app.screen .details).opened, (app.screen .search).movies.map MovieInfo.id)) =
        some (0, [some 949]) := by
    decide +kernel
  obtain ⟨s, reached, shown⟩ := Option.map_eq_some_iff.mp before
  obtain ⟨opened, listed⟩ := Prod.mk.inj shown
  have tapped : performed s.screen (.didSelectRowAt 0) =
      some ⟨.details, .open (toString (949 : Int))⟩ := by
    obtain ⟨movie, rest, only, named, -⟩ := List.map_eq_cons_iff.mp listed
    have first : (s.screen .search).movies[0]? = some movie := by rw [only]; rfl
    simp only [performed, first, Option.bind_some, didSelect, named]
    rfl
  have observed : ((machine client).run ⟨.empty, start⟩
      (searched ++ .act (.didSelectRowAt 0) :: answered)).map (fun app =>
        ((app.screen .details).screens 0).uploads.map Prod.fst) = some ["949"] := by
    decide +kernel
  obtain ⟨app, run, uploads⟩ := Option.map_eq_some_iff.mp observed
  obtain ⟨-, recorded⟩ := tapped_is_recorded heatServer_catalogue reached tapped run searched_served
  refine ⟨app, run, uploads, fun upload member => ?_⟩
  rw [opened] at recorded
  obtain ⟨-, -, title, -, -, -, same⟩ := recorded upload member
  exact ⟨title, same⟩

end MoviesApp.Session
