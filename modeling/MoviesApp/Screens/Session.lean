import MoviesApp.Screens.Details
import MoviesApp.Screens.MainMenu
import MoviesApp.Screens.Search
import MoviesApp.Services.Sharing
import MoviesApp.Services.Silent

/-! A session of the app. The main menu, the search screen and the details screens load over
one service, whose cache is static; a tap on a film opens a details screen for its id. -/
namespace MoviesApp.Session
open NetworkService

inductive Screen where
  | mainMenu
  | search
  | details
  deriving DecidableEq

@[reducible] def Completion : Screen → Type
  | .mainMenu => MainMenu.Completion
  | .search => Nat
  | .details => Details.Completion

@[reducible] def clients : (i : Screen) → Client tmdb (Completion i)
  | .mainMenu => MainMenu.client
  | .search => Search.client
  | .details => Details.client

/-- The screens, opening details screens for any ids. -/
abbrev screens : Client tmdb (Σ i, Completion i) := Client.together clients

def start : screens.State
  | .mainMenu => MainMenu.State.start
  | .search => Search.State.start
  | .details => Details.State.start

/-- The history screen selects from the ids it has read. -/
inductive Action where
  | mainMenu (a : MainMenu.Action)
  | search (a : Search.Action)
  | viewDidLoad (screen : Nat)
  | didSelectItemAt (cell item : Nat)
  | didSelectRowAt (row : Nat)
  | historyDidSelectRowAt (ids : List String) (row : Nat)

/-- A details screen is pushed for a movie that has an id. -/
def didSelect (movie : MovieInfo) : Option screens.Action :=
  movie.id.map fun movieId => ⟨.details, .open (toString movieId)⟩

/-- What the user's action does, if anything. -/
def performed (s : screens.State) : Action → Option screens.Action
  | .mainMenu a => some ⟨.mainMenu, a⟩
  | .search a => some ⟨.search, a⟩
  | .viewDidLoad screen => some ⟨.details, .viewDidLoad screen⟩
  | .didSelectItemAt cell item => (((s .mainMenu).cells cell).movies[item]?).bind didSelect
  | .didSelectRowAt row => ((s .search).movies[row]?).bind didSelect
  | .historyDidSelectRowAt ids row => ids[row]?.map fun movieId => ⟨.details, .open movieId⟩

def client : Client tmdb (Σ i, Completion i) where
  State := screens.State
  Action := Action
  act s a := (performed s a).bind (screens.act s)
  complete := screens.complete

/-- The same moment of the session, without the taps. -/
def App.screens (app : App client) : App Session.screens := ⟨app.service, app.screen⟩

/-- The step of the screens behind a step of the session. -/
theorem step_screens {app next : App client} {e : Event client}
    (step : (machine client).step app e = some next) :
    ∃ e', (machine screens).step (App.screens app) e' = some (App.screens next) ∧
      ∀ id response, e' = .respond id response ↔ e = .respond id response := by
  cases e with
  | act a =>
    obtain ⟨screen, requests, acted, rfl⟩ := step_act step
    obtain ⟨b, -, done⟩ := Option.bind_eq_some_iff.mp acted
    exact ⟨.act b, Option.map_eq_some_iff.mpr ⟨_, done, rfl⟩, fun _ _ => ⟨nofun, nofun⟩⟩
  | respond id response =>
    obtain ⟨task, tasks, taken, rfl⟩ := step_respond step
    refine ⟨.respond id response, Option.map_eq_some_iff.mpr ⟨(task, tasks), taken, ?_⟩, ?_⟩
    · cases response <;> rfl
    · intro other answer
      simp only [Event.respond.injEq]
  | runBlock id =>
    obtain ⟨block, mainQueue, taken, rfl⟩ := step_runBlock step
    exact ⟨.runBlock id, Option.map_eq_some_iff.mpr ⟨(block, mainQueue), taken, rfl⟩,
      fun _ _ => ⟨nofun, nofun⟩⟩

variable {server : URL → tmdb.Body}

theorem run_screens {events : List (Event client)} {app : App client}
    (run : (machine client).run ⟨.empty, start⟩ events = some app)
    (served : (machine client).Along (ServedBy server) ⟨.empty, start⟩ events) :
    ∃ answers, (machine screens).run ⟨.empty, start⟩ answers = some (App.screens app) ∧
      (machine screens).Along (ServedBy server) ⟨.empty, start⟩ answers := by
  have steps : ∀ {s : App client} {e : Event client} {t : App client} {u : App Session.screens},
      u = App.screens s → ServedBy server s e → (machine client).step s e = some t →
      ∃ answer v, (machine screens).run u answer = some v ∧
        (machine screens).Along (ServedBy server) u answer ∧ v = App.screens t := by
    rintro s e t _ rfl met step
    obtain ⟨e', done, same⟩ := step_screens step
    refine ⟨[e'], _, Transition.Machine.run_cons.mpr ⟨_, done, rfl⟩,
      (Transition.Machine.along_cons done).mpr ⟨?_, trivial⟩, rfl⟩
    intro id response answer
    exact met id response ((same id response).mp answer)
  obtain ⟨answers, v, reached, kept, rfl⟩ := Transition.Machine.run_simulation
    (R := fun s u => u = App.screens s) steps run served rfl
  exact ⟨answers, reached, kept⟩

/-- The screens do not disturb each other. In every session over a fixed server, whatever the
order of taps, replies and deliveries, each screen is as some run of it alone and without
a cache leaves it, with the same calls and the same invocations in the same order. -/
theorem screen_alone {events : List (Event client)} {app : App client}
    (run : (machine client).run ⟨.empty, start⟩ events = some app)
    (served : (machine client).Along (ServedBy server) ⟨.empty, start⟩ events) (i : Screen) :
    ∃ answers u, (uncached (clients i)).run ⟨.empty, start i⟩ answers = some u ∧
      (uncached (clients i)).Along (ServedBy server) ⟨.empty, start i⟩ answers ∧
      u.service.calls = app.service.calls.filterMap (Request.part i) ∧
      u.service.invoked.map Invocation.content =
        app.service.invoked.filterMap (Invocation.part i) ∧
      u.screen = app.screen i := by
  obtain ⟨answers, reached, kept⟩ := run_screens run served
  exact together_alone reached kept i

/-- The genres are asked for while a search is answered, and a film of the history is opened. -/
def browsing : List (Event client) :=
  [.act (.mainMenu .viewDidLoad), .act (.search (.textDidChange "Heat")), .act (.search .timerFires),
    .respond 1 (.data (noResults searchURL)), .act (.historyDidSelectRowAt ["949"] 0), .runBlock 1]

theorem screen_alone_browsing : ∃ app, (machine client).run ⟨.empty, start⟩ browsing = some app ∧
    app.service.calls.length = 5 ∧ ∃ answers u,
      (uncached Search.client).run ⟨.empty, Search.State.start⟩ answers = some u ∧
      u.service.calls.length = 1 ∧ u.screen.movies = (app.screen .search).movies := by
  have observed : ((machine client).run ⟨.empty, start⟩ browsing).map (fun app =>
      (app.service.calls.length, (app.service.calls.filterMap (Request.part .search)).length)) =
        some (5, 1) := by
    decide +kernel
  obtain ⟨app, run, seen⟩ := Option.map_eq_some_iff.mp observed
  obtain ⟨calls, own⟩ := Prod.mk.inj seen
  have served : (machine client).Along (ServedBy noResults) ⟨.empty, start⟩ browsing := by
    apply Transition.Machine.along_of_forall
    intro s e member id response answer
    subst answer
    simp only [browsing, List.mem_cons, reduceCtorEq, Event.respond.injEq, List.not_mem_nil,
      false_or, or_false] at member
    obtain ⟨-, rfl⟩ := member
    exact fun _ _ _ => rfl
  obtain ⟨answers, u, alone, -, same, -, shown⟩ := screen_alone run served .search
  exact ⟨app, run, calls, answers, u, alone, (congrArg List.length same).trans own,
    congrArg Search.State.movies shown⟩

/-- No screen does anything when it is told of an error. -/
theorem complete_none (s : screens.State) (completion : Σ i, Completion i) :
    screens.complete s completion none = s := by
  obtain ⟨i, k⟩ := completion
  have kept : (clients i).complete (s i) k none = s i := by
    cases i with
    | mainMenu => exact MainMenu.complete_none _ k
    | search => rfl
    | details => exact Details.complete_none _ k
  exact (congrArg (Function.update s i) kept).trans (Function.update_eq_self i s)

/-- Failures pass unnoticed. Every session goes as it goes without the answers that fail, in
transport or in decoding: the screens, the cache, the calls and what is delivered are the same,
and the failed requests look as if they were still under way. -/
theorem failures_silent {events : List (Event client)} {app : App client}
    (run : (machine client).run ⟨.empty, start⟩ events = some app) :
    ∃ left u, left.Sublist events ∧ (machine client).run ⟨.empty, start⟩ left = some u ∧
      (machine client).Along Succeeds ⟨.empty, start⟩ left ∧ u.screen = app.screen ∧
      u.service.cache = app.service.cache ∧ u.service.calls = app.service.calls ∧
      u.service.mainQueue = app.service.mainQueue ∧
      u.service.invoked = app.service.invoked.filter (·.value.isSome) ∧
      ∃ failed, u.service.tasks.Perm (app.service.tasks ++ failed) := by
  obtain ⟨left, u, fewer, reached, along, -, ⟨failed, spared⟩, screen⟩ :=
    @run_unfailing _ _ client complete_none _ _ _ run
  exact ⟨left, u, fewer, reached, along, screen, spared.cache, spared.calls, spared.mainQueue,
    spared.invoked, failed, spared.tasks⟩

/-- The genres fail, the search is answered. -/
def offline : List (Event client) :=
  [.act (.mainMenu .viewDidLoad), .act (.search (.textDidChange "Heat")), .act (.search .timerFires),
    .respond 0 (.failure ⟨-1009⟩), .respond 1 (.data (noResults searchURL)), .runBlock 1]

theorem failures_silent_offline : ∃ app, (machine client).run ⟨.empty, start⟩ offline = some app ∧
    app.service.tasks.length = 0 ∧ ∃ left u, left.Sublist offline ∧
      (machine client).run ⟨.empty, start⟩ left = some u ∧ u.screen = app.screen ∧
      u.service.calls = app.service.calls := by
  have observed : ((machine client).run ⟨.empty, start⟩ offline).map (fun app =>
      app.service.tasks.length) = some 0 := by
    decide +kernel
  obtain ⟨app, run, tasks⟩ := Option.map_eq_some_iff.mp observed
  obtain ⟨left, u, fewer, reached, -, screen, -, calls, -⟩ := failures_silent run
  exact ⟨app, run, tasks, left, u, fewer, reached, screen, calls⟩

end MoviesApp.Session
