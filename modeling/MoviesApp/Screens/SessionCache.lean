import MoviesApp.Screens.Addresses
import MoviesApp.Screens.Recording
import MoviesApp.Screens.Session
import MoviesApp.Services.Keyed

/-! The cache over a session. Nothing the app asks for shares an address with anything of
another model, so a value once cached is used by every later load, for all screens and
until the app ends. -/
namespace MoviesApp.Session
open NetworkService Addresses

/-- The model that an address of the app stands for. -/
def key (url : URL) : Model := modelAt url.absoluteString.toList

/-- The request is for something the app asks for, as its own model. -/
def Asks {K : Type} (request : Request tmdb K) : Prop :=
  ∃ address : Address, request.url = URL.ofString? address.string ∧ request.model = address.model

/-- The ids that the history opens are numbers, as the app has recorded them. -/
def OpensNumbers (e : Event client) : Prop :=
  ∀ ids row, e = .act (.historyDidSelectRowAt ids row) → ∀ movieId, ids[row]? = some movieId →
    ∃ id : Int, movieId = toString id

theorem Asks.keyed {K : Type} {request : Request tmdb K} (asks : Asks request) :
    request.Keyed key := by
  intro url present
  obtain ⟨address, asked, model⟩ := asks
  obtain ⟨valid, rfl⟩ := URL.ofString?_eq_some.mp (asked.symm.trans present)
  exact model.trans address.modelAt_string.symm

theorem movie_asks (screen : Nat) (id : Int) : Asks (Details.loadMovie screen (toString id)) :=
  ⟨.movie id, rfl, rfl⟩

theorem cast_asks (screen : Nat) (id : Int) : Asks (Details.loadCast screen (toString id)) :=
  ⟨.cast id, rfl, rfl⟩

theorem reviews_asks (screen : Nat) (id : Int) : Asks (Details.loadReviews screen (toString id)) :=
  ⟨.reviews id, rfl, rfl⟩

/-- The requests of one screen's action. -/
theorem clients_ask {i : Screen} {s next : (clients i).State} {a : (clients i).Action}
    {requests : List (Request tmdb (Completion i))} (acted : (clients i).act s a = some (next, requests))
    (numbers : ∀ movieId, (⟨i, a⟩ : screens.Action) = ⟨.details, .open movieId⟩ →
      ∃ id : Int, movieId = toString id) : ∀ request ∈ requests, Asks request := by
  cases i with
  | mainMenu =>
    obtain ⟨-, rfl⟩ | ⟨cell, path, shape⟩ := MainMenu.act_cases acted
    · exact List.forall_mem_singleton.mpr ⟨.genres, rfl, rfl⟩
    · obtain ⟨-, rfl⟩ := Prod.mk.inj shape
      exact List.forall_mem_singleton.mpr ⟨.category path, rfl, rfl⟩
  | search =>
    obtain ⟨_, -, rfl⟩ | ⟨text, -, -, rfl⟩ | ⟨-, rfl⟩ := Search.act_cases acted
    · exact List.forall_mem_nil _
    · exact List.forall_mem_singleton.mpr ⟨.search text, rfl, rfl⟩
    · exact List.forall_mem_nil _
  | details =>
    cases a with
    | «open» movieId =>
      obtain ⟨id, rfl⟩ := numbers movieId rfl
      cases acted
      simp only [Details.opening, List.forall_mem_cons]
      exact ⟨movie_asks _ id, cast_asks _ id, reviews_asks _ id, List.forall_mem_nil _⟩
    | viewDidLoad screen =>
      obtain ⟨-, -, -, rfl⟩ := Details.act_viewDidLoad acted
      unfold Details.load
      split
      · exact List.forall_mem_nil _
      · rename_i id _
        simp only [List.forall_mem_cons]
        exact ⟨cast_asks _ id, reviews_asks _ id, List.forall_mem_nil _⟩

theorem didSelect_number {movie : MovieInfo} {a : screens.Action} (selects : didSelect movie = some a) :
    ∃ id : Int, a = ⟨.details, .open (toString id)⟩ := by
  obtain ⟨id, -, rfl⟩ := Option.map_eq_some_iff.mp selects
  exact ⟨id, rfl⟩

/-- A tap on a film opens a number; so does one in the history, if it meets the condition. -/
theorem performed_numbers {s : screens.State} {a : Action} {b : screens.Action}
    (does : performed s a = some b) (numbers : OpensNumbers (.act a)) {movieId : String}
    (opens : b = ⟨.details, .open movieId⟩) : ∃ id : Int, movieId = toString id := by
  subst opens
  cases a with
  | mainMenu a => exact nomatch does
  | search a => exact nomatch does
  | viewDidLoad screen => exact nomatch does
  | didSelectItemAt cell item =>
    obtain ⟨movie, -, selects⟩ := Option.bind_eq_some_iff.mp does
    obtain ⟨id, same⟩ := didSelect_number selects
    cases same
    exact ⟨id, rfl⟩
  | didSelectRowAt row =>
    obtain ⟨movie, -, selects⟩ := Option.bind_eq_some_iff.mp does
    obtain ⟨id, same⟩ := didSelect_number selects
    cases same
    exact ⟨id, rfl⟩
  | historyDidSelectRowAt ids row =>
    obtain ⟨other, listed, same⟩ := Option.map_eq_some_iff.mp does
    cases same
    exact numbers ids row rfl _ listed

theorem keyedBy {app : App client} {e : Event client} (numbers : OpensNumbers e) :
    KeyedBy key app e := by
  rintro a rfl screen requests acted request member
  obtain ⟨⟨i, b⟩, does, done⟩ := Option.bind_eq_some_iff.mp acted
  obtain ⟨_, sent, own, -, rfl⟩ := together_act done
  obtain ⟨asked, listed, rfl⟩ := List.mem_map.mp member
  obtain ⟨address, url, model⟩ := clients_ask own
    (fun movieId opens => performed_numbers does numbers opens) asked listed
  have asks : Asks (asked.sent i) := ⟨address, url, model⟩
  exact asks.keyed

theorem keyed_along {app : App client} {events : List (Event client)}
    (numbers : ∀ e ∈ events, OpensNumbers e) : (machine client).Along (KeyedBy key) app events :=
  Transition.Machine.along_of_forall fun _ e member => keyedBy (numbers e member)

variable {before after : List (Event client)} {middle app : App client} {url : URL}

/-- Nothing is fetched twice. In every session whose history opens numbers, whatever the server
answers and in whatever order: once a URL has an entry in the cache, every later load of it, by any screen, finds the
entry and starts no task. -/
theorem fetched_once (first : (machine client).run ⟨.empty, start⟩ before = some middle)
    (later : (machine client).run middle after = some app)
    (numbers : ∀ e ∈ before ++ after, OpensNumbers e) (stored : middle.service.cache url ≠ none) :
    app.service.cache url ≠ none ∧ ∀ id request, middle.service.calls.length ≤ id →
      app.service.calls[id]? = some request → request.url = some url →
      app.service.exitsOf id = [(id, .cacheHit)] ∧ app.service.tasksOf id = [] := by
  obtain ⟨early, late⟩ := List.forall_mem_append.mp numbers
  have keyed := run_keyed first (keyed_along early)
  have hits := run_hits keyed stored later (keyed_along late)
  have accounted : Accounted app.service :=
    run_accounted (Transition.Machine.run_append.mpr ⟨middle, first, later⟩)
  refine ⟨hits.stored, fun id request new found present => ?_⟩
  have listed : (id, Exit.cacheHit) ∈ app.service.exitsOf id :=
    List.mem_filter.mpr ⟨hits.hits id request new found present, beq_self_eq_true _⟩
  cases accounted.standing id request found with
  | waiting _ _ _ _ exits =>
    rw [exits] at listed
    exact nomatch listed
  | queued _ exit _ _ tasks _ exits | delivered _ exit _ _ tasks _ exits | dropped exit _ tasks _ exits =>
    rw [exits] at listed
    rw [exits, List.mem_singleton.mp listed]
    exact ⟨rfl, tasks⟩
  | failed _ tasks _ exits =>
    rw [exits] at listed
    exact nomatch List.mem_singleton.mp listed

def heatURL : URL := ⟨Details.movieURL "949", by decide +kernel⟩

/-- A film of the history is opened and its movie arrives; then it is opened once more. -/
def opened : List (Event client) :=
  [.act (.historyDidSelectRowAt ["949"] 0), .respond 0 (.data Details.movieDetails), .runBlock 0]

def reopened : List (Event client) := [.act (.historyDidSelectRowAt ["949"] 0), .runBlock 3]

theorem opened_numbers : ∀ e ∈ opened ++ reopened, OpensNumbers e := by
  have number : OpensNumbers (.act (.historyDidSelectRowAt ["949"] 0)) := by
    rintro ids row same movieId listed
    cases same
    obtain rfl := Option.some.inj listed
    exact ⟨949, rfl⟩
  simp only [opened, reopened, List.forall_mem_append, List.forall_mem_cons]
  exact ⟨⟨number, nofun, nofun, List.forall_mem_nil _⟩, number, nofun, List.forall_mem_nil _⟩

/-- What there is to see of the two runs. -/
theorem opened_twice : ∃ middle app, (machine client).run ⟨.empty, start⟩ opened = some middle ∧
    (machine client).run middle reopened = some app ∧ middle.service.calls.length = 3 ∧
    (middle.service.cache heatURL).isSome ∧ (∀ task ∈ middle.service.tasks, task.url ≠ heatURL) ∧
    (app.service.calls[3]?).bind Request.url = some heatURL ∧
    (app.service.invoked.map Invocation.id) = [0, 3] := by
  have observed : ((machine client).run ⟨.empty, start⟩ opened).bind (fun middle =>
      ((machine client).run middle reopened).map fun app => (middle.service.calls.length,
        (middle.service.cache heatURL).isSome, middle.service.tasks.all (·.url != heatURL),
        (app.service.calls[3]?).bind Request.url, app.service.invoked.map Invocation.id)) =
      some (3, true, true, some heatURL, [0, 3]) := by
    decide +kernel
  obtain ⟨middle, first, observed⟩ := Option.bind_eq_some_iff.mp observed
  obtain ⟨app, later, seen⟩ := Option.map_eq_some_iff.mp observed
  simp only [Prod.mk.injEq] at seen
  obtain ⟨calls, stored, idle, asked, invoked⟩ := seen
  refine ⟨middle, app, first, later, calls, stored, fun task member => ?_, asked, invoked⟩
  exact bne_iff_ne.mp (List.all_eq_true.mp idle task member)

theorem fetched_once_opened_twice : ∃ app, (machine client).run ⟨.empty, start⟩ (opened ++ reopened) =
    some app ∧ app.service.exitsOf 3 = [(3, .cacheHit)] ∧ app.service.tasksOf 3 = [] := by
  obtain ⟨middle, app, first, later, calls, stored, -, asked, -⟩ := opened_twice
  obtain ⟨request, found, present⟩ := Option.bind_eq_some_iff.mp asked
  obtain ⟨-, fetched⟩ := fetched_once first later opened_numbers (Option.isSome_iff_ne_none.mp stored)
  exact ⟨app, Transition.Machine.run_append.mpr ⟨middle, first, later⟩,
    fetched 3 request (Nat.le_of_eq calls) found present⟩

/-- Answers are final. Once a URL has an entry and no task for it is left, the entry stays until
the app ends, and whatever loads the URL receives it, on the main queue and without error,
whatever becomes of the server or of the network. -/
theorem answer_final {entry : tmdb.Any}
    (first : (machine client).run ⟨.empty, start⟩ before = some middle)
    (later : (machine client).run middle after = some app)
    (numbers : ∀ e ∈ before ++ after, OpensNumbers e) (stored : middle.service.cache url = some entry)
    (idle : ∀ task ∈ middle.service.tasks, task.url ≠ url) :
    app.service.cache url = some entry ∧ ∀ invocation ∈ app.service.invoked,
      middle.service.calls.length ≤ invocation.id → ∀ request,
      app.service.calls[invocation.id]? = some request → request.url = some url →
      invocation.queue = .main ∧ invocation.value = some entry ∧ invocation.error = none := by
  obtain ⟨early, late⟩ := List.forall_mem_append.mp numbers
  have keyed := run_keyed first (keyed_along early)
  have final := run_final keyed stored idle later (keyed_along late)
  exact ⟨final.stored, final.invoked⟩

theorem answer_final_opened_twice : ∃ app entry, (machine client).run ⟨.empty, start⟩
    (opened ++ reopened) = some app ∧ app.service.cache heatURL = some entry ∧
    ∃ invocation ∈ app.service.invoked, invocation.id = 3 ∧ invocation.value = some entry := by
  obtain ⟨middle, app, first, later, calls, stored, idle, asked, invoked⟩ := opened_twice
  obtain ⟨entry, stored⟩ := Option.isSome_iff_exists.mp stored
  obtain ⟨request, found, present⟩ := Option.bind_eq_some_iff.mp asked
  obtain ⟨kept, answered⟩ := answer_final first later opened_numbers stored idle
  have third : 3 ∈ app.service.invoked.map Invocation.id := by
    rw [invoked]
    decide
  obtain ⟨invocation, member, same⟩ := List.mem_map.mp third
  obtain ⟨-, value, -⟩ := answered invocation member (by omega) request (by rw [same, found]) present
  exact ⟨app, entry, Transition.Machine.run_append.mpr ⟨middle, first, later⟩, kept, invocation,
    member, same, value⟩

end MoviesApp.Session
