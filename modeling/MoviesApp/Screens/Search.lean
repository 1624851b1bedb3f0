import MoviesApp.Services.Ledger
import MoviesApp.Services.TMDB

/-! The search screen: a debounce timer, one request per phrase that fires it, and
a list that every reply overwrites. A run that delivers no overtaken reply shows the
results of the latest search. -/
namespace MoviesApp.Search
open NetworkService

/-- The view controller's timer with the text its block captured, the view model's
movies, and every text searched so far. -/
structure State where
  timer : Option String
  movies : List MovieInfo
  searches : List String

inductive Action where
  | textDidChange (searchText : String)
  | timerFires

def searchURL (searchPhrase : String) : String :=
  "https://api.themoviedb.org/3/search/movie?api_key=83224e1665f2c91754d1c03ad23dd491&query=" ++
    searchPhrase

/-- Completions are named by the position of their search. -/
def findMovie (s : State) (searchPhrase : String) : State × List (Request tmdb Nat) :=
  if searchPhrase.length > 0 then
    ({ s with searches := s.searches ++ [searchPhrase] },
      [⟨URL.ofString? (searchURL searchPhrase), .movies, s.searches.length⟩])
  else
    ({ s with searches := s.searches ++ [searchPhrase], movies := [] }, [])

/-- A change of the text invalidates the timer that is pending and starts another. -/
def act (s : State) : Action → Option (State × List (Request tmdb Nat))
  | .textDidChange searchText => some ({ s with timer := some searchText }, [])
  | .timerFires => s.timer.map fun searchText => findMovie { s with timer := none } searchText

def complete (s : State) (_ : Nat) (value : Option tmdb.Any) : State :=
  match received .movies value with
  | some responce => { s with movies := responce.results }
  | none => s

def client : Client tmdb Nat := ⟨State, Action, act, complete⟩

def State.start : State := ⟨none, [], []⟩

/-- The completion belongs to the latest search. -/
def Latest (app : App client) (completion : Nat) : Prop :=
  completion + 1 = app.screen.searches.length

/-- The latest search is through: its text was empty, or its reply has been delivered. -/
def Answered (app : App client) : Prop :=
  app.screen.searches.getLast? = some "" ∨ ∃ invocation ∈ app.service.invoked,
    Latest app invocation.completion ∧ (received .movies invocation.value).isSome

/-- No reply of an earlier search changes the list once the latest search is through. -/
def NotOvertaken (app : App client) : Event client → Prop
  | .runBlock id => ∀ block ∈ app.service.mainQueue.find? (·.id == id),
    Latest app block.completion ∨ ¬ Answered app ∨
      ∀ responce, received .movies (some block.value) = some responce →
        responce.results = app.screen.movies
  | .act _ | .respond _ _ => True

/-- The list is empty after a search for nothing, and the latest search's own results
once these have been delivered. -/
structure ShowsLatest (app : App client) : Prop where
  cleared : app.screen.searches.getLast? = some "" → app.screen.movies = []
  found : ∀ invocation ∈ app.service.invoked, Latest app invocation.completion →
    ∀ responce, received .movies invocation.value = some responce →
      app.screen.movies = responce.results

/-- Each call is the one request of a search for a text that is not empty. -/
structure Numbered (app : App client) : Prop where
  accounted : Accounted app.service
  unique : (app.service.calls.map Request.completion).Nodup
  searched : ∀ request ∈ app.service.calls, ∃ text, text ≠ "" ∧
    app.screen.searches[request.completion]? = some text

theorem length_pos_iff {text : String} : text.length > 0 ↔ text ≠ "" := by
  rw [gt_iff_lt, Nat.pos_iff_ne_zero, ne_eq, String.length_eq_zero_iff]

theorem act_cases {s next : State} {a : Action} {requests : List (Request tmdb Nat)}
    (acted : act s a = some (next, requests)) :
    (∃ text, next = { s with timer := some text } ∧ requests = []) ∨
    (∃ text, text ≠ "" ∧ next = { s with timer := none, searches := s.searches ++ [text] } ∧
      requests = [⟨URL.ofString? (searchURL text), .movies, s.searches.length⟩]) ∨
    (next = ⟨none, [], s.searches ++ [""]⟩ ∧ requests = []) := by
  cases a with
  | textDidChange text =>
    cases acted
    exact Or.inl ⟨text, rfl, rfl⟩
  | timerFires =>
    obtain ⟨text, -, fired⟩ := Option.map_eq_some_iff.mp acted
    unfold findMovie at fired
    split at fired
    · rename_i typed
      cases fired
      exact Or.inr (Or.inl ⟨text, length_pos_iff.mp typed, rfl, rfl⟩)
    · rename_i erased
      cases fired
      obtain rfl : text = "" := by
        by_contra typed
        exact erased (length_pos_iff.mpr typed)
      exact Or.inr (Or.inr ⟨rfl, rfl⟩)

theorem complete_searches (s : State) (completion : Nat) (value : Option tmdb.Any) :
    (complete s completion value).searches = s.searches := by
  unfold complete
  split <;> rfl

theorem Numbered.fresh {app : App client} (numbered : Numbered app) :
    ∀ request ∈ app.service.calls, request.completion < app.screen.searches.length := by
  intro request member
  obtain ⟨text, -, found⟩ := numbered.searched request member
  exact (List.getElem?_eq_some_iff.mp found).1

/-- Completions invoked belong to searches made so far. -/
theorem Numbered.invoked {app : App client} (numbered : Numbered app) {invocation : Invocation tmdb Nat}
    (member : invocation ∈ app.service.invoked) :
    invocation.completion < app.screen.searches.length := by
  obtain ⟨request, found, completion, -⟩ := numbered.accounted.invoked_call member
  rw [completion]
  exact numbered.fresh request (List.mem_of_getElem? found)

/-- One more search: its request, if it makes one, is the only one with its number. -/
theorem Numbered.search {app : App client} (numbered : Numbered app) {screen : State} {text : String}
    {requests : List (Request tmdb Nat)} (searches : screen.searches = app.screen.searches ++ [text])
    (accounted : Accounted (requests.foldl load app.service))
    (shape : requests = [] ∨ text ≠ "" ∧ ∃ url, requests = [⟨url, .movies, app.screen.searches.length⟩]) :
    Numbered (⟨requests.foldl load app.service, screen⟩ : App client) := by
  have earlier : ∀ request ∈ app.service.calls, ∃ text, text ≠ "" ∧
      screen.searches[request.completion]? = some text := by
    intro request member
    obtain ⟨old, typed, found⟩ := numbered.searched request member
    exact ⟨old, typed, by
      rw [searches, List.getElem?_append_left (numbered.fresh request member), found]⟩
  obtain rfl | ⟨typed, url, rfl⟩ := shape
  · exact ⟨accounted, numbered.unique, earlier⟩
  · refine ⟨accounted, ?_, ?_⟩
    · rw [foldl_load_calls]
      exact Pool.nodup_snoc numbered.unique
        fun request member => Nat.ne_of_lt (numbered.fresh request member)
    · rw [foldl_load_calls]
      apply Pool.forall_snoc earlier
      exact ⟨text, typed, by rw [searches]; exact List.getElem?_concat_length⟩

theorem respond_screen (app : App client) (task : DataTask tmdb Nat)
    (tasks : List (DataTask tmdb Nat)) (response : Response tmdb) :
    (app.respond task tasks response).screen = app.screen :=
  app.respond_screen (fun _ _ => rfl) task tasks response

theorem step_numbered {app next : App client} {e : Event client} (numbered : Numbered app)
    (step : (machine client).step app e = some next) : Numbered next := by
  have accounted := step_accounted numbered.accounted step
  cases e with
  | act a =>
    obtain ⟨screen, requests, acted, rfl⟩ := step_act step
    obtain ⟨text, rfl, rfl⟩ | ⟨text, typed, rfl, rfl⟩ | ⟨rfl, rfl⟩ := act_cases acted
    · exact ⟨accounted, numbered.unique, numbered.searched⟩
    · exact numbered.search rfl accounted (Or.inr ⟨typed, _, rfl⟩)
    · exact numbered.search rfl accounted (Or.inl rfl)
  | respond id response =>
    obtain ⟨task, tasks, -, rfl⟩ := step_respond step
    have calls := respond_calls { app.service with tasks := tasks } task response
    refine ⟨accounted, calls.symm ▸ numbered.unique, ?_⟩
    intro request member
    rw [respond_screen]
    exact numbered.searched request (calls ▸ member)
  | runBlock id =>
    obtain ⟨block, mainQueue, -, rfl⟩ := step_runBlock step
    refine ⟨accounted, numbered.unique, ?_⟩
    intro request member
    have searches : (app.runBlock block mainQueue).screen.searches = app.screen.searches :=
      complete_searches app.screen block.completion (some block.value)
    rw [searches]
    exact numbered.searched request member

theorem complete_movies {s : State} (completion : Nat) {value : Option tmdb.Any}
    {responce : MoviesResponce} (delivered : received .movies value = some responce) :
    (complete s completion value).movies = responce.results := by
  simp only [complete, delivered]

/-- A reply that may be delivered leaves what was shown for the latest search as it was. -/
theorem runBlock_keeps {app : App client} {id : Nat} {block : Block tmdb Nat}
    {mainQueue : List (Block tmdb Nat)} (numbered : Numbered app) (shows : ShowsLatest app)
    (inOrder : NotOvertaken app (.runBlock id))
    (taken : Pool.take? (·.id == id) app.service.mainQueue = some (block, mainQueue)) :
    (app.screen.searches.getLast? = some "" →
      (complete app.screen block.completion (some block.value)).movies = []) ∧
    ∀ invocation ∈ app.service.invoked, Latest app invocation.completion →
      ∀ responce, received .movies invocation.value = some responce →
        (complete app.screen block.completion (some block.value)).movies = responce.results := by
  have queued := Pool.take?_mem taken
  rcases inOrder block (Pool.take?_find taken) with own | waiting | same
  · constructor
    · intro erased
      obtain ⟨request, _, _, found, _, _, shape, _⟩ := numbered.accounted.block_queued queued
      obtain ⟨text, typed, searched⟩ := numbered.searched request (List.mem_of_getElem? found)
      have last : app.screen.searches.length - 1 = request.completion := by
        rw [← own, shape, Nat.add_sub_cancel]
      rw [List.getLast?_eq_getElem?, last, searched] at erased
      exact absurd (Option.some.inj erased) typed
    · intro invocation member latest
      have other := numbered.accounted.block_uninvoked numbered.unique queued member
      exact absurd (Nat.succ.inj (latest.trans own.symm)) other
  · constructor
    · intro erased
      exact absurd (Or.inl erased) waiting
    · intro invocation member latest responce delivered
      exact absurd (Or.inr ⟨invocation, member, latest, Option.isSome_of_eq_some delivered⟩) waiting
  · have kept : (complete app.screen block.completion (some block.value)).movies =
        app.screen.movies := by
      cases content : received .movies (some block.value) with
      | none => simp only [complete, content]
      | some responce => exact (complete_movies _ content).trans (same responce content)
    rw [kept]
    exact ⟨shows.cleared, shows.found⟩

/-- A new search waits for its own reply, and an empty one clears the list. -/
theorem act_shows {app : App client} {screen : State} {a : Action} {requests : List (Request tmdb Nat)}
    (numbered : Numbered app) (shows : ShowsLatest app)
    (acted : act app.screen a = some (screen, requests)) :
    ShowsLatest (⟨requests.foldl load app.service, screen⟩ : App client) := by
  have invoked := foldl_load_invoked requests app.service
  have unanswered {text : String} : ∀ invocation ∈ (requests.foldl load app.service).invoked,
      invocation.completion + 1 ≠ (app.screen.searches ++ [text]).length := by
    intro invocation member
    rw [invoked] at member
    have bound := numbered.invoked member
    rw [List.length_append, List.length_singleton]
    omega
  obtain ⟨text, rfl, rfl⟩ | ⟨text, typed, rfl, rfl⟩ | ⟨rfl, rfl⟩ := act_cases acted
  · exact ⟨shows.cleared, shows.found⟩
  · constructor
    · intro latest
      rw [List.getLast?_concat] at latest
      exact absurd (Option.some.inj latest) typed
    · intro invocation member latest
      exact absurd latest (unanswered invocation member)
  · constructor
    · intro _
      rfl
    · intro invocation member latest
      exact absurd latest (unanswered invocation member)

theorem respond_shows {app : App client} {task : DataTask tmdb Nat}
    {tasks : List (DataTask tmdb Nat)} {response : Response tmdb} (shows : ShowsLatest app) :
    ShowsLatest (app.respond task tasks response) := by
  have screen := respond_screen app task tasks response
  constructor
  · rw [screen]
    exact shows.cleared
  · intro invocation member latest responce delivered
    rw [Latest, screen] at latest
    rw [screen]
    rcases respond_invoked _ task response member with earlier | ⟨_, none⟩
    · exact shows.found invocation earlier latest responce delivered
    · rw [none] at delivered
      contradiction

theorem runBlock_shows {app : App client} {id : Nat} {block : Block tmdb Nat}
    {mainQueue : List (Block tmdb Nat)} (numbered : Numbered app) (shows : ShowsLatest app)
    (inOrder : NotOvertaken app (.runBlock id))
    (taken : Pool.take? (·.id == id) app.service.mainQueue = some (block, mainQueue)) :
    ShowsLatest (app.runBlock block mainQueue) := by
  obtain ⟨cleared, found⟩ := runBlock_keeps numbered shows inOrder taken
  have searches : (app.runBlock block mainQueue).screen.searches = app.screen.searches :=
    complete_searches app.screen block.completion (some block.value)
  constructor
  · rw [searches]
    exact cleared
  · intro invocation member latest responce delivered
    rw [Latest, searches] at latest
    rcases List.mem_append.mp member with earlier | new
    · exact found invocation earlier latest responce delivered
    · obtain rfl := List.mem_singleton.mp new
      exact complete_movies block.completion delivered

theorem step_shows {app next : App client} {e : Event client} (numbered : Numbered app)
    (shows : ShowsLatest app) (inOrder : NotOvertaken app e)
    (step : (machine client).step app e = some next) : ShowsLatest next := by
  cases e with
  | act a =>
    obtain ⟨screen, requests, acted, rfl⟩ := step_act step
    exact act_shows numbered shows acted
  | respond id response =>
    obtain ⟨task, tasks, -, rfl⟩ := step_respond step
    exact respond_shows shows
  | runBlock id =>
    obtain ⟨block, mainQueue, taken, rfl⟩ := step_runBlock step
    exact runBlock_shows numbered shows inOrder taken

/-- In every run that never delivers an overtaken reply, the list is always that of
the latest search: empty for an empty text, else its own results from their delivery on. -/
theorem shows_latest {cache : URL → Option tmdb.Any} {events : List (Event client)} {app : App client}
    (run : (machine client).run ⟨.start cache, .start⟩ events = some app)
    (inOrder : (machine client).Along NotOvertaken ⟨.start cache, .start⟩ events) :
    ShowsLatest app := by
  have initial : Numbered (⟨.start cache, .start⟩ : App client) ∧
      ShowsLatest (⟨.start cache, .start⟩ : App client) :=
    ⟨⟨start_accounted cache, List.nodup_nil, fun _ member => nomatch member⟩,
      ⟨nofun, fun _ member => nomatch member⟩⟩
  have final := Transition.Machine.run_invariant_along
    (P := fun app : App client => Numbered app ∧ ShowsLatest app)
    (fun inv inOrder step => ⟨step_numbered inv.1 step, step_shows inv.1 inv.2 inOrder step⟩)
    run inOrder initial
  exact final.2

/-- A list with one movie. -/
def heat : tmdb.Body := some (.object [("results", .array [movieJSON 949 "Heat"])])

/-- A search that is answered, then another one that the cache answers. -/
def heatTwice : List (Event client) :=
  [.act (.textDidChange "Hea"), .act (.textDidChange "Heat"), .act .timerFires, .respond 0 (.data heat),
    .runBlock 0, .act (.textDidChange "Heat"), .act .timerFires, .runBlock 1]

theorem shows_latest_heat : ∃ app,
    (machine client).run ⟨.start fun _ => none, .start⟩ heatTwice = some app ∧
    app.screen.movies.map MovieInfo.title = [some "Heat"] ∧ ShowsLatest app := by
  obtain ⟨app, run, titles⟩ : ∃ app,
      (machine client).run ⟨.start fun _ => none, .start⟩ heatTwice = some app ∧
      app.screen.movies.map MovieInfo.title = [some "Heat"] := ⟨_, rfl, rfl⟩
  have inOrder : (machine client).Along NotOvertaken ⟨.start fun _ => none, .start⟩ heatTwice := by
    refine ⟨trivial, trivial, trivial, trivial, ?_, trivial, trivial, ?_, trivial⟩
    all_goals
      intro block found
      cases found
      exact Or.inl rfl
  exact ⟨app, run, titles, shows_latest run inOrder⟩

/-- The field is cleared while the request for its text is in flight. -/
theorem overtaken_reply_shown : ∃ app,
    (machine client).run ⟨.start fun _ => none, .start⟩
      [.act (.textDidChange "Heat"), .act .timerFires, .act (.textDidChange ""), .act .timerFires,
        .respond 0 (.data heat), .runBlock 0] = some app ∧
    app.screen.timer = none ∧ app.service.tasks = [] ∧ app.service.mainQueue = [] ∧
    app.screen.searches.getLast? = some "" ∧
    app.screen.movies.map MovieInfo.title = [some "Heat"] ∧ ¬ ShowsLatest app := by
  refine ⟨_, rfl, rfl, rfl, rfl, rfl, rfl, ?_⟩
  intro shows
  have emptied := shows.cleared rfl
  contradiction

end MoviesApp.Search
