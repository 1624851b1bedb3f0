import MoviesApp.Services.Cache
import MoviesApp.Services.Completions

/-! The service without a cache, and the refinement of it by the cached one. A
lookup there always fails, so a cache hit is matched by a task that the server
answers as soon as the code that issued the load is through. -/
namespace MoviesApp.NetworkService
variable {codec : Codec} {K : Type} {client : Client codec K}

def State.withoutCache (s : State codec K) : State codec K := { s with cache := fun _ => none }

def App.withoutCache (app : App client) : App client := { app with service := app.service.withoutCache }

/-- The same app over a service that keeps nothing. -/
def uncached (client : Client codec K) : Transition.Machine (App client) (Event client) :=
  ⟨fun app e => (app.withoutCache.step e).map App.withoutCache⟩

/-- A task the cached service never started, with the value it found instead. -/
structure Hit (K : Type) (server : URL → codec.Body) where
  task : DataTask codec K
  result : codec.Value task.model
  decoded : codec.decode task.model (server task.url) = some result

variable {server : URL → codec.Body} {s u : State codec K} {hits : List (Hit K server)}

def Hit.block (hit : Hit K server) : Block codec K :=
  ⟨hit.task.id, hit.task.completion, ⟨hit.task.model, hit.result⟩⟩

/-- The uncached service `u` still has to answer the hits of the cached one. The exits
are not compared: they tell a hit from an answer. -/
structure Lags (hits : List (Hit K server)) (s u : State codec K) : Prop where
  tasks : u.tasks.Perm (s.tasks ++ hits.map Hit.task)
  mainQueue : s.mainQueue = u.mainQueue ++ hits.map Hit.block
  calls : u.calls = s.calls
  invoked : u.invoked = s.invoked
  cache : u.cache = fun _ => none

theorem load_lags (request : Request codec K) (sound : Sound server s) (lags : Lags hits s u) :
    ∃ more : List (Hit K server), Lags more (load s request) (load u request) := by
  have misses {url : URL} : (u.cache url).bind (codec.cast? request.model) = none := by
    rw [lags.cache]
    rfl
  obtain ⟨absent, uncachedStep⟩ | ⟨_, _, _, hit, _⟩ | ⟨url, present, -, uncachedStep⟩ :=
    load_cases u request
  · obtain ⟨-, step⟩ | ⟨_, _, present, _⟩ | ⟨_, present, _⟩ := load_cases s request
    · rw [step, uncachedStep]
      exact ⟨hits, lags.tasks, lags.mainQueue, congrArg (· ++ [request]) lags.calls, lags.invoked,
        lags.cache⟩
    · rw [absent] at present
      contradiction
    · rw [absent] at present
      contradiction
  · rw [misses] at hit
    contradiction
  · obtain ⟨absent, -⟩ | ⟨other, result, same, hit, step⟩ | ⟨other, same, -, step⟩ :=
      load_cases s request
    · rw [absent] at present
      contradiction
    · obtain rfl : url = other := Option.some.inj (present.symm.trans same)
      let found : Hit K server :=
        ⟨⟨s.calls.length, url, request.model, request.completion⟩, result, sound.hit hit⟩
      rw [step, uncachedStep]
      refine ⟨hits ++ [found], ?_, ?_, congrArg (· ++ [request]) lags.calls, lags.invoked, lags.cache⟩
      · rw [List.map_append, ← List.append_assoc, lags.calls]
        exact lags.tasks.append_right _
      · rw [List.map_append, ← List.append_assoc, ← lags.mainQueue]
        rfl
    · obtain rfl : url = other := Option.some.inj (present.symm.trans same)
      rw [step, uncachedStep, lags.calls]
      refine ⟨hits, (lags.tasks.append_right _).trans ?_, lags.mainQueue, rfl, lags.invoked,
        lags.cache⟩
      simp only [List.append_assoc]
      exact List.perm_append_comm.append_left _

theorem loads_lag (requests : List (Request codec K)) (sound : Sound server s) (lags : Lags hits s u) :
    ∃ more : List (Hit K server), Lags more (requests.foldl load s) (requests.foldl load u) := by
  induction requests generalizing s u hits with
  | nil => exact ⟨hits, lags⟩
  | cons request rest ih =>
    obtain ⟨more, lagging⟩ := load_lags request sound lags
    exact ih (load_sound request sound) lagging

theorem withoutCache_of_empty (empty : s.cache = fun _ => none) : s.withoutCache = s := by
  obtain ⟨cache, tasks, mainQueue, calls, exits, invoked⟩ := s
  cases empty
  rfl

theorem Accounted.withoutCache (accounted : Accounted s) : Accounted s.withoutCache :=
  ⟨fun id request found => (accounted.standing id request found).congr rfl rfl rfl rfl,
    accounted.fresh⟩

theorem Accounted.take_task (accounted : Accounted s) {task : DataTask codec K}
    (member : task ∈ s.tasks) :
    ∃ left, Pool.take? (·.id == task.id) s.tasks = some (task, left) := by
  obtain ⟨_, _, _, _, _, only, _⟩ := accounted.task_waiting member
  exact Pool.take?_of_filter only

theorem uncached_respond {u : App client} {task : DataTask codec K} {left : List (DataTask codec K)}
    {response : Response codec} (empty : u.service.cache = fun _ => none)
    (taken : Pool.take? (·.id == task.id) u.service.tasks = some (task, left)) :
    (uncached client).step u (.respond task.id response) =
      some (u.respond task left response).withoutCache := by
  have same : u.withoutCache = u := by rw [App.withoutCache, withoutCache_of_empty empty]
  simp only [uncached, same, App.step, taken, Option.map_some]

/-- The server's answer to one overdue task delivers what the cache had delivered. -/
theorem answer_hit {u : App client} {hit : Hit K server} (accounted : Accounted u.service)
    (lags : Lags (hit :: hits) s u.service) :
    ∃ v, (uncached client).step u (.respond hit.task.id (.data (server hit.task.url))) = some v ∧
      ServedBy server u (.respond hit.task.id (.data (server hit.task.url)) : Event client) ∧
      v.screen = u.screen ∧ Accounted v.service ∧ Lags hits s v.service := by
  have member : hit.task ∈ u.service.tasks := by
    rw [lags.tasks.mem_iff]
    simp only [List.map_cons, List.mem_append, List.mem_cons, true_or, or_true]
  obtain ⟨left, taken⟩ := accounted.take_task member
  refine ⟨_, uncached_respond lags.cache taken, ?_, rfl, ?_, ?_⟩
  · exact servedBy_respond.mpr ((served_data taken).mpr rfl)
  · exact (respond_accounted accounted taken).withoutCache
  · have perm : left.Perm (s.tasks ++ hits.map Hit.task) := by
      apply List.Perm.cons_inv (a := hit.task)
      exact (Pool.take?_perm taken).symm.trans (lags.tasks.trans List.perm_middle)
    simp only [App.respond, App.withoutCache, respond_decoded hit.decoded]
    refine ⟨perm, ?_, lags.calls, lags.invoked, rfl⟩
    rw [lags.mainQueue, List.map_cons]
    exact List.append_cons ..

theorem answer_hits {u : App client} (accounted : Accounted u.service) (lags : Lags hits s u.service) :
    ∃ answers v, (uncached client).run u answers = some v ∧
      (uncached client).Along (ServedBy server) u answers ∧ v.screen = u.screen ∧
      Accounted v.service ∧ Lags ([] : List (Hit K server)) s v.service := by
  induction hits generalizing u with
  | nil => exact ⟨[], u, rfl, trivial, rfl, accounted, lags⟩
  | cons hit rest ih =>
    obtain ⟨v, step, served, screen, accounted, lagging⟩ := answer_hit accounted lags
    obtain ⟨answers, w, run, along, same, accounted, done⟩ := ih accounted lagging
    exact ⟨_ :: answers, w, Transition.Machine.run_cons.mpr ⟨v, step, run⟩,
      (Transition.Machine.along_cons step).mpr ⟨served, along⟩, same.trans screen, accounted, done⟩

/-- The cached app and the uncached one, level with each other. -/
structure Level (server : URL → codec.Body) (app u : App client) : Prop where
  accounted : Accounted app.service
  sound : Sound server app.service
  uncachedAccounted : Accounted u.service
  lags : Lags ([] : List (Hit K server)) app.service u.service
  screen : u.screen = app.screen

theorem Level.withoutCache {app u : App client} (level : Level server app u) : u.withoutCache = u := by
  rw [App.withoutCache, withoutCache_of_empty level.lags.cache]

theorem level_act {app next u : App client} {a : client.Action} (level : Level server app u)
    (step : (machine client).step app (.act a) = some next) :
    ∃ answer v, (uncached client).run u answer = some v ∧
      (uncached client).Along (ServedBy server) u answer ∧ Level server next v := by
  obtain ⟨screen, requests, acted, rfl⟩ := step_act step
  obtain ⟨hits, lags⟩ := loads_lag requests level.sound level.lags
  have called : (uncached client).step u (.act a) =
      some ⟨requests.foldl load u.service, screen⟩ := by
    simp only [uncached, level.withoutCache, App.step, level.screen, acted, Option.map_some]
    exact congrArg some (by rw [App.withoutCache, withoutCache_of_empty lags.cache])
  have accounted : Accounted (requests.foldl load u.service) :=
    foldl_load_invariant load_accounted requests level.uncachedAccounted
  obtain ⟨answers, v, run, along, same, final, done⟩ :=
    answer_hits (u := (⟨requests.foldl load u.service, screen⟩ : App client)) accounted lags
  have next := step_sound ⟨level.accounted, level.sound⟩ (e := .act a) nofun step
  exact ⟨.act a :: answers, v, Transition.Machine.run_cons.mpr ⟨_, called, run⟩,
    (Transition.Machine.along_cons called).mpr ⟨nofun, along⟩, next.1, next.2, final, done, same⟩

theorem respond_lags {task : DataTask codec K} (response : Response codec)
    (lags : Lags ([] : List (Hit K server)) s u) :
    Lags ([] : List (Hit K server)) (respond s task response)
      (respond u task response).withoutCache := by
  have queue : s.mainQueue = u.mainQueue := lags.mainQueue.trans (List.append_nil _)
  cases response with
  | failure error =>
    exact ⟨lags.tasks, lags.mainQueue, lags.calls, congrArg (· ++ _) lags.invoked, rfl⟩
  | data body =>
    cases decoded : codec.decode task.model body with
    | some result =>
      rw [respond_decoded decoded, respond_decoded decoded]
      refine ⟨lags.tasks, ?_, lags.calls, lags.invoked, rfl⟩
      exact (congrArg (· ++ _) queue).trans (List.append_nil _).symm
    | none =>
      simp only [respond, decoded]
      exact ⟨lags.tasks, lags.mainQueue, lags.calls, lags.invoked, rfl⟩

theorem level_respond {app next u : App client} {id : Nat} {response : Response codec}
    (level : Level server app u)
    (served : ServedBy server app (.respond id response : Event client))
    (step : (machine client).step app (.respond id response) = some next) :
    ∃ answer v, (uncached client).run u answer = some v ∧
      (uncached client).Along (ServedBy server) u answer ∧ Level server next v := by
  have sound := step_sound ⟨level.accounted, level.sound⟩ served step
  obtain ⟨task, tasks, taken, rfl⟩ := step_respond step
  obtain rfl : task.id = id := Pool.take?_key taken
  have member : task ∈ u.service.tasks := by
    rw [level.lags.tasks.mem_iff, List.map_nil, List.append_nil]
    exact Pool.take?_mem taken
  obtain ⟨left, found⟩ := level.uncachedAccounted.take_task member
  have answered : (uncached client).step u (.respond task.id response) =
      some (u.respond task left response).withoutCache := uncached_respond level.lags.cache found
  have perm : left.Perm (tasks ++ ([] : List (Hit K server)).map Hit.task) := by
    apply List.Perm.cons_inv (a := task)
    have before := level.lags.tasks
    rw [List.map_nil, List.append_nil] at before ⊢
    exact (Pool.take?_perm found).symm.trans (before.trans (Pool.take?_perm taken))
  have lags : Lags ([] : List (Hit K server)) { app.service with tasks := tasks }
      { u.service with tasks := left } :=
    ⟨perm, level.lags.mainQueue, level.lags.calls, level.lags.invoked, level.lags.cache⟩
  have shared : Served server u.service task.id response := by
    have own := servedBy_respond.mp served
    cases response with
    | failure error => trivial
    | data body => exact (served_data found).mpr ((served_data taken).mp own)
  refine ⟨[.respond task.id response], _, Transition.Machine.run_cons.mpr ⟨_, answered, rfl⟩,
    (Transition.Machine.along_cons answered).mpr ⟨servedBy_respond.mpr shared, trivial⟩,
    sound.1, sound.2, (respond_accounted level.uncachedAccounted found).withoutCache,
    respond_lags response lags, ?_⟩
  cases response with
  | failure error => exact congrArg (client.complete · task.completion none) level.screen
  | data body => exact level.screen

theorem level_runBlock {app next u : App client} {id : Nat} (level : Level server app u)
    (step : (machine client).step app (.runBlock id) = some next) :
    ∃ answer v, (uncached client).run u answer = some v ∧
      (uncached client).Along (ServedBy server) u answer ∧ Level server next v := by
  have sound := step_sound (e := .runBlock id) ⟨level.accounted, level.sound⟩ nofun step
  obtain ⟨block, mainQueue, taken, rfl⟩ := step_runBlock step
  have queue : u.service.mainQueue = app.service.mainQueue :=
    (level.lags.mainQueue.trans (List.append_nil _)).symm
  have found : Pool.take? (·.id == id) u.service.mainQueue = some (block, mainQueue) := by
    rw [queue, taken]
  have called : (uncached client).step u (.runBlock id) = some (u.runBlock block mainQueue).withoutCache := by
    simp only [uncached, level.withoutCache, App.step, found, Option.map_some]
  refine ⟨[.runBlock id], _, Transition.Machine.run_cons.mpr ⟨_, called, rfl⟩,
    (Transition.Machine.along_cons called).mpr ⟨nofun, trivial⟩, sound.1, sound.2,
    (runBlock_accounted level.uncachedAccounted found).withoutCache, ?_, ?_⟩
  · exact ⟨level.lags.tasks, (List.append_nil _).symm, level.lags.calls,
      congrArg (· ++ [block.invocation]) level.lags.invoked, rfl⟩
  · exact congrArg (client.complete · block.completion (some block.value)) level.screen

theorem level_step {app next u : App client} {e : Event client} (level : Level server app u)
    (served : ServedBy server app e) (step : (machine client).step app e = some next) :
    ∃ answer v, (uncached client).run u answer = some v ∧
      (uncached client).Along (ServedBy server) u answer ∧ Level server next v := by
  cases e with
  | act a => exact level_act level step
  | respond id response => exact level_respond level served step
  | runBlock id => exact level_runBlock level step

theorem level_start (screen : client.State) :
    Level server (⟨.empty, screen⟩ : App client) ⟨.empty, screen⟩ :=
  ⟨start_accounted _, empty_sound, start_accounted _, ⟨.refl _, rfl, rfl, rfl, rfl⟩, rfl⟩

/-- The cached service refines the uncached one. Against a fixed server every value a
completion receives is the decoded body of its own call, so is every cache entry, a load
that fails leaves the cache alone, and some run without a cache invokes the same
completions with the same arguments and leaves the screens the same. -/
theorem cache_transparent {screen : client.State} {events : List (Event client)} {app : App client}
    (run : (machine client).run ⟨.empty, screen⟩ events = some app)
    (served : (machine client).Along (ServedBy server) ⟨.empty, screen⟩ events) :
    (∀ invocation ∈ app.service.invoked, ∀ value, invocation.value = some value →
      DueTo server app.service.calls invocation.id invocation.completion value) ∧
    (∀ url entry, app.service.cache url = some entry →
      codec.decode entry.1 (server url) = some entry.2) ∧
    (∀ id response next, (machine client).step app (.respond id response) = some next →
      (∀ task ∈ app.service.tasks, task.id = id → ¬ response.Decodes task.model) →
      next.service.cache = app.service.cache) ∧
    ∃ answers u, (uncached client).run ⟨.empty, screen⟩ answers = some u ∧
      (uncached client).Along (ServedBy server) ⟨.empty, screen⟩ answers ∧
      u.service.calls = app.service.calls ∧ u.service.invoked = app.service.invoked ∧
      u.screen = app.screen := by
  obtain ⟨answers, u, uncachedRun, along, level⟩ :=
    Transition.Machine.run_simulation level_step run served (level_start screen)
  refine ⟨level.sound.delivered, level.sound.cached, ?_, answers, u, uncachedRun, along,
    level.lags.calls, level.lags.invoked, level.screen⟩
  intro id response next step fails
  obtain ⟨task, tasks, taken, rfl⟩ := step_respond step
  exact respond_cache (fails task (Pool.take?_mem taken) (Pool.take?_key taken))

/-- A server without movies. -/
def noResults : URL → tmdb.Body := fun _ => some (.object [("results", .array [])])

/-- One URL asked for as two models: the movies are answered, then served from the
cache, the genres do not decode. -/
def searchAsTwoModels : List (Event (callers tmdb)) :=
  [.act [search, ⟨some searchURL, .genres, ()⟩], .respond 0 (.data (noResults searchURL)),
    .act [search], .respond 1 (.data (noResults searchURL)), .runBlock 2, .runBlock 0]

theorem cache_transparent_two_models : ∃ app,
    (machine (callers tmdb)).run ⟨.empty, ()⟩ searchAsTwoModels = some app ∧
    app.service.invoked.map Invocation.id = [2, 0] ∧
    ∀ invocation ∈ app.service.invoked, ∀ value, invocation.value = some value →
      DueTo noResults app.service.calls invocation.id invocation.completion value := by
  obtain ⟨app, run, invoked⟩ : ∃ app,
      (machine (callers tmdb)).run ⟨.empty, ()⟩ searchAsTwoModels = some app ∧
      app.service.invoked.map Invocation.id = [2, 0] := ⟨_, rfl, rfl⟩
  have served : (machine (callers tmdb)).Along (ServedBy noResults) ⟨.empty, ()⟩ searchAsTwoModels :=
    ⟨nofun, servedBy_respond.mpr ((served_data rfl).mpr rfl), nofun,
      servedBy_respond.mpr ((served_data rfl).mpr rfl), nofun, nofun, trivial⟩
  exact ⟨app, run, invoked, (cache_transparent run served).1⟩

end MoviesApp.NetworkService
