import MoviesApp.Services.Ledger
import MoviesApp.Services.TMDB

/-! Which calls of `load` complete as their callers expect. The exits on record are
exactly those the answers prescribe, so the outcome of a settled call can be read
off its URL and the answers its task received. -/
namespace MoviesApp.NetworkService
variable {codec : Codec} {K : Type} {client : Client codec K}

/-- Nothing of the call is outstanding. -/
def State.Settled (s : State codec K) (id : Nat) : Prop := s.tasksOf id = [] ∧ s.blocksOf id = []

/-- The contract of one call: a single invocation, on the main queue, with a value and no
error when the body decoded or was cached, with an error and no value otherwise. -/
def Completed (s : State codec K) (id : Nat) (request : Request codec K) : Prop :=
  ∃ exit invocation, s.exitsOf id = [(id, exit)] ∧ s.invokedOf id = [invocation] ∧
    invocation.completion = request.completion ∧ invocation.queue = .main ∧
    (exit.delivers → invocation.error = none ∧
      ∃ value : codec.Value request.model, invocation.value = some ⟨request.model, value⟩) ∧
    (¬ exit.delivers → invocation.value = none ∧ invocation.error.isSome)

/-- The exit an answer makes the callback take. -/
def exitFor (model : codec.Model) : Response codec → Exit
  | .failure _ => .transport
  | .data body => if (codec.decode model body).isSome then .decoded else .undecodable

theorem exitFor_decoded {model : codec.Model} {response : Response codec} :
    exitFor model response = .decoded ↔ response.Decodes model := by
  cases response with
  | failure error => simp only [exitFor, Response.Decodes, reduceCtorEq]
  | data body =>
    unfold exitFor Response.Decodes
    dsimp only
    split <;> simp_all

theorem exitFor_answered (model : codec.Model) (response : Response codec) :
    exitFor model response ≠ .urlAbsent ∧ exitFor model response ≠ .cacheHit := by
  cases response with
  | failure error => exact ⟨nofun, nofun⟩
  | data body =>
    unfold exitFor
    dsimp only
    split <;> exact ⟨nofun, nofun⟩

theorem respond_exits (s : State codec K) (task : DataTask codec K) (response : Response codec) :
    (respond s task response).exits = s.exits ++ [(task.id, exitFor task.model response)] := by
  obtain ⟨_, rfl, shape⟩ | ⟨_, _, rfl, decoded, shape⟩ | ⟨_, rfl, decoded, shape⟩ :=
    respond_cases s task response
  · rw [shape, exitFor]
  · rw [shape, exitFor, decoded]
    rfl
  · rw [shape, exitFor, decoded]
    rfl

theorem load_exits (s : State codec K) (request : Request codec K) {id : Nat} {exit : Exit}
    (answered : exit ≠ .urlAbsent ∧ exit ≠ .cacheHit) :
    (id, exit) ∈ (load s request).exits ↔ (id, exit) ∈ s.exits := by
  obtain ⟨_, shape⟩ | ⟨_, _, _, _, shape⟩ | ⟨_, _, _, shape⟩ := load_cases s request
  · rw [shape]
    simp only [List.mem_append, List.mem_singleton, Prod.mk.injEq, answered.1, and_false, or_false]
  · rw [shape]
    simp only [List.mem_append, List.mem_singleton, Prod.mk.injEq, answered.2, and_false, or_false]
  · rw [shape]

theorem step_calls {app next : App client} {e : Event client}
    (step : (machine client).step app e = some next) : app.service.calls <+: next.service.calls := by
  cases e with
  | act a =>
    obtain ⟨screen, requests, -, rfl⟩ := step_act step
    apply foldl_load_invariant (P := fun t => app.service.calls <+: t.calls)
    · intro s request before
      rw [load_calls]
      exact before.trans (List.prefix_append _ _)
    · exact List.prefix_refl _
  | respond id response =>
    obtain ⟨task, tasks, -, rfl⟩ := step_respond step
    exact (respond_calls _ task response).symm ▸ List.prefix_refl _
  | runBlock id =>
    obtain ⟨block, mainQueue, -, rfl⟩ := step_runBlock step
    exact List.prefix_refl _

theorem run_calls {app next : App client} {events : List (Event client)}
    (run : (machine client).run app events = some next) : app.service.calls <+: next.service.calls :=
  Transition.Machine.run_monotone (R := fun s t : App client => s.service.calls <+: t.service.calls)
    (fun _ => List.prefix_refl _) List.IsPrefix.trans step_calls run

/-- An exit behind an answer is recorded by that answer alone. -/
theorem step_exits {app next : App client} {e : Event client} {id : Nat} {request : Request codec K}
    {exit : Exit} (accounted : Accounted app.service)
    (called : ∀ other, app.service.calls[id]? = some other → other = request)
    (answered : exit ≠ .urlAbsent ∧ exit ≠ .cacheHit)
    (step : (machine client).step app e = some next) :
    (id, exit) ∈ next.service.exits ↔ (id, exit) ∈ app.service.exits ∨
      ∃ response, e = .respond id response ∧ exitFor request.model response = exit := by
  cases e with
  | act a =>
    obtain ⟨screen, requests, -, rfl⟩ := step_act step
    have kept : (id, exit) ∈ (requests.foldl load app.service).exits ↔
        (id, exit) ∈ app.service.exits :=
      foldl_load_invariant (P := fun t => (id, exit) ∈ t.exits ↔ (id, exit) ∈ app.service.exits)
        (fun s request same => (load_exits s request answered).trans same) requests Iff.rfl
    simp only [kept, reduceCtorEq, false_and, exists_false, or_false]
  | respond taken response =>
    obtain ⟨task, tasks, took, rfl⟩ := step_respond step
    obtain rfl : task.id = taken := Pool.take?_key took
    obtain ⟨asked, url, found, -, shape, -⟩ := accounted.task_waiting (Pool.take?_mem took)
    have record : (app.respond task tasks response).service.exits =
        app.service.exits ++ [(task.id, exitFor task.model response)] := respond_exits _ task response
    rw [record, List.mem_append, List.mem_singleton, Prod.mk.injEq]
    apply or_congr Iff.rfl
    constructor
    · rintro ⟨rfl, rfl⟩
      rw [← called asked found]
      exact ⟨response, rfl, by rw [shape]⟩
    · rintro ⟨other, same, rfl⟩
      cases same
      rw [← called asked found, shape]
      exact ⟨rfl, rfl⟩
  | runBlock block =>
    obtain ⟨block, mainQueue, -, rfl⟩ := step_runBlock step
    simp only [reduceCtorEq, false_and, exists_false, or_false]
    exact Iff.rfl

theorem run_exits {app next : App client} {events : List (Event client)} {id : Nat}
    {request : Request codec K} {exit : Exit} (accounted : Accounted app.service)
    (run : (machine client).run app events = some next)
    (called : next.service.calls[id]? = some request)
    (answered : exit ≠ .urlAbsent ∧ exit ≠ .cacheHit) :
    (id, exit) ∈ next.service.exits ↔ (id, exit) ∈ app.service.exits ∨
      ∃ response, .respond id response ∈ events ∧ exitFor request.model response = exit := by
  induction events generalizing app with
  | nil =>
    cases run
    simp only [List.not_mem_nil, false_and, exists_false, or_false]
  | cons e rest ih =>
    have calledFrom : ∀ other, app.service.calls[id]? = some other → other = request := by
      intro other found
      obtain ⟨later, calls⟩ := run_calls run
      obtain ⟨made, -⟩ := List.getElem?_eq_some_iff.mp found
      rw [← calls, List.getElem?_append_left made, found] at called
      exact Option.some.inj called
    obtain ⟨middle, step, tail⟩ := Transition.Machine.run_cons.mp run
    rw [ih (step_accounted accounted step) tail, step_exits accounted calledFrom answered step]
    simp only [List.mem_cons, or_and_right, exists_or, or_assoc, eq_comm]

/-- A settled call has kept its contract exactly when its URL was there and every
answer to it decoded. A call without URL and one with an undecodable body never
complete, and a transport failure completes on the session's queue. -/
theorem completed_iff {cache : URL → Option codec.Any} {screen : client.State}
    {events : List (Event client)} {app : App client} {id : Nat} {request : Request codec K}
    (run : (machine client).run ⟨.start cache, screen⟩ events = some app)
    (called : app.service.calls[id]? = some request) (settled : app.service.Settled id) :
    Completed app.service id request ↔ request.url.isSome ∧
      ∀ response, .respond id response ∈ events → response.Decodes request.model := by
  have recorded {exit : Exit} (answered : exit ≠ .urlAbsent ∧ exit ≠ .cacheHit) :=
    run_exits (start_accounted cache) run called answered
  have exits_mem {exit : Exit} : (id, exit) ∈ app.service.exits ↔
      (id, exit) ∈ app.service.exitsOf id := by
    simp [State.exitsOf]
  have undecoded {exit : Exit} (answered : exit ≠ .urlAbsent ∧ exit ≠ .cacheHit)
      (exits : app.service.exitsOf id = [(id, exit)]) (failed : exit ≠ .decoded) :
      ¬ ∀ response, .respond id response ∈ events → response.Decodes request.model := by
    intro decodes
    have listed : (id, exit) ∈ app.service.exits :=
      exits_mem.mpr (exits ▸ List.mem_singleton_self _)
    rcases (recorded answered).mp listed with absent | ⟨response, answer, rfl⟩
    · cases absent
    · exact failed (exitFor_decoded.mpr (decodes response answer))
  cases (run_accounted run).standing id request called with
  | waiting url present task => rw [settled.1] at task; contradiction
  | queued value exit delivers present task block => rw [settled.2] at block; contradiction
  | delivered value exit delivers present task block exits invoked =>
    constructor
    · intro _
      refine ⟨present, fun response answer => ?_⟩
      have answered := exitFor_answered request.model response
      have listed := exits_mem.mp ((recorded answered).mpr (Or.inr ⟨response, answer, rfl⟩))
      rw [exits, List.mem_singleton, Prod.mk.injEq] at listed
      rcases delivers with hit | decoded
      · exact absurd (listed.2.trans hit) answered.2
      · exact exitFor_decoded.mp (listed.2.trans decoded)
    · intro _
      exact ⟨exit, _, exits, invoked, rfl, rfl, fun _ => ⟨rfl, value, rfl⟩,
        fun silent => absurd delivers silent⟩
  | failed error task block exits invoked =>
    constructor
    · rintro ⟨_, invocation, _, once, _, main, _⟩
      rw [invoked] at once
      cases once
      cases main
    · rintro ⟨_, decodes⟩
      exact absurd decodes (undecoded (by decide) exits (by decide))
  | dropped exit silent task block exits invoked =>
    constructor
    · rintro ⟨_, _, _, once, _⟩
      rw [invoked] at once
      contradiction
    · rintro ⟨present, decodes⟩
      rcases silent with ⟨_, absent⟩ | rfl
      · rw [absent] at present
        contradiction
      · exact absurd decodes (undecoded (by decide) exits (by decide))

/-- Callers that issue any loads at any time and ignore what is delivered. -/
def callers (codec : Codec) : Client codec Unit where
  State := Unit
  Action := List (Request codec Unit)
  act _ requests := some ((), requests)
  complete _ _ _ := ()

def searchURL : URL := ⟨"https://api.themoviedb.org/3/search/movie?query=Heat", by decide⟩

def search : Request tmdb Unit := ⟨some searchURL, .movies, ()⟩

/-- An empty list of results, asked for over the network and then from the cache. -/
def searchTwice : List (Event (callers tmdb)) :=
  [.act [search], .respond 0 (.data (some (.object [("results", .array [])]))), .runBlock 0,
    .act [search], .runBlock 1]

theorem completed_search_twice : ∃ app,
    (machine (callers tmdb)).run ⟨.start fun _ => none, ()⟩ searchTwice = some app ∧
    Completed app.service 0 search ∧ Completed app.service 1 search := by
  obtain ⟨app, run, first, second, settled⟩ : ∃ app,
      (machine (callers tmdb)).run ⟨.start fun _ => none, ()⟩ searchTwice = some app ∧
      app.service.calls[0]? = some search ∧ app.service.calls[1]? = some search ∧
      app.service.Settled 0 ∧ app.service.Settled 1 :=
    ⟨_, rfl, rfl, rfl, ⟨rfl, rfl⟩, ⟨rfl, rfl⟩⟩
  refine ⟨app, run, (completed_iff run first settled.1).mpr ⟨rfl, ?_⟩,
    (completed_iff run second settled.2).mpr ⟨rfl, ?_⟩⟩
  · intro response answer
    simp only [searchTwice, List.mem_cons, Event.respond.injEq, reduceCtorEq, List.not_mem_nil,
      true_and, false_or, or_false] at answer
    subst answer
    rfl
  · intro response answer
    simp [searchTwice] at answer

/-- Three calls that break the contract: one without URL, one whose body is no JSON,
and one that fails in transport. -/
theorem calls_without_completion : ∃ app,
    (machine (callers tmdb)).run ⟨.start fun _ => none, ()⟩
      [.act [⟨none, .movies, ()⟩, search, search], .respond 1 (.data none),
        .respond 2 (.failure ⟨-1009⟩)] = some app ∧
    app.service.calls = [⟨none, .movies, ()⟩, search, search] ∧
    (∀ id, app.service.Settled id) ∧ app.service.invokedOf 0 = [] ∧ app.service.invokedOf 1 = [] ∧
    ¬ Completed app.service 0 ⟨none, .movies, ()⟩ ∧ ¬ Completed app.service 1 search ∧
    ¬ Completed app.service 2 search := by
  refine ⟨_, rfl, rfl, fun _ => ⟨rfl, rfl⟩, rfl, rfl, ?_, ?_, ?_⟩
  · rintro ⟨_, _, _, once, _⟩
    cases once
  · rintro ⟨_, _, _, once, _⟩
    cases once
  · rintro ⟨_, _, _, once, _, main, _⟩
    cases once
    cases main

end MoviesApp.NetworkService
