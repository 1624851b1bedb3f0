import MoviesApp.Services.Cache

/-! Failures. An answer with an error or with a body that does not decode only takes its task
away. To clients that do nothing without a value it looks as if the answer were yet to come. -/
namespace MoviesApp.NetworkService
variable {codec : Codec} {K : Type} {client : Client codec K}

/-- The answer, if it is one, decodes. -/
def Succeeds (app : App client) (e : Event client) : Prop :=
  ∀ id response, e = .respond id response → ∀ task ∈ app.service.tasks, task.id = id →
    response.Decodes task.model

/-- In `u` the failed tasks of `s` are still waiting; there is no other difference, but for the
exits and the invocations with an error. -/
structure Spared (failed : List (DataTask codec K)) (s u : State codec K) : Prop where
  tasks : u.tasks.Perm (s.tasks ++ failed)
  cache : u.cache = s.cache
  calls : u.calls = s.calls
  mainQueue : u.mainQueue = s.mainQueue
  invoked : u.invoked = s.invoked.filter (·.value.isSome)

structure Unfailing (app u : App client) : Prop where
  accounted : Accounted u.service
  spared : ∃ failed, Spared failed app.service u.service
  screen : u.screen = app.screen

variable {s u : State codec K} {failed : List (DataTask codec K)}

theorem load_spared (request : Request codec K) (spared : Spared failed s u) :
    Spared failed (load s request) (load u request) := by
  have calls : u.calls ++ [request] = s.calls ++ [request] := congrArg (· ++ _) spared.calls
  obtain ⟨absent, shape⟩ | ⟨url, result, present, hit, shape⟩ | ⟨url, present, miss, shape⟩ :=
    load_cases s request
  · have same : load u request = { u with
        calls := u.calls ++ [request]
        exits := u.exits ++ [(u.calls.length, .urlAbsent)] } := by simp only [load, absent]
    rw [shape, same]
    exact ⟨spared.tasks, spared.cache, calls, spared.mainQueue, spared.invoked⟩
  · have same : load u request = { u with
        calls := u.calls ++ [request]
        exits := u.exits ++ [(u.calls.length, .cacheHit)]
        mainQueue := u.mainQueue ++
          [⟨u.calls.length, request.completion, ⟨request.model, result⟩⟩] } := by
      rw [← spared.cache] at hit
      simp only [load, present, hit]
    rw [shape, same, spared.calls]
    exact ⟨spared.tasks, spared.cache, rfl, congrArg (· ++ _) spared.mainQueue, spared.invoked⟩
  · have same : load u request = { u with
        calls := u.calls ++ [request]
        tasks := u.tasks ++ [⟨u.calls.length, url, request.model, request.completion⟩] } := by
      rw [← spared.cache] at miss
      simp only [load, present, miss]
    rw [shape, same, spared.calls]
    refine ⟨(spared.tasks.append_right _).trans ?_, spared.cache, rfl, spared.mainQueue,
      spared.invoked⟩
    rw [List.append_assoc, List.append_assoc]
    exact List.perm_append_comm.append_left _

theorem loads_spared (requests : List (Request codec K)) (spared : Spared failed s u) :
    Spared failed (requests.foldl load s) (requests.foldl load u) := by
  induction requests generalizing s u with
  | nil => exact spared
  | cons request rest ih => exact ih (load_spared request spared)

/-- A task that both services have, among the rest. -/
theorem Spared.task (spared : Spared failed s u) (accounted : Accounted u) {id : Nat}
    {task : DataTask codec K} {tasks : List (DataTask codec K)}
    (taken : Pool.take? (·.id == id) s.tasks = some (task, tasks)) :
    ∃ left, Pool.take? (·.id == id) u.tasks = some (task, left) ∧ left.Perm (tasks ++ failed) ∧
      ∀ other ∈ u.tasks, other.id = id → other = task := by
  obtain rfl : task.id = id := Pool.take?_key taken
  have split : u.tasks.Perm (task :: (tasks ++ failed)) :=
    spared.tasks.trans ((Pool.take?_perm taken).append_right failed)
  obtain ⟨_, _, _, _, _, only, _⟩ :=
    accounted.task_waiting (split.mem_iff.mpr List.mem_cons_self)
  obtain ⟨left, found⟩ := Pool.take?_of_filter only
  refine ⟨left, found, ?_, fun other member same => ?_⟩
  · exact List.Perm.cons_inv (a := task) ((Pool.take?_perm found).symm.trans split)
  · have listed : other ∈ u.tasksOf task.id := List.mem_filter.mpr ⟨member, beq_iff_eq.mpr same⟩
    exact List.mem_singleton.mp (only ▸ listed)

/-- An answer that fails. -/
theorem Spared.failure {task : DataTask codec K} {tasks : List (DataTask codec K)} {id : Nat}
    {response : Response codec} (spared : Spared failed s u)
    (taken : Pool.take? (·.id == id) s.tasks = some (task, tasks))
    (fails : ¬ response.Decodes task.model) :
    Spared (task :: failed) (respond { s with tasks := tasks } task response) u := by
  have waiting : u.tasks.Perm (tasks ++ task :: failed) :=
    (spared.tasks.trans ((Pool.take?_perm taken).append_right failed)).trans
      List.perm_middle.symm
  obtain ⟨error, -, shape⟩ | ⟨_, _, rfl, decoded, -⟩ | ⟨_, _, _, shape⟩ :=
    respond_cases { s with tasks := tasks } task response
  · rw [shape]
    refine ⟨waiting, spared.cache, spared.calls, spared.mainQueue, ?_⟩
    rw [List.filter_append, spared.invoked]
    exact (List.append_nil _).symm
  · exact absurd (Option.isSome_of_eq_some decoded) fails
  · rw [shape]
    exact ⟨waiting, spared.cache, spared.calls, spared.mainQueue, spared.invoked⟩

/-- The same answer to the same task, if it decodes. -/
theorem Spared.answer {task : DataTask codec K} {tasks left : List (DataTask codec K)}
    {response : Response codec} (spared : Spared failed s u) (rest : left.Perm (tasks ++ failed))
    (decodes : response.Decodes task.model) :
    Spared failed (respond { s with tasks := tasks } task response)
      (respond { u with tasks := left } task response) := by
  cases response with
  | failure error => exact absurd decodes id
  | data body =>
    obtain ⟨result, decoded⟩ := Option.isSome_iff_exists.mp decodes
    rw [respond_decoded decoded, respond_decoded decoded]
    exact ⟨rest, congrArg (Function.update · _ _) spared.cache, spared.calls,
      congrArg (· ++ _) spared.mainQueue, spared.invoked⟩

theorem unfailing_step (ignores : ∀ s completion, client.complete s completion none = s)
    {app next u : App client} {e : Event client} (unfailing : Unfailing app u)
    (step : (machine client).step app e = some next) :
    Unfailing next u ∨
      ∃ v, (machine client).step u e = some v ∧ Succeeds u e ∧ Unfailing next v := by
  obtain ⟨accounted, ⟨failed, spared⟩, screen⟩ := unfailing
  cases e with
  | act a =>
    obtain ⟨after, requests, acted, rfl⟩ := step_act step
    have called : (machine client).step u (.act a) = some ⟨requests.foldl load u.service, after⟩ :=
      Option.map_eq_some_iff.mpr ⟨(after, requests), by rw [screen, acted], rfl⟩
    refine Or.inr ⟨_, called, nofun, step_accounted accounted called, ?_, rfl⟩
    exact ⟨failed, loads_spared requests spared⟩
  | respond id response =>
    obtain ⟨task, tasks, taken, rfl⟩ := step_respond step
    have same := app.respond_screen ignores task tasks response
    by_cases decodes : response.Decodes task.model
    · obtain ⟨left, found, rest, only⟩ := spared.task accounted taken
      have answered : (machine client).step u (.respond id response) =
          some (u.respond task left response) :=
        Option.map_eq_some_iff.mpr ⟨(task, left), found, rfl⟩
      refine Or.inr ⟨_, answered, ?_, step_accounted accounted answered, ?_, ?_⟩
      · intro _ _ answer other member same
        cases answer
        exact only other member same ▸ decodes
      · exact ⟨failed, spared.answer rest decodes⟩
      · rw [u.respond_screen ignores, screen, same]
    · exact Or.inl ⟨accounted, ⟨task :: failed, spared.failure taken decodes⟩, screen.trans same.symm⟩
  | runBlock id =>
    obtain ⟨block, mainQueue, taken, rfl⟩ := step_runBlock step
    have ran : (machine client).step u (.runBlock id) = some (u.runBlock block mainQueue) :=
      Option.map_eq_some_iff.mpr ⟨(block, mainQueue), by rw [spared.mainQueue, taken], rfl⟩
    refine Or.inr ⟨_, ran, nofun, step_accounted accounted ran, ⟨failed, ?_⟩, ?_⟩
    · refine ⟨spared.tasks, spared.cache, spared.calls, rfl, ?_⟩
      change u.service.invoked ++ [block.invocation] =
        (app.service.invoked ++ [block.invocation]).filter _
      rw [List.filter_append, spared.invoked]
      rfl
    · exact congrArg (client.complete · block.completion (some block.value)) screen

/-- What is left of a run without the answers that fail is a run to the same screens. -/
theorem run_unfailing (ignores : ∀ s completion, client.complete s completion none = s)
    {screen : client.State} {events : List (Event client)} {app : App client}
    (run : (machine client).run ⟨.empty, screen⟩ events = some app) :
    ∃ left u, left.Sublist events ∧ (machine client).run ⟨.empty, screen⟩ left = some u ∧
      (machine client).Along Succeeds ⟨.empty, screen⟩ left ∧ Unfailing app u :=
  Transition.Machine.run_erasure (unfailing_step ignores) run
    ⟨start_accounted _, ⟨[], .refl _, rfl, rfl, rfl, rfl⟩, rfl⟩

end MoviesApp.NetworkService
