import MoviesApp.Services.Cache
import MoviesApp.Services.Completions

/-! Where every URL is asked for as one model. A value once cached then serves every later load
of its URL, and when no task for the URL is left, it is served for good. -/
namespace MoviesApp.NetworkService
variable {codec : Codec} {K : Type} {client : Client codec K} {key : URL → codec.Model}

/-- The request names the model of its URL. -/
def Request.Keyed (key : URL → codec.Model) (request : Request codec K) : Prop :=
  ∀ url, request.url = some url → request.model = key url

/-- The action, if it is one, issues such requests. -/
def KeyedBy (key : URL → codec.Model) (app : App client) (e : Event client) : Prop :=
  ∀ a, e = .act a → ∀ screen requests, client.act app.screen a = some (screen, requests) →
    ∀ request ∈ requests, request.Keyed key

structure Keyed (key : URL → codec.Model) (s : State codec K) : Prop where
  accounted : Accounted s
  calls : ∀ request ∈ s.calls, request.Keyed key
  cached : ∀ url entry, s.cache url = some entry → entry.1 = key url

/-- From the call `first` on, every load of the URL is a cache hit. -/
structure Hits (url : URL) (first : Nat) (s : State codec K) : Prop where
  stored : s.cache url ≠ none
  hits : ∀ id request, first ≤ id → s.calls[id]? = some request → request.url = some url →
    (id, .cacheHit) ∈ s.exits

/-- The URL's entry stays, and from the call `first` on every load of the URL is answered with
it, on the main queue. -/
structure Final (url : URL) (entry : codec.Any) (first : Nat) (s : State codec K) : Prop where
  stored : s.cache url = some entry
  idle : ∀ task ∈ s.tasks, task.url ≠ url
  queued : ∀ block ∈ s.mainQueue, first ≤ block.id → ∀ request, s.calls[block.id]? = some request →
    request.url = some url → block.value = entry
  invoked : ∀ invocation ∈ s.invoked, first ≤ invocation.id → ∀ request,
    s.calls[invocation.id]? = some request → request.url = some url →
    invocation.queue = .main ∧ invocation.value = some entry ∧ invocation.error = none

variable {s : State codec K} {url : URL} {first : Nat} {entry : codec.Any}

theorem load_cache (s : State codec K) (request : Request codec K) :
    (load s request).cache = s.cache := by
  obtain ⟨_, shape⟩ | ⟨_, _, _, _, shape⟩ | ⟨_, _, _, shape⟩ := load_cases s request
  all_goals rw [shape]

theorem load_keyed {request : Request codec K} (keyed : Keyed key s) (asks : request.Keyed key) :
    Keyed key (load s request) := by
  refine ⟨load_accounted s request keyed.accounted, ?_, ?_⟩
  · rw [load_calls]
    exact Pool.forall_snoc keyed.calls asks
  · rw [load_cache]
    exact keyed.cached

theorem start_keyed : Keyed key (State.empty : State codec K) :=
  ⟨start_accounted _, List.forall_mem_nil _, nofun⟩

/-- Loads one after another keep what each of them keeps. -/
theorem loads_keyed {P : State codec K → Prop} {requests : List (Request codec K)}
    (loads : ∀ s request, Keyed key s → request.Keyed key → P s → P (load s request))
    (keyed : Keyed key s) (asks : ∀ request ∈ requests, request.Keyed key) (holds : P s) :
    Keyed key (requests.foldl load s) ∧ P (requests.foldl load s) := by
  induction requests generalizing s with
  | nil => exact ⟨keyed, holds⟩
  | cons request rest ih =>
    obtain ⟨own, later⟩ := List.forall_mem_cons.mp asks
    exact ih (load_keyed keyed own) later (loads s request keyed own holds)

/-- Only a decoded answer changes the cache, at its own URL, under the URL's model. -/
theorem Keyed.respond_cache {task : DataTask codec K} {tasks : List (DataTask codec K)} {id : Nat}
    (keyed : Keyed key s) (taken : Pool.take? (·.id == id) s.tasks = some (task, tasks))
    (response : Response codec) :
    let after := respond { s with tasks := tasks } task response
    after.cache = s.cache ∨ ∃ result, after.cache =
      Function.update s.cache task.url (some ⟨task.model, result⟩) ∧ task.model = key task.url := by
  obtain ⟨request, asked, found, present, shape, -⟩ :=
    keyed.accounted.task_waiting (Pool.take?_mem taken)
  obtain ⟨_, _, step⟩ | ⟨_, result, _, _, step⟩ | ⟨_, _, _, step⟩ :=
    respond_cases { s with tasks := tasks } task response
  · exact Or.inl (by rw [step])
  · refine Or.inr ⟨result, by rw [step], ?_⟩
    rw [shape]
    exact keyed.calls request (List.mem_of_getElem? found) asked present
  · exact Or.inl (by rw [step])

theorem step_keyed {app next : App client} {e : Event client} (keyed : Keyed key app.service)
    (met : KeyedBy key app e) (step : (machine client).step app e = some next) :
    Keyed key next.service := by
  have accounted := step_accounted keyed.accounted step
  cases e with
  | act a =>
    obtain ⟨screen, requests, acted, rfl⟩ := step_act step
    exact (loads_keyed (P := fun _ => True) (fun _ _ _ _ _ => trivial) keyed
      (met a rfl screen requests acted) trivial).1
  | respond id response =>
    obtain ⟨task, tasks, taken, rfl⟩ := step_respond step
    have calls := respond_calls { app.service with tasks := tasks } task response
    refine ⟨accounted, calls.symm ▸ keyed.calls, ?_⟩
    rcases keyed.respond_cache taken response with same | ⟨result, changed, model⟩
    · exact same.symm ▸ keyed.cached
    · intro url entry stored
      have stored := (congrFun changed url).symm.trans stored
      by_cases same : url = task.url
      · subst same
        rw [Function.update_self] at stored
        cases stored
        exact model
      · rw [Function.update_of_ne same] at stored
        exact keyed.cached url entry stored
  | runBlock id =>
    obtain ⟨block, mainQueue, -, rfl⟩ := step_runBlock step
    exact ⟨accounted, keyed.calls, keyed.cached⟩

/-- A load of a URL that has an entry finds it. -/
theorem Keyed.load_stored {request : Request codec K} (keyed : Keyed key s)
    (asks : request.Keyed key) (present : request.url = some url)
    (stored : s.cache url = some entry) : load s request = { s with
      calls := s.calls ++ [request]
      exits := s.exits ++ [(s.calls.length, .cacheHit)]
      mainQueue := s.mainQueue ++ [⟨s.calls.length, request.completion, entry⟩] } := by
  have model : request.model = entry.1 := (asks url present).trans (keyed.cached url entry stored).symm
  obtain ⟨model', value⟩ := entry
  obtain ⟨asked, requestModel, completion⟩ := request
  dsimp only at model present
  subst model
  have hit : (s.cache url).bind (codec.cast? requestModel) = some value := by
    rw [stored]
    exact Codec.cast?_eq_some.mpr rfl
  simp only [load, present, hit]

theorem load_keeps_exits (s : State codec K) (request : Request codec K) :
    s.exits <+: (load s request).exits := by
  obtain ⟨_, shape⟩ | ⟨_, _, _, _, shape⟩ | ⟨_, _, _, shape⟩ := load_cases s request
  · exact shape ▸ List.prefix_append _ _
  · exact shape ▸ List.prefix_append _ _
  · exact shape ▸ List.prefix_rfl

/-- The calls made before a load, and the call it makes. -/
theorem load_call_cases {request other : Request codec K} {id : Nat}
    (found : (load s request).calls[id]? = some other) :
    (id < s.calls.length ∧ s.calls[id]? = some other) ∨ (id = s.calls.length ∧ other = request) := by
  rw [load_calls] at found
  rcases Nat.lt_or_ge id s.calls.length with before | after
  · rw [List.getElem?_append_left before] at found
    exact Or.inl ⟨before, found⟩
  · have bound := (List.getElem?_eq_some_iff.mp found).1
    simp only [List.length_append, List.length_singleton] at bound
    obtain rfl : id = s.calls.length := by omega
    rw [List.getElem?_concat_length] at found
    exact Or.inr ⟨rfl, (Option.some.inj found).symm⟩

theorem load_hits {request : Request codec K} (keyed : Keyed key s) (asks : request.Keyed key)
    (hits : Hits url first s) : Hits url first (load s request) := by
  refine ⟨by rw [load_cache]; exact hits.stored, ?_⟩
  intro id other later found present
  obtain ⟨-, earlier⟩ | ⟨rfl, rfl⟩ := load_call_cases found
  · exact (load_keeps_exits s request).subset (hits.hits id other later earlier present)
  · obtain ⟨entry, stored⟩ := Option.ne_none_iff_exists'.mp hits.stored
    rw [keyed.load_stored asks present stored]
    exact List.mem_append_right _ (List.mem_singleton.mpr rfl)

theorem step_hits {app next : App client} {e : Event client} (keyed : Keyed key app.service)
    (hits : Hits url first app.service) (met : KeyedBy key app e)
    (step : (machine client).step app e = some next) : Hits url first next.service := by
  cases e with
  | act a =>
    obtain ⟨screen, requests, acted, rfl⟩ := step_act step
    exact (loads_keyed (fun _ _ keyed asks hits => load_hits keyed asks hits) keyed
      (met a rfl screen requests acted) hits).2
  | respond id response =>
    obtain ⟨task, tasks, taken, rfl⟩ := step_respond step
    have calls := respond_calls { app.service with tasks := tasks } task response
    have exits := respond_exits { app.service with tasks := tasks } task response
    refine ⟨?_, ?_⟩
    · rcases keyed.respond_cache taken response with same | ⟨result, changed, -⟩
      · exact same.symm ▸ hits.stored
      · refine fun none => ?_
        have none := (congrFun changed url).symm.trans none
        by_cases same : url = task.url
        · rw [same, Function.update_self] at none
          exact nomatch none
        · rw [Function.update_of_ne same] at none
          exact hits.stored none
    · intro id' other later found present
      rw [show (app.respond task tasks response).service.calls = app.service.calls from calls] at found
      rw [show (app.respond task tasks response).service.exits = _ from exits]
      exact List.mem_append_left _ (hits.hits id' other later found present)
  | runBlock id =>
    obtain ⟨block, mainQueue, -, rfl⟩ := step_runBlock step
    exact ⟨hits.stored, hits.hits⟩

theorem Accounted.block_made (accounted : Accounted s) {block : Block codec K}
    (member : block ∈ s.mainQueue) : block.id < s.calls.length := by
  obtain ⟨request, _, _, found, -⟩ := accounted.block_queued member
  exact (List.getElem?_eq_some_iff.mp found).1

theorem Accounted.invoked_made (accounted : Accounted s) {invocation : Invocation codec K}
    (member : invocation ∈ s.invoked) : invocation.id < s.calls.length := by
  obtain ⟨request, found, -⟩ := accounted.invoked_call member
  exact (List.getElem?_eq_some_iff.mp found).1

theorem load_final {request : Request codec K} (keyed : Keyed key s) (asks : request.Keyed key)
    (final : Final url entry first s) : Final url entry first (load s request) := by
  have called {id : Nat} {other : Request codec K} (before : id < s.calls.length)
      (found : (load s request).calls[id]? = some other) : s.calls[id]? = some other := by
    rcases load_call_cases found with ⟨-, earlier⟩ | ⟨rfl, -⟩
    · exact earlier
    · exact absurd before (Nat.lt_irrefl _)
  have invoked : ∀ invocation ∈ (load s request).invoked, first ≤ invocation.id → ∀ other,
      (load s request).calls[invocation.id]? = some other → other.url = some url →
      invocation.queue = .main ∧ invocation.value = some entry ∧ invocation.error = none := by
    rw [load_invoked]
    intro invocation member later other found present
    exact final.invoked invocation member later other
      (called (keyed.accounted.invoked_made member) found) present
  have queued : ∀ block ∈ s.mainQueue, first ≤ block.id → ∀ other,
      (load s request).calls[block.id]? = some other → other.url = some url →
      block.value = entry := by
    intro block member later other found present
    exact final.queued block member later other
      (called (keyed.accounted.block_made member) found) present
  have stored : (load s request).cache url = some entry := by
    rw [load_cache]
    exact final.stored
  by_cases own : request.url = some url
  · have shape := keyed.load_stored asks own final.stored
    rw [shape] at queued invoked stored ⊢
    exact ⟨stored, final.idle, Pool.forall_snoc queued fun _ _ _ _ => rfl, invoked⟩
  · -- The new call is for another URL, and so are its task and its block.
    have other : ∀ asked, (load s request).calls[s.calls.length]? = some asked →
        asked.url ≠ some url := by
      intro asked found
      rcases load_call_cases found with ⟨before, -⟩ | ⟨-, rfl⟩
      · exact absurd before (Nat.lt_irrefl _)
      · exact own
    obtain ⟨_, shape⟩ | ⟨_, result, _, _, shape⟩ | ⟨asked, present, _, shape⟩ := load_cases s request
    · rw [shape] at queued invoked stored ⊢
      exact ⟨stored, final.idle, queued, invoked⟩
    · rw [shape] at queued invoked stored other ⊢
      exact ⟨stored, final.idle, Pool.forall_snoc queued
        fun _ asked found present => absurd present (other asked found), invoked⟩
    · rw [shape] at queued invoked stored ⊢
      refine ⟨stored, Pool.forall_snoc final.idle ?_, queued, invoked⟩
      rintro rfl
      exact own present

theorem respond_final {task : DataTask codec K} {tasks : List (DataTask codec K)} {id : Nat}
    {response : Response codec} (accounted : Accounted s) (final : Final url entry first s)
    (taken : Pool.take? (·.id == id) s.tasks = some (task, tasks)) :
    Final url entry first (respond { s with tasks := tasks } task response) := by
  have idle : ∀ other ∈ tasks, other.url ≠ url :=
    fun other member => final.idle other (Pool.take?_left taken member)
  have different := final.idle task (Pool.take?_mem taken)
  obtain ⟨request, asked, found, present, made, -⟩ := accounted.task_waiting (Pool.take?_mem taken)
  have foreign : ∀ other, s.calls[task.id]? = some other → other.url ≠ some url := by
    intro other same equal
    obtain rfl := Option.some.inj (found.symm.trans same)
    have asks : task.url = asked := congrArg DataTask.url made
    exact different (asks.trans (Option.some.inj (present.symm.trans equal)))
  obtain ⟨_, _, shape⟩ | ⟨_, result, _, _, shape⟩ | ⟨_, _, _, shape⟩ :=
    respond_cases { s with tasks := tasks } task response
  · rw [shape]
    exact ⟨final.stored, idle, final.queued, Pool.forall_snoc final.invoked
      fun _ other same present => absurd present (foreign other same)⟩
  · rw [shape]
    refine ⟨?_, idle, Pool.forall_snoc final.queued
      fun _ other same present => absurd present (foreign other same), final.invoked⟩
    exact (Function.update_of_ne (Ne.symm different) ..).trans final.stored
  · rw [shape]
    exact ⟨final.stored, idle, final.queued, final.invoked⟩

theorem runBlock_final {block : Block codec K} {mainQueue : List (Block codec K)} {id : Nat}
    (final : Final url entry first s)
    (taken : Pool.take? (·.id == id) s.mainQueue = some (block, mainQueue)) :
    Final url entry first (runBlock { s with mainQueue := mainQueue } block) := by
  refine ⟨final.stored, final.idle,
    fun other member => final.queued other (Pool.take?_left taken member),
    Pool.forall_snoc final.invoked ?_⟩
  intro later request found present
  have value := final.queued block (Pool.take?_mem taken) later request found present
  exact ⟨rfl, congrArg some value, rfl⟩

theorem step_final {app next : App client} {e : Event client} (keyed : Keyed key app.service)
    (final : Final url entry first app.service) (met : KeyedBy key app e)
    (step : (machine client).step app e = some next) : Final url entry first next.service := by
  cases e with
  | act a =>
    obtain ⟨screen, requests, acted, rfl⟩ := step_act step
    exact (loads_keyed (fun _ _ keyed asks final => load_final keyed asks final) keyed
      (met a rfl screen requests acted) final).2
  | respond id response =>
    obtain ⟨task, tasks, taken, rfl⟩ := step_respond step
    exact respond_final keyed.accounted final taken
  | runBlock id =>
    obtain ⟨block, mainQueue, taken, rfl⟩ := step_runBlock step
    exact runBlock_final final taken

variable {screen : client.State} {events before after : List (Event client)} {middle app : App client}

theorem run_keyed (run : (machine client).run ⟨.empty, screen⟩ events = some app)
    (along : (machine client).Along (KeyedBy key) ⟨.empty, screen⟩ events) :
    Keyed key app.service :=
  Transition.Machine.run_invariant_along (P := fun app : App client => Keyed key app.service)
    step_keyed run along start_keyed

/-- A URL that has an entry is never fetched again. -/
theorem run_hits (keyed : Keyed key middle.service) (stored : middle.service.cache url ≠ none)
    (run : (machine client).run middle after = some app)
    (along : (machine client).Along (KeyedBy key) middle after) :
    Hits url middle.service.calls.length app.service := by
  have initial : Hits url middle.service.calls.length middle.service := by
    refine ⟨stored, fun id request later found => ?_⟩
    exact absurd (List.getElem?_eq_some_iff.mp found).1 (Nat.not_lt.mpr later)
  exact (Transition.Machine.run_invariant_along
    (P := fun app : App client => Keyed key app.service ∧
      Hits url middle.service.calls.length app.service)
    (fun inv met step => ⟨step_keyed inv.1 met step, step_hits inv.1 inv.2 met step⟩)
    run along ⟨keyed, initial⟩).2

/-- Once no task for it is left, its entry is final. -/
theorem run_final (keyed : Keyed key middle.service) (stored : middle.service.cache url = some entry)
    (idle : ∀ task ∈ middle.service.tasks, task.url ≠ url)
    (run : (machine client).run middle after = some app)
    (along : (machine client).Along (KeyedBy key) middle after) :
    Final url entry middle.service.calls.length app.service := by
  have initial : Final url entry middle.service.calls.length middle.service := by
    refine ⟨stored, idle, fun block _ later request found => ?_,
      fun invocation _ later request found => ?_⟩
    · exact absurd (List.getElem?_eq_some_iff.mp found).1 (Nat.not_lt.mpr later)
    · exact absurd (List.getElem?_eq_some_iff.mp found).1 (Nat.not_lt.mpr later)
  exact (Transition.Machine.run_invariant_along
    (P := fun app : App client => Keyed key app.service ∧
      Final url entry middle.service.calls.length app.service)
    (fun inv met step => ⟨step_keyed inv.1 met step, step_final inv.1 inv.2 met step⟩)
    run along ⟨keyed, initial⟩).2

end MoviesApp.NetworkService
