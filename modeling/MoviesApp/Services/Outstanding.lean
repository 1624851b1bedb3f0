import MoviesApp.Services.Ledger

/-! How many calls with a given completion still owe it a value, in a task or in a
block, and which values can reach a completion at all. -/
namespace MoviesApp.NetworkService
variable {codec : Codec} {K : Type} [DecidableEq K]

def State.outstanding (s : State codec K) (completion : K) : Nat :=
  s.tasks.countP (·.completion = completion) + s.mainQueue.countP (·.completion = completion)

variable {s : State codec K} {completion : K}

theorem load_outstanding (s : State codec K) (request : Request codec K) (completion : K) :
    (load s request).outstanding completion = s.outstanding completion +
      if request.completion = completion ∧ request.url.isSome then 1 else 0 := by
  obtain ⟨absent, shape⟩ | ⟨_, _, present, _, shape⟩ | ⟨_, present, _, shape⟩ := load_cases s request
  · rw [shape, absent]
    simp only [State.outstanding, Option.isSome_none, Bool.false_eq_true, and_false, if_false,
      Nat.add_zero]
  · rw [shape, present]
    simp only [State.outstanding, List.countP_append, List.countP_singleton, decide_eq_true_eq,
      Option.isSome_some, and_true]
    omega
  · rw [shape, present]
    simp only [State.outstanding, List.countP_append, List.countP_singleton, decide_eq_true_eq,
      Option.isSome_some, and_true]
    omega

theorem foldl_load_outstanding (requests : List (Request codec K)) (s : State codec K)
    (completion : K) :
    (requests.foldl load s).outstanding completion = s.outstanding completion +
      requests.countP (fun request => request.completion = completion ∧ request.url.isSome) := by
  induction requests generalizing s with
  | nil => rfl
  | cons request rest ih =>
    rw [List.foldl_cons, ih, load_outstanding, List.countP_cons]
    simp only [decide_eq_true_eq]
    omega

theorem respond_outstanding {id : Nat} {task : DataTask codec K} {tasks : List (DataTask codec K)}
    {response : Response codec} (completion : K)
    (taken : Pool.take? (·.id == id) s.tasks = some (task, tasks))
    (decodes : task.completion = completion → response.Decodes task.model) :
    (respond { s with tasks := tasks } task response).outstanding completion =
      s.outstanding completion := by
  have count := Pool.take?_countP taken (fun task => decide (task.completion = completion))
  obtain ⟨error, rfl, shape⟩ | ⟨_, _, _, _, shape⟩ | ⟨body, rfl, undecoded, shape⟩ :=
    respond_cases { s with tasks := tasks } task response
  · have other : task.completion ≠ completion := fun own => decodes own
    rw [shape]
    simp only [other, decide_false, Bool.false_eq_true, if_false, Nat.add_zero] at count
    simp only [State.outstanding, count]
  · rw [shape]
    simp only [State.outstanding, count, List.countP_append, List.countP_singleton]
    omega
  · have other : task.completion ≠ completion := by
      intro own
      have decoded : (codec.decode task.model body).isSome := decodes own
      rw [undecoded] at decoded
      contradiction
    rw [shape]
    simp only [other, decide_false, Bool.false_eq_true, if_false, Nat.add_zero] at count
    simp only [State.outstanding, count]

/-- An answer moves a call from the tasks to the main queue, or takes it away. -/
theorem respond_outstanding_le {id : Nat} {task : DataTask codec K}
    {tasks : List (DataTask codec K)} {response : Response codec} (completion : K)
    (taken : Pool.take? (·.id == id) s.tasks = some (task, tasks)) :
    (respond { s with tasks := tasks } task response).outstanding completion ≤
      s.outstanding completion := by
  by_cases decodes : task.completion = completion → response.Decodes task.model
  · exact Nat.le_of_eq (respond_outstanding completion taken decodes)
  · obtain ⟨-, fails⟩ := Classical.not_imp.mp decodes
    have count := Pool.take?_countP taken (fun task => decide (task.completion = completion))
    obtain ⟨_, _, shape⟩ | ⟨_, _, rfl, decoded, _⟩ | ⟨_, _, _, shape⟩ :=
      respond_cases { s with tasks := tasks } task response
    · rw [shape]
      simp only [State.outstanding, count]
      omega
    · exact absurd (Option.isSome_of_eq_some decoded) fails
    · rw [shape]
      simp only [State.outstanding, count]
      omega

theorem runBlock_outstanding {id : Nat} {block : Block codec K} {mainQueue : List (Block codec K)}
    (completion : K) (taken : Pool.take? (·.id == id) s.mainQueue = some (block, mainQueue)) :
    (runBlock { s with mainQueue := mainQueue } block).outstanding completion +
      (if block.completion = completion then 1 else 0) = s.outstanding completion := by
  have count := Pool.take?_countP taken (fun block => decide (block.completion = completion))
  simp only [decide_eq_true_eq] at count
  simp only [State.outstanding, runBlock, count]
  omega

omit [DecidableEq K]

/-- Values come from bodies: what is cached or queued is a decoding of some body. -/
structure Genuine (s : State codec K) : Prop where
  cached : ∀ url entry, s.cache url = some entry → ∃ body, codec.decode entry.1 body = some entry.2
  queued : ∀ block ∈ s.mainQueue, ∃ body, codec.decode block.value.1 body = some block.value.2

theorem empty_genuine : Genuine (State.empty : State codec K) :=
  ⟨nofun, fun _ member => (nomatch member)⟩

theorem load_genuine (s : State codec K) (request : Request codec K) (genuine : Genuine s) :
    Genuine (load s request) := by
  obtain ⟨_, shape⟩ | ⟨url, result, _, hit, shape⟩ | ⟨_, _, _, shape⟩ := load_cases s request
  · rw [shape]
    exact ⟨genuine.cached, genuine.queued⟩
  · rw [shape]
    refine ⟨genuine.cached, Pool.forall_snoc genuine.queued ?_⟩
    obtain ⟨entry, stored, cast⟩ := Option.bind_eq_some_iff.mp hit
    obtain rfl := Codec.cast?_eq_some.mp cast
    exact genuine.cached url _ stored
  · rw [shape]
    exact ⟨genuine.cached, genuine.queued⟩

theorem respond_genuine {task : DataTask codec K} {tasks : List (DataTask codec K)}
    {response : Response codec} (genuine : Genuine s) :
    Genuine (respond { s with tasks := tasks } task response) := by
  obtain ⟨_, _, shape⟩ | ⟨body, result, _, decoded, shape⟩ | ⟨_, _, _, shape⟩ :=
    respond_cases { s with tasks := tasks } task response
  · rw [shape]
    exact ⟨genuine.cached, genuine.queued⟩
  · rw [shape]
    constructor
    · intro url entry stored
      dsimp only at stored
      by_cases same : url = task.url
      · subst same
        rw [Function.update_self] at stored
        cases stored
        exact ⟨body, decoded⟩
      · rw [Function.update_of_ne same] at stored
        exact genuine.cached url entry stored
    · exact Pool.forall_snoc genuine.queued ⟨body, decoded⟩
  · rw [shape]
    exact ⟨genuine.cached, genuine.queued⟩

theorem step_genuine {client : Client codec K} {app next : App client} {e : Event client}
    (genuine : Genuine app.service) (step : (machine client).step app e = some next) :
    Genuine next.service :=
  service_invariant (fun _ _ _ => True) load_genuine (fun genuine _ _ => respond_genuine genuine)
    (fun genuine taken => ⟨genuine.cached,
      fun block member => genuine.queued block (Pool.take?_left taken member)⟩)
    genuine (fun _ _ _ => trivial) step

end MoviesApp.NetworkService
