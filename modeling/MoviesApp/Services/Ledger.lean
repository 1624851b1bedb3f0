import Mathlib.Data.List.Nodup
import MoviesApp.Services.Client

/-! The standing of every call. A call waits for its task, then has a block on the
main queue, then is done; a call that took another exit has neither. Each call is
in exactly one of these places, with at most one completion invoked. -/
namespace MoviesApp.NetworkService
variable {codec : Codec} {K : Type}

def State.tasksOf (s : State codec K) (id : Nat) := s.tasks.filter (·.id == id)

def State.blocksOf (s : State codec K) (id : Nat) := s.mainQueue.filter (·.id == id)

def State.exitsOf (s : State codec K) (id : Nat) := s.exits.filter (·.1 == id)

def State.invokedOf (s : State codec K) (id : Nat) := s.invoked.filter (·.id == id)

/-- The exits whose value reaches the completion. -/
def Exit.delivers (exit : Exit) : Prop := exit = .cacheHit ∨ exit = .decoded

/-- A body that decodes as the model. -/
def Response.Decodes (model : codec.Model) : Response codec → Prop
  | .data body => (codec.decode model body).isSome
  | .failure _ => False

inductive Standing (s : State codec K) (id : Nat) (request : Request codec K) : Prop where
  | waiting (url : URL) (present : request.url = some url)
      (task : s.tasksOf id = [⟨id, url, request.model, request.completion⟩])
      (block : s.blocksOf id = []) (exit : s.exitsOf id = []) (invoked : s.invokedOf id = [])
  | queued (value : codec.Value request.model) (exit : Exit) (delivers : exit.delivers)
      (present : request.url.isSome) (task : s.tasksOf id = [])
      (block : s.blocksOf id = [⟨id, request.completion, ⟨request.model, value⟩⟩])
      (exits : s.exitsOf id = [(id, exit)]) (invoked : s.invokedOf id = [])
  | delivered (value : codec.Value request.model) (exit : Exit) (delivers : exit.delivers)
      (present : request.url.isSome) (task : s.tasksOf id = []) (block : s.blocksOf id = [])
      (exits : s.exitsOf id = [(id, exit)])
      (invoked : s.invokedOf id =
        [⟨id, request.completion, .main, some ⟨request.model, value⟩, none⟩])
  | failed (error : URLError) (task : s.tasksOf id = []) (block : s.blocksOf id = [])
      (exits : s.exitsOf id = [(id, .transport)])
      (invoked : s.invokedOf id = [⟨id, request.completion, .session, none, some error⟩])
  | dropped (exit : Exit) (silent : exit = .urlAbsent ∧ request.url = none ∨ exit = .undecodable)
      (task : s.tasksOf id = []) (block : s.blocksOf id = [])
      (exits : s.exitsOf id = [(id, exit)]) (invoked : s.invokedOf id = [])

/-- Every call has a standing, and nothing is on record for calls not made yet. -/
structure Accounted (s : State codec K) : Prop where
  standing : ∀ id request, s.calls[id]? = some request → Standing s id request
  fresh : ∀ id, s.calls.length ≤ id →
    s.tasksOf id = [] ∧ s.blocksOf id = [] ∧ s.exitsOf id = [] ∧ s.invokedOf id = []

/-- A call keeps its standing when nothing on record for it changes. -/
theorem Standing.congr {s t : State codec K} {id : Nat} {request : Request codec K}
    (standing : Standing s id request) (tasks : t.tasksOf id = s.tasksOf id)
    (blocks : t.blocksOf id = s.blocksOf id) (exits : t.exitsOf id = s.exitsOf id)
    (invoked : t.invokedOf id = s.invokedOf id) : Standing t id request := by
  cases standing with
  | waiting url present task block exit none =>
    exact .waiting url present (tasks.trans task) (blocks.trans block) (exits.trans exit)
      (invoked.trans none)
  | queued value exit delivers present task block left none =>
    exact .queued value exit delivers present (tasks.trans task) (blocks.trans block)
      (exits.trans left) (invoked.trans none)
  | delivered value exit delivers present task block left done =>
    exact .delivered value exit delivers present (tasks.trans task) (blocks.trans block)
      (exits.trans left) (invoked.trans done)
  | failed error task block left done =>
    exact .failed error (tasks.trans task) (blocks.trans block) (exits.trans left)
      (invoked.trans done)
  | dropped exit silent task block left none =>
    exact .dropped exit silent (tasks.trans task) (blocks.trans block) (exits.trans left)
      (invoked.trans none)

theorem start_accounted (cache : URL → Option codec.Any) :
    Accounted (State.start cache : State codec K) :=
  ⟨fun _ _ found => (nomatch found), fun _ _ => ⟨rfl, rfl, rfl, rfl⟩⟩

theorem filter_snoc_self {xs : List α} {x : α} {p : α → Bool} (none : xs.filter p = [])
    (holds : p x = true) : (xs ++ [x]).filter p = [x] := by
  rw [List.filter_append, none, List.filter_cons_of_pos holds, List.filter_nil, List.nil_append]

theorem filter_snoc_other {xs : List α} {x : α} {p : α → Bool} (fails : p x = false) :
    (xs ++ [x]).filter p = xs.filter p := by
  rw [List.filter_append, List.filter_cons_of_neg (by simp [fails]), List.filter_nil,
    List.append_nil]

theorem beq_other {id other : Nat} (different : id ≠ other) : (other == id) = false :=
  beq_eq_false_iff_ne.mpr (Ne.symm different)

/-- What one load records: only entries of its own, new identifier. -/
theorem load_other (s : State codec K) (request : Request codec K) {id : Nat}
    (different : id ≠ s.calls.length) :
    (load s request).tasksOf id = s.tasksOf id ∧ (load s request).blocksOf id = s.blocksOf id ∧
      (load s request).exitsOf id = s.exitsOf id ∧
      (load s request).invokedOf id = s.invokedOf id := by
  have other := beq_other different
  obtain ⟨_, shape⟩ | ⟨_, _, _, _, shape⟩ | ⟨_, _, _, shape⟩ := load_cases s request
  · rw [shape]
    exact ⟨rfl, rfl, filter_snoc_other other, rfl⟩
  · rw [shape]
    exact ⟨rfl, filter_snoc_other other, filter_snoc_other other, rfl⟩
  · rw [shape]
    exact ⟨filter_snoc_other other, rfl, rfl, rfl⟩

theorem load_calls (s : State codec K) (request : Request codec K) :
    (load s request).calls = s.calls ++ [request] := by
  obtain ⟨_, shape⟩ | ⟨_, _, _, _, shape⟩ | ⟨_, _, _, shape⟩ := load_cases s request
  all_goals rw [shape]

theorem foldl_load_calls (requests : List (Request codec K)) (s : State codec K) :
    (requests.foldl load s).calls = s.calls ++ requests := by
  induction requests generalizing s with
  | nil => exact (List.append_nil _).symm
  | cons request rest ih => rw [List.foldl_cons, ih, load_calls, ← List.append_cons]

theorem load_invoked (s : State codec K) (request : Request codec K) :
    (load s request).invoked = s.invoked := by
  obtain ⟨_, shape⟩ | ⟨_, _, _, _, shape⟩ | ⟨_, _, _, shape⟩ := load_cases s request
  all_goals rw [shape]

theorem foldl_load_invoked (requests : List (Request codec K)) (s : State codec K) :
    (requests.foldl load s).invoked = s.invoked :=
  foldl_load_invariant (P := fun t => t.invoked = s.invoked)
    (fun t request same => (load_invoked t request).trans same) requests rfl

theorem load_standing {s : State codec K} (accounted : Accounted s) (request : Request codec K) :
    Standing (load s request) s.calls.length request := by
  obtain ⟨tasks, blocks, exits, invoked⟩ := accounted.fresh s.calls.length (Nat.le_refl _)
  have self : (s.calls.length == s.calls.length) = true := beq_self_eq_true _
  obtain ⟨absent, shape⟩ | ⟨url, result, present, hit, shape⟩ | ⟨url, present, miss, shape⟩ :=
    load_cases s request
  · rw [shape]
    exact .dropped .urlAbsent (Or.inl ⟨rfl, absent⟩) tasks blocks (filter_snoc_self exits self)
      invoked
  · rw [shape]
    exact .queued result .cacheHit (Or.inl rfl) (by simp only [present, Option.isSome_some]) tasks
      (filter_snoc_self blocks self) (filter_snoc_self exits self) invoked
  · rw [shape]
    exact .waiting url present (filter_snoc_self tasks self) blocks exits invoked

theorem load_accounted (s : State codec K) (request : Request codec K) (accounted : Accounted s) :
    Accounted (load s request) := by
  constructor
  · intro id other found
    rw [load_calls] at found
    rcases Nat.lt_or_ge id s.calls.length with before | after
    · rw [List.getElem?_append_left before] at found
      obtain ⟨tasks, blocks, exits, invoked⟩ := load_other s request (Nat.ne_of_lt before)
      exact (accounted.standing id other found).congr tasks blocks exits invoked
    · have bound := (List.getElem?_eq_some_iff.mp found).1
      simp only [List.length_append, List.length_singleton] at bound
      obtain rfl : id = s.calls.length := by omega
      rw [List.getElem?_concat_length] at found
      cases found
      exact load_standing accounted request
  · intro id after
    rw [load_calls, List.length_append, List.length_singleton] at after
    obtain ⟨tasks, blocks, exits, invoked⟩ := 
      load_other s request (show id ≠ s.calls.length by omega)
    rw [tasks, blocks, exits, invoked]
    exact accounted.fresh id (by omega)

/-- A task in flight belongs to a call that waits for it. -/
theorem Accounted.task_waiting {s : State codec K} (accounted : Accounted s)
    {task : DataTask codec K} (member : task ∈ s.tasks) :
    ∃ request url, s.calls[task.id]? = some request ∧ request.url = some url ∧
      task = ⟨task.id, url, request.model, request.completion⟩ ∧ s.tasksOf task.id = [task] ∧
      s.blocksOf task.id = [] ∧ s.exitsOf task.id = [] ∧ s.invokedOf task.id = [] := by
  have listed : task ∈ s.tasksOf task.id := List.mem_filter.mpr ⟨member, beq_self_eq_true _⟩
  have made : task.id < s.calls.length := by
    by_contra absent
    rw [(accounted.fresh task.id (Nat.le_of_not_lt absent)).1] at listed
    contradiction
  have found : s.calls[task.id]? = some s.calls[task.id] := List.getElem?_eq_getElem made
  cases accounted.standing _ _ found with
  | waiting url present own block exit invoked =>
    rw [own] at listed
    have same := List.mem_singleton.mp listed
    exact ⟨_, url, found, present, same, own.trans (congrArg (fun task => [task]) same.symm), block,
      exit, invoked⟩
  | queued _ _ _ _ own | delivered _ _ _ _ own | failed _ own | dropped _ _ own =>
    rw [own] at listed
    contradiction

theorem Accounted.block_queued {s : State codec K} (accounted : Accounted s)
    {block : Block codec K} (member : block ∈ s.mainQueue) :
    ∃ request value exit, s.calls[block.id]? = some request ∧ Exit.delivers exit ∧
      request.url.isSome ∧ block = ⟨block.id, request.completion, ⟨request.model, value⟩⟩ ∧
      s.tasksOf block.id = [] ∧ s.blocksOf block.id = [block] ∧
      s.exitsOf block.id = [(block.id, exit)] ∧ s.invokedOf block.id = [] := by
  have listed : block ∈ s.blocksOf block.id := List.mem_filter.mpr ⟨member, beq_self_eq_true _⟩
  have made : block.id < s.calls.length := by
    by_contra absent
    rw [(accounted.fresh block.id (Nat.le_of_not_lt absent)).2.1] at listed
    contradiction
  have found : s.calls[block.id]? = some s.calls[block.id] := List.getElem?_eq_getElem made
  cases accounted.standing _ _ found with
  | queued value exit delivers present task own exits invoked =>
    rw [own] at listed
    have same := List.mem_singleton.mp listed
    exact ⟨_, value, exit, found, delivers, present, same, task,
      own.trans (congrArg (fun block => [block]) same.symm), exits, invoked⟩
  | waiting _ _ _ own | delivered _ _ _ _ _ own | failed _ _ own | dropped _ _ _ own =>
    rw [own] at listed
    contradiction

/-- An invoked completion belongs to a call that has nothing outstanding. -/
theorem Accounted.invoked_call {s : State codec K} (accounted : Accounted s)
    {invocation : Invocation codec K} (member : invocation ∈ s.invoked) :
    ∃ request, s.calls[invocation.id]? = some request ∧ invocation.completion = request.completion ∧
      s.tasksOf invocation.id = [] ∧ s.blocksOf invocation.id = [] := by
  have listed : invocation ∈ s.invokedOf invocation.id :=
    List.mem_filter.mpr ⟨member, beq_self_eq_true _⟩
  have made : invocation.id < s.calls.length := by
    by_contra absent
    rw [(accounted.fresh invocation.id (Nat.le_of_not_lt absent)).2.2.2] at listed
    contradiction
  have found : s.calls[invocation.id]? = some s.calls[invocation.id] := List.getElem?_eq_getElem made
  cases accounted.standing _ _ found with
  | delivered value exit _ _ task block _ own =>
    rw [own] at listed
    have same := List.mem_singleton.mp listed
    exact ⟨_, found, congrArg Invocation.completion same, task, block⟩
  | failed error task block _ own =>
    rw [own] at listed
    have same := List.mem_singleton.mp listed
    exact ⟨_, found, congrArg Invocation.completion same, task, block⟩
  | waiting _ _ _ _ _ own | queued _ _ _ _ _ _ _ own | dropped _ _ _ _ _ own =>
    rw [own] at listed
    contradiction

/-- Where every call has a completion of its own, one that waits on the main queue
has not been invoked. -/
theorem Accounted.block_uninvoked {s : State codec K} (accounted : Accounted s)
    (unique : (s.calls.map Request.completion).Nodup) {block : Block codec K}
    {invocation : Invocation codec K} (queued : block ∈ s.mainQueue) (member : invocation ∈ s.invoked) :
    invocation.completion ≠ block.completion := by
  intro same
  obtain ⟨request, asked, completion, _, none⟩ := accounted.invoked_call member
  obtain ⟨other, _, _, found, _, _, shape, _, only, _⟩ := accounted.block_queued queued
  have equal : invocation.id = block.id := by
    have bound : invocation.id < (s.calls.map Request.completion).length := by
      rw [List.length_map]
      exact (List.getElem?_eq_some_iff.mp asked).1
    apply (List.getElem?_inj bound unique).mp
    rw [List.getElem?_map, List.getElem?_map, asked, found, Option.map_some, Option.map_some,
      ← completion, same, shape]
  rw [equal, only] at none
  contradiction

/-- What a task's callback records: only entries of the task's own call. -/
theorem respond_other (s : State codec K) (task : DataTask codec K) (response : Response codec)
    {id : Nat} (different : id ≠ task.id) :
    (respond s task response).tasksOf id = s.tasksOf id ∧
      (respond s task response).blocksOf id = s.blocksOf id ∧
      (respond s task response).exitsOf id = s.exitsOf id ∧
      (respond s task response).invokedOf id = s.invokedOf id := by
  have other := beq_other different
  obtain ⟨_, _, shape⟩ | ⟨_, _, _, _, shape⟩ | ⟨_, _, _, shape⟩ := respond_cases s task response
  · rw [shape]
    exact ⟨rfl, rfl, filter_snoc_other other, filter_snoc_other other⟩
  · rw [shape]
    exact ⟨rfl, filter_snoc_other other, filter_snoc_other other, rfl⟩
  · rw [shape]
    exact ⟨rfl, rfl, filter_snoc_other other, rfl⟩

theorem respond_calls (s : State codec K) (task : DataTask codec K) (response : Response codec) :
    (respond s task response).calls = s.calls := by
  obtain ⟨_, _, shape⟩ | ⟨_, _, _, _, shape⟩ | ⟨_, _, _, shape⟩ := respond_cases s task response
  all_goals rw [shape]

theorem respond_invoked (s : State codec K) (task : DataTask codec K) (response : Response codec)
    {invocation : Invocation codec K} (member : invocation ∈ (respond s task response).invoked) :
    invocation ∈ s.invoked ∨ invocation.completion = task.completion ∧ invocation.value = none := by
  obtain ⟨error, _, shape⟩ | ⟨_, _, _, _, shape⟩ | ⟨_, _, _, shape⟩ := respond_cases s task response
  · rw [shape] at member
    rcases List.mem_append.mp member with earlier | new
    · exact Or.inl earlier
    · obtain rfl := List.mem_singleton.mp new
      exact Or.inr ⟨rfl, rfl⟩
  · rw [shape] at member
    exact Or.inl member
  · rw [shape] at member
    exact Or.inl member

theorem respond_keeps_invoked (s : State codec K) (task : DataTask codec K) (response : Response codec)
    {invocation : Invocation codec K} (member : invocation ∈ s.invoked) :
    invocation ∈ (respond s task response).invoked := by
  obtain ⟨error, _, shape⟩ | ⟨_, _, _, _, shape⟩ | ⟨_, _, _, shape⟩ := respond_cases s task response
  · rw [shape]
    exact List.mem_append_left _ member
  · rw [shape]
    exact member
  · rw [shape]
    exact member

theorem respond_standing {s : State codec K} {task : DataTask codec K} {request : Request codec K}
    {url : URL} (response : Response codec) (present : request.url = some url)
    (shape : task = ⟨task.id, url, request.model, request.completion⟩)
    (tasks : s.tasksOf task.id = []) (blocks : s.blocksOf task.id = [])
    (exits : s.exitsOf task.id = []) (invoked : s.invokedOf task.id = []) :
    Standing (respond s task response) task.id request := by
  have self : (task.id == task.id) = true := beq_self_eq_true _
  obtain ⟨id, taskURL, model, completion⟩ := task
  simp only [DataTask.mk.injEq, true_and] at shape
  obtain ⟨rfl, rfl, rfl⟩ := shape
  obtain ⟨error, -, step⟩ | ⟨_, result, -, _, step⟩ | ⟨_, -, _, step⟩ :=
    respond_cases s ⟨id, taskURL, request.model, request.completion⟩ response
  · rw [step]
    exact .failed error tasks blocks (filter_snoc_self exits self) (filter_snoc_self invoked self)
  · rw [step]
    exact .queued result .decoded (Or.inr rfl) (by simp only [present, Option.isSome_some]) tasks
      (filter_snoc_self blocks self) (filter_snoc_self exits self) invoked
  · rw [step]
    exact .dropped .undecodable (Or.inr rfl) tasks blocks (filter_snoc_self exits self) invoked

theorem respond_accounted {s : State codec K} {id : Nat} {task : DataTask codec K}
    {tasks : List (DataTask codec K)} {response : Response codec} (accounted : Accounted s)
    (taken : Pool.take? (·.id == id) s.tasks = some (task, tasks)) :
    Accounted (respond { s with tasks := tasks } task response) := by
  obtain ⟨request, url, found, present, shape, own, blocks, exits, invoked⟩ :=
    accounted.task_waiting (Pool.take?_mem taken)
  obtain rfl : task.id = id := Pool.take?_key taken
  have gone : tasks.filter (·.id == task.id) = [] := by
    have split := Pool.take?_filter_self taken
    rw [show s.tasks.filter (·.id == task.id) = [task] from own] at split
    exact (List.cons.inj split).2.symm
  have kept : ∀ other, other ≠ task.id →
      (respond { s with tasks := tasks } task response).tasksOf other = s.tasksOf other ∧
      (respond { s with tasks := tasks } task response).blocksOf other = s.blocksOf other ∧
      (respond { s with tasks := tasks } task response).exitsOf other = s.exitsOf other ∧
      (respond { s with tasks := tasks } task response).invokedOf other = s.invokedOf other := by
    intro other different
    obtain ⟨t, b, e, i⟩ := respond_other { s with tasks := tasks } task response different
    exact ⟨t.trans (Pool.take?_filter_of_neg taken (beq_other different)).symm, b, e, i⟩
  constructor
  · intro other asked foundOther
    rw [respond_calls] at foundOther
    by_cases same : other = task.id
    · subst same
      cases Option.some.inj (found.symm.trans foundOther)
      exact respond_standing response present shape gone blocks exits invoked
    · obtain ⟨t, b, e, i⟩ := kept other same
      exact (accounted.standing other asked foundOther).congr t b e i
  · intro other after
    rw [respond_calls] at after
    have made := (List.getElem?_eq_some_iff.mp found).1
    obtain ⟨t, b, e, i⟩ := kept other (by change s.calls.length ≤ other at after; omega)
    rw [t, b, e, i]
    exact accounted.fresh other after

theorem runBlock_accounted {s : State codec K} {id : Nat} {block : Block codec K}
    {mainQueue : List (Block codec K)} (accounted : Accounted s)
    (taken : Pool.take? (·.id == id) s.mainQueue = some (block, mainQueue)) :
    Accounted (runBlock { s with mainQueue := mainQueue } block) := by
  obtain ⟨request, value, exit, found, delivers, present, shape, tasks, own, exits, invoked⟩ :=
    accounted.block_queued (Pool.take?_mem taken)
  obtain rfl : block.id = id := Pool.take?_key taken
  have self : (block.id == block.id) = true := beq_self_eq_true _
  have gone : mainQueue.filter (·.id == block.id) = [] := by
    have split := Pool.take?_filter_self taken
    rw [show s.mainQueue.filter (·.id == block.id) = [block] from own] at split
    exact (List.cons.inj split).2.symm
  constructor
  · intro other asked foundOther
    by_cases same : other = block.id
    · subst same
      cases Option.some.inj (found.symm.trans foundOther)
      have done : (runBlock { s with mainQueue := mainQueue } block).invokedOf block.id =
          [block.invocation] := filter_snoc_self invoked self
      have called : block.invocation =
          ⟨block.id, request.completion, .main, some ⟨request.model, value⟩, none⟩ := by
        rw [Block.invocation, shape]
      refine .delivered value exit delivers present tasks gone exits ?_
      exact done.trans (congrArg (fun invocation => [invocation]) called)
    · exact (accounted.standing other asked foundOther).congr rfl
        (Pool.take?_filter_of_neg taken (beq_other same)).symm rfl
        (filter_snoc_other (beq_other same))
  · intro other after
    have made := (List.getElem?_eq_some_iff.mp found).1
    change s.calls.length ≤ other at after
    have different : other ≠ block.id := by omega
    obtain ⟨t, b, e, i⟩ := accounted.fresh other after
    have kept : (runBlock { s with mainQueue := mainQueue } block).invokedOf other =
        s.invokedOf other := filter_snoc_other (beq_other different)
    exact ⟨t, (Pool.take?_filter_of_neg taken (beq_other different)).symm.trans b, e, kept.trans i⟩

theorem step_accounted {client : Client codec K} {app next : App client} {e : Event client} (accounted : Accounted app.service)
    (step : (machine client).step app e = some next) : Accounted next.service :=
  service_invariant (fun _ _ _ => True) load_accounted
    (fun accounted _ taken => respond_accounted accounted taken)
    (fun accounted taken => runBlock_accounted accounted taken) accounted (fun _ _ _ => trivial) step

/-- Every reachable state of every app accounts for every call. -/
theorem run_accounted {client : Client codec K} {screen : client.State} {events : List (Event client)}
    {app : App client} {cache : URL → Option codec.Any}
    (run : (machine client).run ⟨.start cache, screen⟩ events = some app) :
    Accounted app.service :=
  Transition.Machine.run_invariant (P := fun app : App client => Accounted app.service)
    step_accounted run (start_accounted cache)

end MoviesApp.NetworkService
