import MoviesApp.Services.Uncached

/-! Several clients over one service. Each has a state and completions of its own; they share
the cache and both queues. Whatever one of them does in such a run, it could have done alone
and without a cache. -/
namespace MoviesApp.NetworkService
variable {codec : Codec} {ι : Type} [DecidableEq ι] {K : ι → Type}

/-- A request of the client `i`, among those of all clients. -/
def Request.sent (i : ι) (request : Request codec (K i)) : Request codec (Σ i, K i) :=
  ⟨request.url, request.model, ⟨i, request.completion⟩⟩

/-- The clients side by side: every action is one client's, and so is every completion. -/
def Client.together (clients : (i : ι) → Client codec (K i)) : Client codec (Σ i, K i) where
  State := (i : ι) → (clients i).State
  Action := Σ i, (clients i).Action
  act s a := ((clients a.1).act (s a.1) a.2).map fun (screen, requests) =>
    (Function.update s a.1 screen, requests.map (.sent a.1))
  complete s completion value := Function.update s completion.1
    ((clients completion.1).complete (s completion.1) completion.2 value)

/-- The completion as one of the client `i`, if it is. -/
def own (i : ι) (completion : Σ i, K i) : Option (K i) :=
  if same : completion.1 = i then some (same ▸ completion.2) else none

theorem own_eq_some {i : ι} {completion : Σ i, K i} {k : K i} :
    own i completion = some k ↔ completion = ⟨i, k⟩ := by
  obtain ⟨j, other⟩ := completion
  unfold own
  constructor
  · intro mine
    split at mine
    · rename_i same
      change j = i at same
      subst same
      cases mine
      rfl
    · contradiction
  · intro same
    cases same
    rw [dif_pos rfl]

@[simp] theorem own_self (i : ι) (k : K i) : own i ⟨i, k⟩ = some k := own_eq_some.mpr rfl

theorem own_other {i : ι} {completion : Σ i, K i} (other : completion.1 ≠ i) :
    own i completion = none := dif_neg other

/-! What there is of the client `i`, without the numbers of the calls. -/

def Request.part (i : ι) (request : Request codec (Σ i, K i)) : Option (Request codec (K i)) :=
  (own i request.completion).map fun k => ⟨request.url, request.model, k⟩

def DataTask.part (i : ι) (task : DataTask codec (Σ i, K i)) : Option (URL × codec.Model × K i) :=
  (own i task.completion).map fun k => (task.url, task.model, k)

def Block.part (i : ι) (block : Block codec (Σ i, K i)) : Option (K i × codec.Any) :=
  (own i block.completion).map fun k => (k, block.value)

def Invocation.part (i : ι) (invocation : Invocation codec (Σ i, K i)) :
    Option (K i × Queue × Option codec.Any × Option URLError) :=
  (own i invocation.completion).map fun k =>
    (k, invocation.queue, invocation.value, invocation.error)

def DataTask.content {L : Type} (task : DataTask codec L) : URL × codec.Model × L :=
  (task.url, task.model, task.completion)

def Block.content {L : Type} (block : Block codec L) : L × codec.Any :=
  (block.completion, block.value)

def Invocation.content {L : Type} (invocation : Invocation codec L) :
    L × Queue × Option codec.Any × Option URLError :=
  (invocation.completion, invocation.queue, invocation.value, invocation.error)

/-- The service `u` is what the shared service `s` is for the client `i`. -/
structure Part (i : ι) (s : State codec (Σ i, K i)) (u : State codec (K i)) : Prop where
  tasks : (u.tasks.map DataTask.content).Perm (s.tasks.filterMap (DataTask.part i))
  mainQueue : (u.mainQueue.map Block.content).Perm (s.mainQueue.filterMap (Block.part i))
  calls : u.calls = s.calls.filterMap (Request.part i)
  invoked : u.invoked.map Invocation.content = s.invoked.filterMap (Invocation.part i)
  shared : s.cache = fun _ => none
  alone : u.cache = fun _ => none

variable {i j : ι} {s : State codec (Σ i, K i)} {u : State codec (K i)}

theorem load_uncached {L : Type} {s : State codec L} (empty : s.cache = fun _ => none)
    (request : Request codec L) :
    (request.url = none ∧ load s request = { s with
      calls := s.calls ++ [request]
      exits := s.exits ++ [(s.calls.length, .urlAbsent)] }) ∨
    ∃ url, request.url = some url ∧ load s request = { s with
      calls := s.calls ++ [request]
      tasks := s.tasks ++ [⟨s.calls.length, url, request.model, request.completion⟩] } := by
  obtain absent | ⟨url, result, _, hit, _⟩ | ⟨url, present, -, shape⟩ := load_cases s request
  · exact Or.inl absent
  · rw [empty] at hit
    exact nomatch hit
  · exact Or.inr ⟨url, present, shape⟩

theorem Part.load_own (part : Part i s u) (request : Request codec (K i)) :
    Part i (load s (request.sent i)) (load u request) := by
  have calls : u.calls ++ [request] =
      (s.calls ++ [request.sent i]).filterMap (Request.part i) := by
    rw [List.filterMap_append, ← part.calls]
    simp [Request.part, Request.sent]
  obtain ⟨absent, shape⟩ | ⟨url, present, shape⟩ := load_uncached part.shared (request.sent i)
  · obtain ⟨-, alone⟩ | ⟨_, present, -⟩ := load_uncached part.alone request
    · rw [shape, alone]
      exact ⟨part.tasks, part.mainQueue, calls, part.invoked, part.shared, part.alone⟩
    · exact nomatch absent.symm.trans present
  · obtain ⟨absent, -⟩ | ⟨other, same, alone⟩ := load_uncached part.alone request
    · exact nomatch absent.symm.trans present
    · obtain rfl : other = url := Option.some.inj (same.symm.trans present)
      rw [shape, alone]
      refine ⟨?_, part.mainQueue, calls, part.invoked, part.shared, part.alone⟩
      rw [List.map_append, List.filterMap_append]
      simpa [DataTask.part, DataTask.content, Request.sent] using part.tasks.append_right _

theorem Part.load_other (part : Part i s u) (other : j ≠ i) (request : Request codec (K j)) :
    Part i (load s (request.sent j)) u := by
  have foreign : own i (⟨j, request.completion⟩ : Σ i, K i) = none := own_other other
  have calls : u.calls = (s.calls ++ [request.sent j]).filterMap (Request.part i) := by
    rw [List.filterMap_append, ← part.calls]
    simp [Request.part, Request.sent, foreign]
  obtain ⟨-, shape⟩ | ⟨url, -, shape⟩ := load_uncached part.shared (request.sent j)
  · rw [shape]
    exact ⟨part.tasks, part.mainQueue, calls, part.invoked, part.shared, part.alone⟩
  · rw [shape]
    refine ⟨?_, part.mainQueue, calls, part.invoked, part.shared, part.alone⟩
    rw [List.filterMap_append]
    simpa [DataTask.part, Request.sent, foreign] using part.tasks

theorem Part.loads_own (part : Part i s u) (requests : List (Request codec (K i))) :
    Part i ((requests.map (.sent i)).foldl load s) (requests.foldl load u) := by
  induction requests generalizing s u with
  | nil => exact part
  | cons request rest ih => exact ih (part.load_own request)

theorem Part.loads_other (part : Part i s u) (other : j ≠ i) (requests : List (Request codec (K j))) :
    Part i ((requests.map (.sent j)).foldl load s) u := by
  induction requests generalizing s with
  | nil => exact part
  | cons request rest ih => exact ih (part.load_other other request)

/-- The same answer to a shared task and to its counterpart. -/
theorem Part.respond {task : DataTask codec (Σ i, K i)} {tasks : List (DataTask codec (Σ i, K i))}
    {counterpart : DataTask codec (K i)} {left : List (DataTask codec (K i))} {k : K i}
    (part : Part i s u) (mine : task.completion = ⟨i, k⟩)
    (same : counterpart.content = (task.url, task.model, k))
    (rest : (left.map DataTask.content).Perm (tasks.filterMap (DataTask.part i)))
    (response : Response codec) :
    Part i (respond { s with tasks := tasks } task response).withoutCache
      (respond { u with tasks := left } counterpart response).withoutCache := by
  obtain ⟨id, url, model, completion⟩ := task
  obtain ⟨number, otherURL, otherModel, other⟩ := counterpart
  simp only [DataTask.content, Prod.mk.injEq] at same
  obtain ⟨rfl, rfl, rfl⟩ := same
  cases mine
  cases response with
  | failure error =>
    refine ⟨rest, part.mainQueue, part.calls, ?_, rfl, rfl⟩
    simp only [NetworkService.respond, State.withoutCache, List.map_append, List.filterMap_append,
      part.invoked]
    simp [Invocation.part, Invocation.content]
  | data body =>
    cases decoded : codec.decode otherModel body with
    | none =>
      simp only [NetworkService.respond, decoded]
      exact ⟨rest, part.mainQueue, part.calls, part.invoked, rfl, rfl⟩
    | some result =>
      simp only [NetworkService.respond, decoded]
      refine ⟨rest, ?_, part.calls, part.invoked, rfl, rfl⟩
      simp only [State.withoutCache, List.map_append, List.filterMap_append]
      simpa [Block.part, Block.content] using part.mainQueue.append_right _

/-- An answer for another client. -/
theorem Part.respond_other {task : DataTask codec (Σ i, K i)}
    {tasks : List (DataTask codec (Σ i, K i))} (part : Part i s u) (other : task.completion.1 ≠ i)
    (rest : (u.tasks.map DataTask.content).Perm (tasks.filterMap (DataTask.part i)))
    (response : Response codec) :
    Part i (NetworkService.respond { s with tasks := tasks } task response).withoutCache u := by
  have foreign := own_other other
  obtain ⟨error, -, shape⟩ | ⟨_, result, -, -, shape⟩ | ⟨_, -, -, shape⟩ :=
    respond_cases { s with tasks := tasks } task response
  · rw [shape]
    refine ⟨rest, part.mainQueue, part.calls, ?_, rfl, part.alone⟩
    simp only [State.withoutCache, List.filterMap_append, part.invoked]
    simp [Invocation.part, foreign]
  · rw [shape]
    refine ⟨rest, ?_, part.calls, part.invoked, rfl, part.alone⟩
    simp only [State.withoutCache, List.filterMap_append]
    simpa [Block.part, foreign] using part.mainQueue
  · rw [shape]
    exact ⟨rest, part.mainQueue, part.calls, part.invoked, rfl, part.alone⟩

theorem Accounted.take_block {L : Type} {s : State codec L} (accounted : Accounted s)
    {block : Block codec L} (member : block ∈ s.mainQueue) :
    ∃ left, Pool.take? (·.id == block.id) s.mainQueue = some (block, left) := by
  obtain ⟨_, _, _, _, _, _, _, _, only, _⟩ := accounted.block_queued member
  exact Pool.take?_of_filter only

variable {clients : (i : ι) → Client codec (K i)} {server : URL → codec.Body}

/-- The client `i` in the shared run and alone. -/
structure Alone (i : ι) (app : App (Client.together clients)) (u : App (clients i)) : Prop where
  part : Part i app.service u.service
  accounted : Accounted u.service
  screen : u.screen = app.screen i

/-- Only an answer can depart from the server. -/
theorem servedBy_act {L : Type} {client : Client codec L} (app : App client) (a : client.Action) :
    ServedBy server app (.act a) := by
  intro id response same
  cases same

theorem servedBy_runBlock {L : Type} {client : Client codec L} (app : App client) (id : Nat) :
    ServedBy server app (.runBlock id : Event client) := by
  intro id response same
  cases same

/-- A step over a service that holds nothing is a step of the app. -/
theorem uncached_step {L : Type} {client : Client codec L} {app next : App client} {e : Event client}
    (empty : app.service.cache = fun _ => none) (step : (uncached client).step app e = some next) :
    ∃ after, (machine client).step app e = some after ∧ next = after.withoutCache := by
  have same : app.withoutCache = app := by rw [App.withoutCache, withoutCache_of_empty empty]
  obtain ⟨after, stepped, rfl⟩ := Option.map_eq_some_iff.mp step
  rw [same] at stepped
  exact ⟨after, stepped, rfl⟩

theorem uncached_of_step {L : Type} {client : Client codec L} {app next : App client}
    {e : Event client} (empty : app.service.cache = fun _ => none)
    (step : (machine client).step app e = some next) :
    (uncached client).step app e = some next.withoutCache := by
  have same : app.withoutCache = app := by rw [App.withoutCache, withoutCache_of_empty empty]
  exact Option.map_eq_some_iff.mpr ⟨next, by rw [same]; exact step, rfl⟩

theorem together_act {s next : (Client.together clients).State} {a : (clients i).Action}
    {requests : List (Request codec (Σ i, K i))}
    (acted : (Client.together clients).act s ⟨i, a⟩ = some (next, requests)) :
    ∃ screen sent, (clients i).act (s i) a = some (screen, sent) ∧
      next = Function.update s i screen ∧ requests = sent.map (.sent i) := by
  obtain ⟨⟨screen, sent⟩, own, shape⟩ := Option.map_eq_some_iff.mp acted
  obtain ⟨after, requested⟩ := Prod.mk.inj shape
  exact ⟨screen, sent, own, after.symm, requested.symm⟩

theorem alone_act {app next : App (Client.together clients)} {u : App (clients i)}
    {a : (Client.together clients).Action} (alone : Alone i app u)
    (step : (uncached (Client.together clients)).step app (.act a) = some next) :
    ∃ answer v, (uncached (clients i)).run u answer = some v ∧
      (uncached (clients i)).Along (ServedBy server) u answer ∧ Alone i next v := by
  obtain ⟨after, stepped, rfl⟩ := uncached_step alone.part.shared step
  obtain ⟨screens, requests, acted, rfl⟩ := step_act stepped
  obtain ⟨j, a⟩ := a
  obtain ⟨screen, sent, own, rfl, rfl⟩ := together_act acted
  by_cases same : j = i
  · subst same
    have part := alone.part.loads_own sent
    have called : (machine (clients j)).step u (.act a) =
        some ⟨sent.foldl load u.service, screen⟩ := by
      apply Option.map_eq_some_iff.mpr
      exact ⟨(screen, sent), by rw [alone.screen]; exact own, rfl⟩
    have accounted := step_accounted alone.accounted called
    refine ⟨[.act a], _, Transition.Machine.run_cons.mpr
      ⟨_, uncached_of_step alone.part.alone called, rfl⟩, ?_, ?_, accounted.withoutCache, ?_⟩
    · exact (Transition.Machine.along_cons (uncached_of_step alone.part.alone called)).mpr
        ⟨servedBy_act u a, trivial⟩
    · exact ⟨part.tasks, part.mainQueue, part.calls, part.invoked, rfl, rfl⟩
    · exact (Function.update_self j screen app.screen).symm
  · have part := alone.part.loads_other same sent
    have kept : Function.update app.screen j screen i = app.screen i :=
      Function.update_of_ne (Ne.symm same) ..
    refine ⟨[], u, rfl, trivial, ?_, alone.accounted, alone.screen.trans kept.symm⟩
    exact ⟨part.tasks, part.mainQueue, part.calls, part.invoked, rfl, part.alone⟩

/-- The client takes no part in what is delivered to others. -/
theorem together_complete_other {s : (Client.together clients).State} {completion : Σ i, K i}
    (other : completion.1 ≠ i) (value : Option codec.Any) :
    (Client.together clients).complete s completion value i = s i :=
  Function.update_of_ne (Ne.symm other) ..

theorem together_complete_own (s : (Client.together clients).State) (k : K i)
    (value : Option codec.Any) :
    (Client.together clients).complete s ⟨i, k⟩ value i = (clients i).complete (s i) k value :=
  Function.update_self ..

theorem alone_respond {app next : App (Client.together clients)} {u : App (clients i)} {id : Nat}
    {response : Response codec} (alone : Alone i app u)
    (served : ServedBy server app (.respond id response : Event (Client.together clients)))
    (step : (uncached (Client.together clients)).step app (.respond id response) = some next) :
    ∃ answer v, (uncached (clients i)).run u answer = some v ∧
      (uncached (clients i)).Along (ServedBy server) u answer ∧ Alone i next v := by
  obtain ⟨after, stepped, rfl⟩ := uncached_step alone.part.shared step
  obtain ⟨task, tasks, taken, rfl⟩ := step_respond stepped
  cases mine : own i task.completion with
  | some k =>
    have visible : DataTask.part i task = some (task.url, task.model, k) := by
      rw [DataTask.part, mine, Option.map_some]
    obtain ⟨counterpart, member, same, rest⟩ :=
      Pool.take?_counterpart alone.part.tasks taken visible
    obtain ⟨left, found⟩ := alone.accounted.take_task member
    have answered : (uncached (clients i)).step u (.respond counterpart.id response) =
        some (u.respond counterpart left response).withoutCache :=
      uncached_respond alone.part.alone found
    have url : counterpart.url = task.url := congrArg Prod.fst same
    have completion : counterpart.completion = k := congrArg (fun content => content.2.2) same
    have shared : Served server u.service counterpart.id response := by
      have own := servedBy_respond.mp served
      cases response with
      | failure error => trivial
      | data body =>
        rw [served_data found, url]
        exact (served_data taken).mp own
    refine ⟨[.respond counterpart.id response], _,
      Transition.Machine.run_cons.mpr ⟨_, answered, rfl⟩,
      (Transition.Machine.along_cons answered).mpr ⟨servedBy_respond.mpr shared, trivial⟩,
      alone.part.respond (own_eq_some.mp mine) same (rest left (Pool.take?_perm found)) response,
      (respond_accounted alone.accounted found).withoutCache, ?_⟩
    cases response with
    | data body => exact alone.screen
    | failure error =>
      change (clients i).complete u.screen counterpart.completion none =
        (Client.together clients).complete app.screen task.completion none i
      rw [completion, alone.screen, own_eq_some.mp mine, together_complete_own]
  | none =>
    have hidden : DataTask.part i task = none := by rw [DataTask.part, mine, Option.map_none]
    have other : task.completion.1 ≠ i := by
      rintro rfl
      exact Option.some_ne_none _ ((own_self _ task.completion.2).symm.trans mine)
    refine ⟨[], u, rfl, trivial, ?_, alone.accounted, ?_⟩
    · exact alone.part.respond_other other
        (alone.part.tasks.trans (Pool.take?_invisible taken hidden)) response
    · cases response with
      | data body => exact alone.screen
      | failure error => exact alone.screen.trans (together_complete_other other none).symm

theorem alone_runBlock {app next : App (Client.together clients)} {u : App (clients i)} {id : Nat}
    (alone : Alone i app u)
    (step : (uncached (Client.together clients)).step app (.runBlock id) = some next) :
    ∃ answer v, (uncached (clients i)).run u answer = some v ∧
      (uncached (clients i)).Along (ServedBy server) u answer ∧ Alone i next v := by
  obtain ⟨after, stepped, rfl⟩ := uncached_step alone.part.shared step
  obtain ⟨block, mainQueue, taken, rfl⟩ := step_runBlock stepped
  cases mine : own i block.completion with
  | some k =>
    have visible : Block.part i block = some (k, block.value) := by
      rw [Block.part, mine, Option.map_some]
    obtain ⟨counterpart, member, same, rest⟩ :=
      Pool.take?_counterpart alone.part.mainQueue taken visible
    obtain ⟨left, found⟩ := alone.accounted.take_block member
    obtain ⟨completion, value⟩ := Prod.mk.inj same
    have called : (machine (clients i)).step u (.runBlock counterpart.id) =
        some (u.runBlock counterpart left) :=
      Option.map_eq_some_iff.mpr ⟨(counterpart, left), found, rfl⟩
    have ran := uncached_of_step alone.part.alone called
    refine ⟨[.runBlock counterpart.id], _, Transition.Machine.run_cons.mpr ⟨_, ran, rfl⟩,
      (Transition.Machine.along_cons ran).mpr ⟨servedBy_runBlock u counterpart.id, trivial⟩,
      ⟨alone.part.tasks, rest left (Pool.take?_perm found), alone.part.calls, ?_, rfl, rfl⟩,
      (runBlock_accounted alone.accounted found).withoutCache, ?_⟩
    · simp only [App.withoutCache, App.runBlock, NetworkService.runBlock, State.withoutCache,
        List.map_append, List.filterMap_append, alone.part.invoked]
      simp [Invocation.part, Invocation.content, Block.invocation, mine, completion, value]
    · change (clients i).complete u.screen counterpart.completion (some counterpart.value) =
        (Client.together clients).complete app.screen block.completion (some block.value) i
      rw [completion, value, alone.screen, own_eq_some.mp mine, together_complete_own]
  | none =>
    have hidden : Block.part i block = none := by rw [Block.part, mine, Option.map_none]
    have other : block.completion.1 ≠ i := by
      rintro rfl
      exact Option.some_ne_none _ ((own_self _ block.completion.2).symm.trans mine)
    refine ⟨[], u, rfl, trivial, ⟨alone.part.tasks,
      alone.part.mainQueue.trans (Pool.take?_invisible taken hidden), alone.part.calls, ?_, rfl,
      alone.part.alone⟩, alone.accounted, ?_⟩
    · simp only [App.withoutCache, App.runBlock, NetworkService.runBlock, State.withoutCache,
        List.filterMap_append, alone.part.invoked]
      simp [Invocation.part, Block.invocation, mine]
    · exact alone.screen.trans (together_complete_other other _).symm

theorem alone_step {app next : App (Client.together clients)} {u : App (clients i)}
    {e : Event (Client.together clients)} (alone : Alone i app u) (served : ServedBy server app e)
    (step : (uncached (Client.together clients)).step app e = some next) :
    ∃ answer v, (uncached (clients i)).run u answer = some v ∧
      (uncached (clients i)).Along (ServedBy server) u answer ∧ Alone i next v := by
  cases e with
  | act a => exact alone_act alone step
  | respond id response => exact alone_respond alone served step
  | runBlock id => exact alone_runBlock alone step

/-- Every client of a shared run can be run alone, over the same server without a cache, to
the same calls, the same invocations in the same order and the same screen. -/
theorem together_alone {screens : (Client.together clients).State}
    {events : List (Event (Client.together clients))} {app : App (Client.together clients)}
    (run : (machine (Client.together clients)).run ⟨.empty, screens⟩ events = some app)
    (served : (machine (Client.together clients)).Along (ServedBy server) ⟨.empty, screens⟩ events)
    (i : ι) :
    ∃ answers u, (uncached (clients i)).run ⟨.empty, screens i⟩ answers = some u ∧
      (uncached (clients i)).Along (ServedBy server) ⟨.empty, screens i⟩ answers ∧
      u.service.calls = app.service.calls.filterMap (Request.part i) ∧
      u.service.invoked.map Invocation.content =
        app.service.invoked.filterMap (Invocation.part i) ∧
      u.screen = app.screen i := by
  obtain ⟨shared, uncachedApp, uncachedRun, uncachedServed, level⟩ :=
    Transition.Machine.run_simulation level_step run served (level_start screens)
  have initial : Alone i (⟨.empty, screens⟩ : App (Client.together clients))
      (⟨.empty, screens i⟩ : App (clients i)) :=
    ⟨⟨.refl _, .refl _, rfl, rfl, rfl, rfl⟩, start_accounted _, rfl⟩
  obtain ⟨answers, u, aloneRun, aloneServed, alone⟩ :=
    Transition.Machine.run_simulation alone_step uncachedRun uncachedServed initial
  refine ⟨answers, u, aloneRun, aloneServed, ?_, ?_, ?_⟩
  · rw [alone.part.calls, level.lags.calls]
  · rw [alone.part.invoked, level.lags.invoked]
  · rw [alone.screen, level.screen]

end MoviesApp.NetworkService
