import MoviesApp.Services.Ledger

/-! Against a fixed server the cache tells the truth. Every entry is what decoding
the server's body for its key gives, under the type it was stored with, and so is
every value on its way to a completion or delivered to one. -/
namespace MoviesApp.NetworkService
variable {codec : Codec} {K : Type} {client : Client codec K}

/-- A body that answers a task is the server's body for the task's URL. -/
def Served (server : URL → codec.Body) (s : State codec K) (id : Nat) : Response codec → Prop
  | .data body => ∀ task tasks, Pool.take? (·.id == id) s.tasks = some (task, tasks) →
      body = server task.url
  | .failure _ => True

/-- The same as a condition on the steps of an app. -/
def ServedBy (server : URL → codec.Body) (app : App client) (e : Event client) : Prop :=
  ∀ id response, e = .respond id response → Served server app.service id response

/-- The value is what the server's body for the call's own URL decodes to as the
call's own model, and it is meant for the call's own completion. -/
def DueTo (server : URL → codec.Body) (calls : List (Request codec K)) (id : Nat) (completion : K)
    (value : codec.Any) : Prop :=
  ∃ request url result, calls[id]? = some request ∧ request.url = some url ∧
    completion = request.completion ∧ codec.decode request.model (server url) = some result ∧
    value = ⟨request.model, result⟩

structure Sound (server : URL → codec.Body) (s : State codec K) : Prop where
  cached : ∀ url entry, s.cache url = some entry → codec.decode entry.1 (server url) = some entry.2
  queued : ∀ block ∈ s.mainQueue, DueTo server s.calls block.id block.completion block.value
  delivered : ∀ invocation ∈ s.invoked, ∀ value, invocation.value = some value →
    DueTo server s.calls invocation.id invocation.completion value

variable {server : URL → codec.Body} {s : State codec K}

theorem DueTo.mono {calls : List (Request codec K)} {id : Nat} {completion : K} {value : codec.Any}
    (due : DueTo server calls id completion value) (request : Request codec K) :
    DueTo server (calls ++ [request]) id completion value := by
  obtain ⟨asked, url, result, found, rest⟩ := due
  obtain ⟨made, -⟩ := List.getElem?_eq_some_iff.mp found
  exact ⟨asked, url, result, by rw [List.getElem?_append_left made, found], rest⟩

theorem empty_sound : Sound server (State.empty : State codec K) :=
  ⟨nofun, fun _ member => (nomatch member), fun _ member => (nomatch member)⟩

/-- A cached value of the right type is what the server would have answered. -/
theorem Sound.hit (sound : Sound server s) {url : URL} {model : codec.Model}
    {result : codec.Value model} (hit : (s.cache url).bind (codec.cast? model) = some result) :
    codec.decode model (server url) = some result := by
  obtain ⟨entry, stored, cast⟩ := Option.bind_eq_some_iff.mp hit
  obtain rfl := Codec.cast?_eq_some.mp cast
  exact sound.cached url _ stored

theorem load_sound (request : Request codec K) (sound : Sound server s) :
    Sound server (load s request) := by
  have queued : ∀ block ∈ s.mainQueue,
      DueTo server (s.calls ++ [request]) block.id block.completion block.value :=
    fun block member => (sound.queued block member).mono request
  have delivered : ∀ invocation ∈ s.invoked, ∀ value, invocation.value = some value →
      DueTo server (s.calls ++ [request]) invocation.id invocation.completion value :=
    fun invocation member value present =>
      (sound.delivered invocation member value present).mono request
  obtain ⟨_, shape⟩ | ⟨url, result, present, hit, shape⟩ | ⟨_, _, _, shape⟩ := load_cases s request
  · rw [shape]
    exact ⟨sound.cached, queued, delivered⟩
  · rw [shape]
    exact ⟨sound.cached, Pool.forall_snoc queued
      ⟨request, url, result, List.getElem?_concat_length, present, rfl, sound.hit hit, rfl⟩, delivered⟩
  · rw [shape]
    exact ⟨sound.cached, queued, delivered⟩

theorem respond_sound {id : Nat} {task : DataTask codec K} {tasks : List (DataTask codec K)}
    {response : Response codec} (accounted : Accounted s) (sound : Sound server s)
    (served : Served server s id response)
    (taken : Pool.take? (·.id == id) s.tasks = some (task, tasks)) :
    Sound server (respond { s with tasks := tasks } task response) := by
  obtain rfl : task.id = id := Pool.take?_key taken
  obtain ⟨request, url, found, present, made, -⟩ := accounted.task_waiting (Pool.take?_mem taken)
  obtain ⟨error, rfl, shape⟩ | ⟨body, result, rfl, decoded, shape⟩ | ⟨_, _, _, shape⟩ :=
    respond_cases { s with tasks := tasks } task response
  · rw [shape]
    refine ⟨sound.cached, sound.queued, Pool.forall_snoc sound.delivered ?_⟩
    intro value delivers
    cases delivers
  · rw [shape]
    rw [show body = server task.url from served task tasks taken] at decoded
    refine ⟨?_, ?_, sound.delivered⟩
    · intro key entry stored
      dsimp only at stored
      by_cases same : key = task.url
      · subst same
        rw [Function.update_self] at stored
        cases stored
        exact decoded
      · rw [Function.update_of_ne same] at stored
        exact sound.cached key entry stored
    · apply Pool.forall_snoc sound.queued
      obtain ⟨id, taskURL, model, completion⟩ := task
      simp only [DataTask.mk.injEq, true_and] at made
      obtain ⟨rfl, rfl, rfl⟩ := made
      exact ⟨request, _, result, found, present, rfl, decoded, rfl⟩
  · rw [shape]
    exact ⟨sound.cached, sound.queued, sound.delivered⟩

theorem runBlock_sound {id : Nat} {block : Block codec K} {mainQueue : List (Block codec K)}
    (sound : Sound server s)
    (taken : Pool.take? (·.id == id) s.mainQueue = some (block, mainQueue)) :
    Sound server (runBlock { s with mainQueue := mainQueue } block) := by
  refine ⟨sound.cached, fun other member => sound.queued other (Pool.take?_left taken member),
    Pool.forall_snoc sound.delivered ?_⟩
  intro value delivers
  cases delivers
  exact sound.queued block (Pool.take?_mem taken)

theorem servedBy_respond {app : App client} {id : Nat} {response : Response codec} :
    ServedBy server app (.respond id response) ↔ Served server app.service id response := by
  constructor
  · intro served
    exact served id response rfl
  · intro served _ _ same
    cases same
    exact served

theorem served_data {id : Nat} {body : codec.Body} {task : DataTask codec K}
    {left : List (DataTask codec K)}
    (taken : Pool.take? (·.id == id) s.tasks = some (task, left)) :
    Served server s id (.data body) ↔ body = server task.url := by
  constructor
  · intro served
    exact served task left taken
  · intro answer other tasks same
    rw [taken] at same
    cases same
    exact answer

theorem step_sound {app next : App client} {e : Event client}
    (inv : Accounted app.service ∧ Sound server app.service) (served : ServedBy server app e)
    (step : (machine client).step app e = some next) :
    Accounted next.service ∧ Sound server next.service :=
  service_invariant (P := fun s => Accounted s ∧ Sound server s) (Served server)
    (fun s request inv => ⟨load_accounted s request inv.1, load_sound request inv.2⟩)
    (fun inv served taken => ⟨respond_accounted inv.1 taken, respond_sound inv.1 inv.2 served taken⟩)
    (fun inv taken => ⟨runBlock_accounted inv.1 taken, runBlock_sound inv.2 taken⟩) inv served step

/-- Answers go to tasks at the URLs listed for them. -/
def AskedAt (urls : Nat → String) (app : App client) : Event client → Prop
  | .respond id _ => ∀ task ∈ app.service.tasks.find? (·.id == id),
      task.url.absoluteString = urls id
  | .act _ | .runBlock _ => True

instance {urls : Nat → String} {app : App client} : (e : Event client) → Decidable (AskedAt urls app e)
  | .respond .. => inferInstanceAs (Decidable (∀ task ∈ _, _))
  | .act _ => .isTrue trivial
  | .runBlock _ => .isTrue trivial

/-- What is answered at the listed URLs is the server's, so it is served. -/
theorem servedBy_askedAt {urls : Nat → String} {app : App client} {e : Event client}
    (asked : AskedAt urls app e)
    (answers : ∀ id body, e = .respond id (.data body) →
      ∀ url : URL, url.absoluteString = urls id → body = server url) : ServedBy server app e := by
  rintro id response rfl
  cases response with
  | failure error => trivial
  | data body =>
    intro task tasks taken
    exact answers id body rfl task.url (asked task (Pool.take?_find taken))

/-- A load that fails in transport or whose body does not decode leaves the cache as it was. -/
theorem respond_cache {task : DataTask codec K} {response : Response codec}
    (fails : ¬ response.Decodes task.model) :
    (respond s task response).cache = s.cache := by
  obtain ⟨_, _, shape⟩ | ⟨_, _, rfl, decoded, _⟩ | ⟨_, _, _, shape⟩ :=
    respond_cases s task response
  · rw [shape]
  · exact absurd (Option.isSome_of_eq_some decoded) fails
  · rw [shape]

end MoviesApp.NetworkService
