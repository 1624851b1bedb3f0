import MoviesApp.Services.NetworkService
import MoviesApp.Transition

/-! An app over the network service: its main-queue code starts loads, and its
completion closures receive what the service delivers. All screens share one service. -/
namespace MoviesApp.NetworkService

/-- Client code: an action of the app yields the loads it issues, in order; a
completion closure, named by `K`, receives the two arguments. -/
structure Client (codec : Codec) (K : Type) where
  State : Type
  Action : Type
  act : State → Action → Option (State × List (Request codec K))
  complete : State → K → Option codec.Any → State

variable {codec : Codec} {K : Type} (client : Client codec K)

structure App where
  service : State codec K
  screen : client.State

inductive Event where
  | act (a : client.Action)
  | respond (id : Nat) (response : Response codec)
  | runBlock (id : Nat)

variable {client}

/-- A failure invokes the completion without a value, on the session queue. -/
def App.respond (app : App client) (task : DataTask codec K) (tasks : List (DataTask codec K))
    (response : Response codec) : App client where
  service := NetworkService.respond { app.service with tasks := tasks } task response
  screen := match response with
    | .failure _ => client.complete app.screen task.completion none
    | .data _ => app.screen

def App.runBlock (app : App client) (block : Block codec K) (mainQueue : List (Block codec K)) :
    App client where
  service := NetworkService.runBlock { app.service with mainQueue := mainQueue } block
  screen := client.complete app.screen block.completion (some block.value)

def App.step (app : App client) : Event client → Option (App client)
  | .act a => (client.act app.screen a).map fun (screen, requests) =>
      ⟨requests.foldl load app.service, screen⟩
  | .respond id response =>
    (Pool.take? (·.id == id) app.service.tasks).map fun (task, tasks) =>
      app.respond task tasks response
  | .runBlock id =>
    (Pool.take? (·.id == id) app.service.mainQueue).map fun (block, mainQueue) =>
      app.runBlock block mainQueue

def machine (client : Client codec K) : Transition.Machine (App client) (Event client) := ⟨App.step⟩

theorem step_act {app next : App client} {a : client.Action}
    (step : (machine client).step app (.act a) = some next) :
    ∃ screen requests, client.act app.screen a = some (screen, requests) ∧
      next = ⟨requests.foldl load app.service, screen⟩ := by
  obtain ⟨⟨screen, requests⟩, acted, after⟩ := Option.map_eq_some_iff.mp step
  exact ⟨screen, requests, acted, after.symm⟩

theorem step_respond {app next : App client} {id : Nat} {response : Response codec}
    (step : (machine client).step app (.respond id response) = some next) :
    ∃ task tasks, Pool.take? (·.id == id) app.service.tasks = some (task, tasks) ∧
      next = app.respond task tasks response := by
  obtain ⟨⟨task, tasks⟩, taken, after⟩ := Option.map_eq_some_iff.mp step
  exact ⟨task, tasks, taken, after.symm⟩

theorem step_runBlock {app next : App client} {id : Nat}
    (step : (machine client).step app (.runBlock id) = some next) :
    ∃ block mainQueue, Pool.take? (·.id == id) app.service.mainQueue = some (block, mainQueue) ∧
      next = app.runBlock block mainQueue := by
  obtain ⟨⟨block, mainQueue⟩, taken, after⟩ := Option.map_eq_some_iff.mp step
  exact ⟨block, mainQueue, taken, after.symm⟩

/-- A client that does nothing without a value takes no notice of responses. -/
theorem App.respond_screen (app : App client)
    (ignores : ∀ s completion, client.complete s completion none = s) (task : DataTask codec K)
    (tasks : List (DataTask codec K)) (response : Response codec) :
    (app.respond task tasks response).screen = app.screen := by
  cases response with
  | data body => rfl
  | failure error => exact ignores app.screen task.completion

theorem foldl_load_invariant {P : State codec K → Prop}
    (loads : ∀ s request, P s → P (load s request)) (requests : List (Request codec K))
    {s : State codec K} (inv : P s) : P (requests.foldl load s) := by
  induction requests generalizing s with
  | nil => exact inv
  | cons request rest ih => exact ih (loads s request inv)

/-- What every load and every service step keep holds of the service after every
step of the app, whatever the client does. Answers may be restricted by `met`. -/
theorem service_invariant {P : State codec K → Prop}
    (met : State codec K → Nat → Response codec → Prop)
    (loads : ∀ s request, P s → P (load s request))
    (responds : ∀ {s : State codec K} {id task tasks response}, P s → met s id response →
      Pool.take? (·.id == id) s.tasks = some (task, tasks) →
      P (respond { s with tasks := tasks } task response))
    (blocks : ∀ {s : State codec K} {id block mainQueue}, P s →
      Pool.take? (·.id == id) s.mainQueue = some (block, mainQueue) →
      P (runBlock { s with mainQueue := mainQueue } block))
    {app next : App client} {e : Event client} (inv : P app.service)
    (permitted : ∀ id response, e = .respond id response → met app.service id response)
    (step : (machine client).step app e = some next) : P next.service := by
  cases e with
  | act a =>
    obtain ⟨screen, requests, -, rfl⟩ := step_act step
    exact foldl_load_invariant loads requests inv
  | respond id response =>
    obtain ⟨task, tasks, taken, rfl⟩ := step_respond step
    exact responds inv (permitted id response rfl) taken
  | runBlock id =>
    obtain ⟨block, mainQueue, taken, rfl⟩ := step_runBlock step
    exact blocks inv taken

end MoviesApp.NetworkService
