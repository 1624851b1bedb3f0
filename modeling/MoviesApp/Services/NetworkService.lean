import MoviesApp.Pool
import MoviesApp.URL
import Mathlib.Logic.Function.Basic

/-! `NetworkService.load` with its static cache. A call looks the cache up at once;
a data task answers later on the session's own queue, and values reach their
completion in blocks on the main queue. Tasks answer and blocks run in any order. -/
namespace MoviesApp

/-- The Codable types `load` is used with, and how a body decodes as each. -/
structure Codec where
  Body : Type
  Model : Type
  Value : Model → Type
  decode : (model : Model) → Body → Option (Value model)
  [decEq : DecidableEq Model]

attribute [instance] Codec.decEq

/-- A Codable value with its dynamic type, as the cache stores it. -/
abbrev Codec.Any (codec : Codec) := Σ model, codec.Value model

/-- The cast `as? T` of a cached value. The models are structs, so it succeeds
exactly for the type that was stored. -/
def Codec.cast? (codec : Codec) (model : codec.Model) (entry : codec.Any) :
    Option (codec.Value model) :=
  if same : entry.1 = model then some (same ▸ entry.2) else none

theorem Codec.cast?_eq_some {codec : Codec} {model : codec.Model} {entry : codec.Any}
    {value : codec.Value model} : codec.cast? model entry = some value ↔ entry = ⟨model, value⟩ := by
  obtain ⟨stored, content⟩ := entry
  unfold cast?
  constructor
  · intro cast
    split at cast
    · rename_i same
      change stored = model at same
      subst same
      cases cast
      rfl
    · contradiction
  · intro same
    cases same
    rw [dif_pos rfl]

namespace NetworkService
variable (codec : Codec) (K : Type)

inductive Queue where
  | main
  | session
  deriving DecidableEq

structure URLError where
  code : Int
  deriving DecidableEq

/-- One call of `load`; `completion` names its completion closure. -/
structure Request where
  url : Option URL
  model : codec.Model
  completion : K

/-- A resumed data task that has not called back. -/
structure DataTask where
  id : Nat
  url : URL
  model : codec.Model
  completion : K

/-- A block on the main queue that calls the completion with a value and no error. -/
structure Block where
  id : Nat
  completion : K
  value : codec.Any

/-- How a call leaves `load`. -/
inductive Exit where
  | urlAbsent
  | cacheHit
  | decoded
  | undecodable
  | transport
  deriving DecidableEq

/-- One invocation of a completion: the call, the queue and the two arguments. -/
structure Invocation where
  id : Nat
  completion : K
  queue : Queue
  value : Option codec.Any
  error : Option URLError

/-- The cache, the tasks and the main queue, with the ledger of all calls (a call's
identifier is its position), of the exits taken and of the completions invoked. -/
structure State where
  cache : URL → Option codec.Any
  tasks : List (DataTask codec K)
  mainQueue : List (Block codec K)
  calls : List (Request codec K)
  exits : List (Nat × Exit)
  invoked : List (Invocation codec K)

/-- What a data task delivers: a body without an error, or an error without a body. -/
inductive Response where
  | data (body : codec.Body)
  | failure (error : URLError)

variable {codec K}

/-- No call made yet; the cache may hold anything. -/
def State.start (cache : URL → Option codec.Any) : State codec K := ⟨cache, [], [], [], [], []⟩

def State.empty : State codec K := .start fun _ => none

def load (s : State codec K) (request : Request codec K) : State codec K :=
  let id := s.calls.length
  let called := { s with calls := s.calls ++ [request] }
  match request.url with
  | none => { called with exits := s.exits ++ [(id, .urlAbsent)] }
  | some url =>
    match (s.cache url).bind (codec.cast? request.model) with
    | some result => { called with
        exits := s.exits ++ [(id, .cacheHit)]
        mainQueue := s.mainQueue ++ [⟨id, request.completion, ⟨request.model, result⟩⟩] }
    | none => { called with
        tasks := s.tasks ++ [⟨id, url, request.model, request.completion⟩] }

/-- The data task's callback, on the session queue. A body that does not decode is
only printed, and a failure calls the completion right here. -/
def respond (s : State codec K) (task : DataTask codec K) : Response codec → State codec K
  | .data body =>
    match codec.decode task.model body with
    | some result => { s with
        cache := Function.update s.cache task.url (some ⟨task.model, result⟩)
        exits := s.exits ++ [(task.id, .decoded)]
        mainQueue := s.mainQueue ++ [⟨task.id, task.completion, ⟨task.model, result⟩⟩] }
    | none => { s with exits := s.exits ++ [(task.id, .undecodable)] }
  | .failure error => { s with
      exits := s.exits ++ [(task.id, .transport)]
      invoked := s.invoked ++ [⟨task.id, task.completion, .session, none, some error⟩] }

/-- The completion a block on the main queue calls. -/
def Block.invocation (block : Block codec K) : Invocation codec K :=
  ⟨block.id, block.completion, .main, some block.value, none⟩

def runBlock (s : State codec K) (block : Block codec K) : State codec K :=
  { s with invoked := s.invoked ++ [block.invocation] }

/-- The three ways through `load`. -/
theorem load_cases (s : State codec K) (request : Request codec K) :
    (request.url = none ∧ load s request = { s with
      calls := s.calls ++ [request]
      exits := s.exits ++ [(s.calls.length, .urlAbsent)] }) ∨
    (∃ url result, request.url = some url ∧
      (s.cache url).bind (codec.cast? request.model) = some result ∧ load s request = { s with
        calls := s.calls ++ [request]
        exits := s.exits ++ [(s.calls.length, .cacheHit)]
        mainQueue := s.mainQueue ++
          [⟨s.calls.length, request.completion, ⟨request.model, result⟩⟩] }) ∨
    (∃ url, request.url = some url ∧ (s.cache url).bind (codec.cast? request.model) = none ∧
      load s request = { s with
        calls := s.calls ++ [request]
        tasks := s.tasks ++ [⟨s.calls.length, url, request.model, request.completion⟩] }) := by
  cases absent : request.url with
  | none => exact Or.inl ⟨rfl, by simp only [load, absent]⟩
  | some url =>
    cases hit : (s.cache url).bind (codec.cast? request.model) with
    | some result => exact Or.inr (Or.inl ⟨url, result, rfl, hit, by simp only [load, absent, hit]⟩)
    | none => exact Or.inr (Or.inr ⟨url, rfl, hit, by simp only [load, absent, hit]⟩)

theorem respond_decoded {s : State codec K} {task : DataTask codec K} {body : codec.Body}
    {result : codec.Value task.model} (decoded : codec.decode task.model body = some result) :
    respond s task (.data body) = { s with
      cache := Function.update s.cache task.url (some ⟨task.model, result⟩)
      exits := s.exits ++ [(task.id, .decoded)]
      mainQueue := s.mainQueue ++ [⟨task.id, task.completion, ⟨task.model, result⟩⟩] } := by
  simp only [respond, decoded]

/-- The three ways through the data task's callback. -/
theorem respond_cases (s : State codec K) (task : DataTask codec K) (response : Response codec) :
    (∃ error, response = .failure error ∧ respond s task response = { s with
      exits := s.exits ++ [(task.id, .transport)]
      invoked := s.invoked ++ [⟨task.id, task.completion, .session, none, some error⟩] }) ∨
    (∃ body result, response = .data body ∧ codec.decode task.model body = some result ∧
      respond s task response = { s with
        cache := Function.update s.cache task.url (some ⟨task.model, result⟩)
        exits := s.exits ++ [(task.id, .decoded)]
        mainQueue := s.mainQueue ++ [⟨task.id, task.completion, ⟨task.model, result⟩⟩] }) ∨
    (∃ body, response = .data body ∧ codec.decode task.model body = none ∧
      respond s task response = { s with exits := s.exits ++ [(task.id, .undecodable)] }) := by
  cases response with
  | failure error => exact Or.inl ⟨error, rfl, rfl⟩
  | data body =>
    cases decoded : codec.decode task.model body with
    | some result =>
      exact Or.inr (Or.inl ⟨body, result, rfl, decoded, respond_decoded decoded⟩)
    | none => exact Or.inr (Or.inr ⟨body, rfl, decoded, by simp only [respond, decoded]⟩)

end NetworkService
end MoviesApp
