import MoviesApp.History.Owners
import MoviesApp.Screens.Recording

/-! Whose history a details screen writes. Screens, accounts and the users collection
run side by side: the observer on the cast reads the signed-in user when the reply is
in, not when the screen is opened, and the read and the write follow later still. -/
namespace MoviesApp.UserHistory
open NetworkService Firestore

/-- `openings` lists the movies that each user has opened a details screen for. -/
structure State where
  details : App Details.client
  currentUser : Option Uid
  history : History.State
  openings : List (Uid × String)

def State.start : State := ⟨⟨.empty, .start⟩, none, History.start, []⟩

/-- The uploads are no actions of their own: only a details screen starts them. -/
inductive Action where
  | signIn (uid : Uid)
  | signOut
  | details (e : Event Details.client)
  | backend (a : History.Action)

/-- The opening that an event of the screens adds. -/
def opened (currentUser : Option Uid) : Event Details.client → List (Uid × String)
  | .act (.open movieId) => currentUser.toList.map fun uid => (uid, movieId)
  | _ => []

/-- The calls of `uploadHistoryToFirebase` that an event of the screens makes. -/
def uploads (app : App Details.client) : Event Details.client → List (String × String)
  | .runBlock id =>
    match app.service.mainQueue.find? (·.id == id) with
    | some block =>
      let screen := app.screen.screens block.completion.screen
      (screen.complete block.completion (some block.value)).uploads.drop screen.uploads.length
    | none => []
  | _ => []

def step (s : State) : Action → Option State
  | .signIn uid => some { s with currentUser := some uid }
  | .signOut => some { s with currentUser := none }
  | .details e => (App.step s.details e).map fun details => { s with
      details := details
      openings := s.openings ++ opened s.currentUser e
      history := (uploads s.details e).foldl
        (fun history call => History.upload history s.currentUser call.1 call.2) s.history }
  | .backend (.upload ..) => none
  | .backend a => (History.step s.history a).map fun history => { s with history := history }

def machine : Transition.Machine State Action := ⟨step⟩

/-- A cast reply for a loaded screen whose movie is there, with id and title, finds nobody
signed in, or a user who has opened a screen for that movie. -/
def OwnScreen (s : State) : Action → Prop
  | .details (.runBlock id) => ∀ block ∈ s.details.service.mainQueue.find? (·.id == id),
      ∀ i, block.completion = .cast i → (s.details.screen.screens i).bound = true →
      ∀ movie movieId title, (s.details.screen.screens i).movie = some movie →
        movie.id = some movieId → movie.title = some title →
      ∀ uid, s.currentUser = some uid → (uid, toString movieId) ∈ s.openings
  | _ => True

/-- An upload is made only by a cast reply, for the movie of its bound screen. -/
theorem complete_uploads (s : Details.Screen) (completion : Details.Completion)
    (value : Option tmdb.Any) :
    (s.complete completion value).uploads = s.uploads ∨
    ∃ i movie id title, completion = .cast i ∧ s.bound = true ∧ s.movie = some movie ∧
      movie.id = some id ∧ movie.title = some title ∧
      (s.complete completion value).uploads = s.uploads ++ [(toString id, title)] := by
  cases completion with
  | movie i =>
    simp only [Details.Screen.complete]
    split <;> exact Or.inl rfl
  | reviews i =>
    simp only [Details.Screen.complete]
    split <;> exact Or.inl rfl
  | cast i =>
    cases arrived : received .cast value with
    | none => exact Or.inl (by simp only [Details.Screen.complete, arrived])
    | some cast =>
      simp only [Details.Screen.complete, arrived]
      split
      · rename_i bound
        unfold Details.castDidChange
        split
        · exact Or.inl rfl
        · rename_i movie present
          split
          · rename_i id title named titled
            exact Or.inr ⟨i, movie, id, title, rfl, bound, present, named, titled, rfl⟩
          · exact Or.inl rfl
      · exact Or.inl rfl

/-- What an event uploads is for a movie that the signed-in user has opened. -/
theorem uploads_opened {s : State} {e : Event Details.client} {uid : Uid}
    (own : OwnScreen s (.details e)) (user : s.currentUser = some uid) :
    ∀ call ∈ uploads s.details e, (uid, call.1) ∈ s.openings := by
  cases e with
  | act a => exact List.forall_mem_nil _
  | respond id response => exact List.forall_mem_nil _
  | runBlock id =>
    cases found : s.details.service.mainQueue.find? (·.id == id) with
    | none =>
      simp only [uploads, found]
      exact List.forall_mem_nil _
    | some block =>
      simp only [uploads, found]
      obtain same | ⟨i, movie, movieId, title, completion, bound, present, named, titled, added⟩ :=
        complete_uploads (s.details.screen.screens block.completion.screen) block.completion
          (some block.value)
      · rw [same, List.drop_length]
        exact List.forall_mem_nil _
      · rw [added, List.drop_left]
        intro call member
        cases List.mem_singleton.mp member
        rw [completion] at bound present
        exact own block found i completion bound movie movieId title present named titled uid user

/-- Calls for one user keep the history's invariants and are added to its calls. -/
theorem foldl_upload {history : History.State} (inv : History.Invariant history)
    (numbered : History.Numbered history) (currentUser : Option Uid)
    (calls : List (String × String)) :
    let after := calls.foldl
      (fun history call => History.upload history currentUser call.1 call.2) history
    History.Invariant after ∧ History.Numbered after ∧ after.users = history.users ∧
      ∀ call ∈ after.calls, call ∈ history.calls ∨ currentUser = some call.1 ∧ call.2 ∈ calls := by
  induction calls generalizing history with
  | nil => exact ⟨inv, numbered, rfl, fun call member => Or.inl member⟩
  | cons first rest ih =>
    have uploaded : (History.upload history currentUser first.1 first.2).users = history.users ∧
        ∀ call ∈ (History.upload history currentUser first.1 first.2).calls,
          call ∈ history.calls ∨ currentUser = some call.1 ∧ call.2 = first := by
      cases currentUser with
      | none => exact ⟨rfl, fun call member => Or.inl member⟩
      | some uid =>
        refine ⟨rfl, ?_⟩
        intro call member
        rcases List.mem_append.mp member with held | new
        · exact Or.inl held
        · cases List.mem_singleton.mp new
          exact Or.inr ⟨rfl, rfl⟩
    obtain ⟨inv, numbered, users, calls⟩ := ih
      (History.upload_invariant inv currentUser first.1 first.2)
      (History.upload_numbered numbered currentUser first.1 first.2)
    refine ⟨inv, numbered, users.trans uploaded.1, ?_⟩
    intro call member
    rcases calls call member with earlier | ⟨user, later⟩
    · exact (uploaded.2 call earlier).imp_right fun ⟨user, same⟩ =>
        ⟨user, same ▸ List.mem_cons_self⟩
    · exact Or.inr ⟨user, List.mem_cons_of_mem _ later⟩

/-- The history's own invariants, and that every operation leads back to its call. -/
structure Traceable (s : State) : Prop where
  invariant : History.Invariant s.history
  numbered : History.Numbered s.history

/-- Every call is for a movie that its user has opened a screen for. -/
def Owned (s : State) : Prop := ∀ call ∈ s.history.calls, (call.1, call.2.1) ∈ s.openings

/-- Steps of the backend make no calls. -/
theorem step_backend {s t : State} {a : History.Action} (step : machine.step s (.backend a) = some t) :
    ∃ history, History.step s.history a = some history ∧ history.calls = s.history.calls ∧
      t = { s with history := history } := by
  cases a with
  | upload => contradiction
  | register | updateAvatar =>
    cases Option.some.inj step
    exact ⟨_, rfl, rfl, rfl⟩
  | updateData serial failed =>
    obtain ⟨history, stepped, rfl⟩ := Option.map_eq_some_iff.mp step
    refine ⟨history, stepped, ?_, rfl⟩
    obtain ⟨⟨write, rest⟩, -, rfl⟩ := Option.map_eq_some_iff.mp stepped
    rfl
  | getDocument serial failed =>
    obtain ⟨history, stepped, rfl⟩ := Option.map_eq_some_iff.mp step
    refine ⟨history, stepped, ?_, rfl⟩
    obtain ⟨⟨call, rest⟩, -, rfl⟩ := Option.map_eq_some_iff.mp stepped
    obtain ⟨added, shape, -⟩ := History.delivered_cases s.history call rest failed
    dsimp only
    rw [shape]

theorem step_traceable {s t : State} {a : Action} (traceable : Traceable s)
    (step : machine.step s a = some t) : Traceable t := by
  cases a with
  | signIn | signOut =>
    cases Option.some.inj step
    exact ⟨traceable.invariant, traceable.numbered⟩
  | details e =>
    obtain ⟨details, -, rfl⟩ := Option.map_eq_some_iff.mp step
    obtain ⟨invariant, numbered, -, -⟩ := foldl_upload traceable.invariant traceable.numbered
      s.currentUser (uploads s.details e)
    exact ⟨invariant, numbered⟩
  | backend a =>
    obtain ⟨history, stepped, -, rfl⟩ := step_backend step
    exact ⟨History.step_invariant traceable.invariant stepped,
      History.step_numbered traceable.numbered stepped⟩

theorem step_owned {s t : State} {a : Action} (inv : Traceable s ∧ Owned s) (own : OwnScreen s a)
    (step : machine.step s a = some t) : Traceable t ∧ Owned t := by
  obtain ⟨traceable, owned⟩ := inv
  refine ⟨step_traceable traceable step, ?_⟩
  cases a with
  | signIn | signOut => cases Option.some.inj step; exact owned
  | details e =>
    obtain ⟨details, -, rfl⟩ := Option.map_eq_some_iff.mp step
    obtain ⟨-, -, -, calls⟩ := foldl_upload traceable.invariant traceable.numbered
      s.currentUser (uploads s.details e)
    intro call member
    apply List.mem_append_left
    rcases calls call member with earlier | ⟨user, new⟩
    · exact owned call earlier
    · exact uploads_opened own user call.2 new
  | backend a =>
    obtain ⟨history, -, calls, rfl⟩ := step_backend step
    exact fun call member => owned call (calls ▸ member)

/-- The user for whom the operation behind a step was started. -/
def startedFor (s : State) : Action → Option Uid
  | .backend a => History.startedFor s.history a
  | _ => none

/-- A step changes no document but that of the user its operation was started for. -/
theorem step_users_other {s t : State} {a : Action} {uid : Uid} (traceable : Traceable s)
    (step : machine.step s a = some t) (other : startedFor s a ≠ some uid) :
    t.history.users uid = s.history.users uid := by
  cases a with
  | signIn | signOut => cases Option.some.inj step; rfl
  | details e =>
    obtain ⟨details, -, rfl⟩ := Option.map_eq_some_iff.mp step
    obtain ⟨-, -, users, -⟩ := foldl_upload traceable.invariant traceable.numbered
      s.currentUser (uploads s.details e)
    exact congrFun users uid
  | backend a =>
    obtain ⟨history, stepped, -, rfl⟩ := step_backend step
    exact History.users_other traceable.numbered stepped other

theorem start_traceable : Traceable .start :=
  ⟨History.start_invariant, List.forall_mem_nil _, List.forall_mem_nil _⟩

/-- For every run of account switches, screens, replies, reads and writes: no step changes
another user's document, and where each cast reply finds the movie's screen opened by the
user signed in, every entry of a history is of a movie its user has opened. -/
theorem histories_apart {acts : List Action} {s : State} (run : machine.run .start acts = some s) :
    (∀ a t uid, machine.step s a = some t → startedFor s a ≠ some uid →
      t.history.users uid = s.history.users uid) ∧
    (machine.Along OwnScreen .start acts →
      ∀ uid document, s.history.users uid = some document →
        ∃ entries, History.readHistory (some document) = some entries ∧
          ∀ entry ∈ entries, (uid, entry.1) ∈ s.openings) := by
  have traceable := Transition.Machine.run_invariant step_traceable run start_traceable
  refine ⟨fun a t uid step other => step_users_other traceable step other, ?_⟩
  intro along uid document found
  obtain ⟨-, owned⟩ := Transition.Machine.run_invariant_along step_owned run along
    ⟨start_traceable, List.forall_mem_nil _⟩
  obtain ⟨entries, read, called⟩ := (traceable.invariant.documents uid document found).entries
  exact ⟨entries, read, fun entry member => owned _ (called entry member)⟩

/-- Two accounts; one opens the movie's screen and `reader` is signed in for the cast reply. -/
def watching (reader : Uid) : List Action :=
  [.backend (.register "u" "Ann" "Lee"), .backend (.register "v" "Bob" "Unger"), .signIn "u",
    .details (.act (.open "949")), .details (.respond 0 (.data Details.movieDetails)),
    .details (.runBlock 0), .details (.act (.viewDidLoad 0)), .signIn reader,
    .details (.respond 1 (.data Details.noCast)), .details (.runBlock 1),
    .backend (.getDocument 0 false), .backend (.updateData 0 false)]

theorem histories_apart_same_user : ∃ s, machine.run .start (watching "u") = some s ∧
    ∃ document entries, s.history.users "u" = some document ∧
      History.readHistory (some document) = some entries ∧ entries = [("949", "Heat")] ∧
      ∀ entry ∈ entries, ("u", entry.1) ∈ s.openings := by
  have observed : ((machine.run .start (watching "u")).bind fun s =>
      History.readHistory (s.history.users "u")) = some [("949", "Heat")] := by
    decide +kernel
  have own : machine.Along OwnScreen .start (watching "u") := by
    refine ⟨trivial, trivial, trivial, trivial, trivial, ?_, trivial, trivial, trivial, ?_,
      trivial, trivial, trivial⟩
    · intro block found i completion
      cases found
      contradiction
    · intro block found i completion bound movie movieId title present named titled uid user
      cases found
      cases completion
      cases present
      cases named
      cases user
      decide +kernel
  obtain ⟨s, run, seen⟩ := Option.bind_eq_some_iff.mp observed
  obtain ⟨document, found, -⟩ := Option.bind_eq_some_iff.mp seen
  rw [found] at seen
  obtain ⟨entries, read, opened⟩ := (histories_apart run).2 own "u" document found
  exact ⟨s, run, document, entries, found, read, Option.some.inj (read.symm.trans seen), opened⟩

/-- The cast reply comes after the switch, and Ann's movie lands in Bob's history. -/
theorem history_of_other_user : ∃ s, machine.run .start (watching "v") = some s ∧
    s.openings = [("u", "949")] ∧ ∃ document, s.history.users "v" = some document ∧
      History.readHistory (some document) = some [("949", "Heat")] ∧ ("v", "949") ∉ s.openings := by
  have observed : ((machine.run .start (watching "v")).map fun s =>
      (History.readHistory (s.history.users "v"), s.openings)) =
      some (some [("949", "Heat")], [("u", "949")]) := by
    decide +kernel
  obtain ⟨s, run, seen⟩ := Option.map_eq_some_iff.mp observed
  obtain ⟨read, openings⟩ := Prod.mk.inj seen
  obtain ⟨document, found, -⟩ := Option.bind_eq_some_iff.mp read
  rw [found] at read
  refine ⟨s, run, openings, document, found, read, ?_⟩
  rw [openings]
  decide

end MoviesApp.UserHistory
