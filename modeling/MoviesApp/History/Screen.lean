import MoviesApp.History.Upload

/-! The history screen over the users collection. `getDataFromFirebase` reads once,
and its callback assigns `ids` and then `names`; the observers may reload the
table in between, so the two assignments are separate steps. -/
namespace MoviesApp.History
open Firestore

structure HistoryViewModel where
  ids : List String
  names : List String

/-- How far the single read that `viewDidLoad` starts has come. -/
inductive Stage where
  | created
  | reading
  | delivered (data : Option Document)
  | assigning (names : List String)
  | settled

structure HistoryVC where
  viewModel : HistoryViewModel
  /-- The user signed in at `viewDidLoad`, whose document is read. -/
  user : Option Uid
  stage : Stage

def HistoryVC.created : HistoryVC := ⟨⟨[], []⟩, none, .created⟩

def HistoryVC.viewDidLoad (vc : HistoryVC) (currentUser : Option Uid) : HistoryVC :=
  match currentUser with
  | some uid => { vc with user := some uid, stage := .reading }
  | none => { vc with stage := .settled }

/-- The callback up to the assignment of `ids`. -/
def HistoryVC.assignIds (vc : HistoryVC) (data : Option Document) : HistoryVC :=
  match (data.bind (· "history")).bind Value.asDictionary with
  | some history =>
    match (history.lookup "id").bind Value.asStrings,
        (history.lookup "name").bind Value.asStrings with
    | some ids, some names =>
      { vc with viewModel := { vc.viewModel with ids := ids }, stage := .assigning names }
    | _, _ => { vc with stage := .settled }
  | none => { vc with stage := .settled }

def HistoryVC.assignNames (vc : HistoryVC) (names : List String) : HistoryVC :=
  { vc with viewModel := { vc.viewModel with names := names }, stage := .settled }

def numberOfRowsInSection (viewModel : HistoryViewModel) : Nat := viewModel.names.length

/-- The title shown in a row; `none` is an index out of range, which traps. -/
def cellForRowAt (viewModel : HistoryViewModel) (row : Nat) : Option String :=
  viewModel.names[row]?

/-- The movie a tap on a row loads; `none` is an index out of range, which traps. -/
def didSelectRowAt (viewModel : HistoryViewModel) (row : Nat) : Option String :=
  viewModel.ids[row]?

structure App where
  backend : State
  screens : List HistoryVC

inductive AppAction where
  | backend (a : Action)
  | openHistory
  | viewDidLoad (n : Nat) (currentUser : Option Uid)
  | getDocument (n : Nat) (failed : Bool)
  | assignIds (n : Nat)
  | assignNames (n : Nat)

def App.start : App := ⟨History.start, []⟩

def App.setScreen (app : App) (n : Nat) (vc : HistoryVC) : App :=
  { app with screens := app.screens.set n vc }

/-- What one screen does next, if it is at that stage. -/
def HistoryVC.step (vc : HistoryVC) (users : Collection) : AppAction → Option HistoryVC
  | .viewDidLoad _ currentUser =>
    match vc.stage with
    | .created => some (vc.viewDidLoad currentUser)
    | _ => none
  | .getDocument _ failed =>
    match vc.stage, vc.user with
    | .reading, some uid =>
      some { vc with stage := .delivered (if failed then none else users uid) }
    | _, _ => none
  | .assignIds _ =>
    match vc.stage with
    | .delivered data => some (vc.assignIds data)
    | _ => none
  | .assignNames _ =>
    match vc.stage with
    | .assigning names => some (vc.assignNames names)
    | _ => none
  | .backend _ | .openHistory => none

def AppAction.screen : AppAction → Nat
  | .viewDidLoad n _ | .getDocument n _ | .assignIds n | .assignNames n => n
  | .backend _ | .openHistory => 0

def App.step (app : App) : AppAction → Option App
  | .backend a => (History.step app.backend a).map fun backend => { app with backend := backend }
  | .openHistory => some { app with screens := app.screens ++ [.created] }
  | a => (app.screens[a.screen]?).bind fun vc =>
      (vc.step app.backend.users a).map fun vc => app.setScreen a.screen vc

def system : Transition.Machine App AppAction := ⟨App.step⟩

end MoviesApp.History
