import MoviesApp.Screens.LastAccount

/-! Signing in, from login screens and by the button for the last account, against the accounts
that Firebase has. Requests cross, passwords change elsewhere, and the app restarts; the
keychain holds credentials of its accounts only, so the button brings back the account it
remembers or nobody. -/
namespace MoviesApp.SignIn
open Firestore Locksmith

/-- A login screen with its view model's flag. `alerts` have been shown so far, and `presented`
is still up. The user may have left the screen. -/
structure LoginVC where
  errorLabel : Option String
  success : Bool
  alerts : List (String × String)
  presented : Option (String × String)
  left : Bool

def LoginVC.opened : LoginVC := ⟨none, true, [], none, false⟩

def checkValid (email password : Option String) : Option String :=
  if email ≠ some "" ∧ password ≠ some "" then some "" else some "Please fill in all fiels"

/-- The alert that the completion sets up. -/
def alert (success : Bool) : String × String :=
  if success then ("Welcome!", "") else ("Error", "Connection error")

/-- UIKit refuses to present an alert while one is up; whether it can show the screen at all is
for UIKit to say. -/
def LoginVC.setupAlert (vc : LoginVC) (alert : String × String) (presentable : Bool) : LoginVC :=
  if presentable ∧ vc.presented = none then
    { vc with alerts := vc.alerts ++ [alert], presented := some alert }
  else vc

/-- The alert's button dismisses it, and after a success goes back. -/
def LoginVC.okButton (vc : LoginVC) (shown : String × String) : LoginVC :=
  { vc with presented := none, left := vc.left || shown == alert true }

/-- Where a request comes from: a login screen, or the button, with the uid it remembers. -/
inductive Origin where
  | loginScreen (screen : Nat)
  | lastAccount (userUid : Uid)
  deriving DecidableEq

structure Request where
  origin : Origin
  email : String
  password : String
  deriving DecidableEq

/-- A request under way; `serial` is its position among all requests. -/
structure Call extends Request where
  serial : Nat

/-- Firebase's accounts by their email, with uid and password. -/
abbrev Server := String → Option (Uid × String)

def updatePassword (server : Server) (email password : String) : Server :=
  Function.update server email ((server email).map fun account => (account.1, password))

/-- `made` and `results` are the requests so far and the answers delivered so far. -/
structure State where
  profile : Profile.State
  keychain : Keychain
  server : Server
  screens : List LoginVC
  calls : List Call
  made : List Request
  results : List (Origin × Option Uid)

/-- An app just installed. -/
def State.start (server : Server) : State := ⟨.start none, fun _ => none, server, [], [], [], []⟩

/-- A registration signs its new account in; passwords are changed elsewhere. -/
inductive Action where
  | createUser (email password : String) (uid : Uid)
  | updatePassword (email password : String)
  | openLogin
  | leave (screen : Nat)
  | loginButtonDidTapped (screen : Nat) (email password : Option String)
  | okButton (screen : Nat)
  | signInLastAccButtonDidTapped
  | completion (serial : Nat) (connected presentable : Bool)
  | signOut
  | notify
  | restart

def request (s : State) (origin : Origin) (email password : String) : State :=
  { s with
    calls := s.calls ++ [⟨⟨origin, email, password⟩, s.made.length⟩]
    made := s.made ++ [⟨origin, email, password⟩] }

/-- A form that the check rejects goes no further than the label. -/
def loginButtonDidTapped (s : State) (screen : Nat) (vc : LoginVC) (email password : Option String) :
    State :=
  let shown := { s with
    screens := s.screens.set screen { vc with errorLabel := checkValid email password } }
  if checkValid email password ≠ some "" then shown
  else match email, password with
    | some email, some password => request shown (.loginScreen screen) email password
    | _, _ => shown

/-- A screen that is gone shows no alert; its view model is kept by the closure. -/
def LoginVC.completed (vc : LoginVC) (success presentable : Bool) : LoginVC :=
  let vc := { vc with success := success }
  if vc.left then vc else vc.setupAlert (alert success) presentable

/-- The completion of Firebase's `signIn`. Only the login screen's view model saves. -/
def completed (s : State) (call : Call) (result : Option Uid) (presentable : Bool) : State :=
  let done := { s with results := s.results ++ [(call.origin, result)] }
  match call.origin with
  | .lastAccount _ => done
  | .loginScreen screen => match s.screens[screen]? with
    | none => done
    | some vc =>
      let (login, success) := Login.signIn ⟨vc.success, s.keychain⟩ call.email call.password result
      { done with
        keychain := login.keychain
        screens := s.screens.set screen (vc.completed success presentable) }

variable (users : Collection) (authenticate : Server → String → String → Option Uid)

/-- Firebase makes the account the current user before it calls back. -/
def authenticated (s : State) : Option Uid → Option State
  | some uid => (Profile.step users s.profile (.signIn uid)).map fun profile =>
      { s with profile := profile }
  | none => some s

/-- `authenticate` is Firebase's answer, if it can be reached. A restart closes the screens and
ends the requests under way. -/
def step (s : State) : Action → Option State
  | .createUser email password uid =>
    if s.server email = none then
      authenticated users { s with server := Function.update s.server email (some (uid, password)) } uid
    else none
  | .updatePassword email password =>
    some { s with server := SignIn.updatePassword s.server email password }
  | .openLogin => some { s with screens := s.screens ++ [.opened] }
  | .leave screen => (s.screens[screen]?).map fun vc =>
      { s with screens := s.screens.set screen { vc with left := true } }
  | .loginButtonDidTapped screen email password => (s.screens[screen]?).bind fun vc =>
      if vc.left then none else some (loginButtonDidTapped s screen vc email password)
  | .okButton screen => (s.screens[screen]?).bind fun vc =>
      if vc.left then none
      else vc.presented.map fun shown =>
        { s with screens := s.screens.set screen (vc.okButton shown) }
  | .signInLastAccButtonDidTapped => match LastAccount.singIn s.profile s.keychain with
    | some (email, password) => some (request s (.lastAccount s.profile.userUid) email password)
    | none => some s
  | .completion serial connected presentable =>
    (Pool.take? (·.serial == serial) s.calls).bind fun (call, calls) =>
      let result := if connected then authenticate s.server call.email call.password else none
      (authenticated users { s with calls := calls } result).map fun s =>
        completed s call result presentable
  | .signOut => (Profile.step users s.profile .signOut).map fun profile => { s with profile := profile }
  | .notify => (Profile.step users s.profile .notify).map fun profile => { s with profile := profile }
  | .restart => some { s with
      profile := .start s.profile.currentUser
      screens := s.screens.map fun vc => { vc with left := true }
      calls := [] }

def machine : Transition.Machine State Action := ⟨step users authenticate⟩

/-- The account that Firebase has under the email. -/
def Owner (server : Server) (email : String) (uid : Uid) : Prop :=
  ∃ password, server email = some (uid, password)

/-- Firebase signs in the account of the email, or nobody. -/
def Knows : Prop := ∀ server email password uid,
  authenticate server email password = some uid → Owner server email uid

/-- Credentials of an account, typed into a login screen and accepted once. -/
structure Typed (server : Server) (made : List Request) (results : List (Origin × Option Uid))
    (uid : Uid) (email password : String) : Prop where
  owner : Owner server email uid
  filled : email ≠ "" ∧ password ≠ ""
  made : ∃ screen, ⟨.loginScreen screen, email, password⟩ ∈ made
  accepted : ∃ screen, (.loginScreen screen, some uid) ∈ results

/-- A request is that of a filled form, or repeats one for the account that is remembered. -/
def Proper (server : Server) (made : List Request) (results : List (Origin × Option Uid))
    (request : Request) : Prop :=
  match request.origin with
  | .loginScreen _ => request.email ≠ "" ∧ request.password ≠ ""
  | .lastAccount userUid => Typed server made results userUid request.email request.password

structure Inv (s : State) : Prop where
  calls : ∀ call ∈ s.calls, call.toRequest ∈ s.made
  screens : ∀ call ∈ s.calls, ∀ screen, call.origin = .loginScreen screen → screen < s.screens.length
  made : ∀ request ∈ s.made, Proper s.server s.made s.results request
  saved : ∀ uid data, s.keychain uid = some data → ∃ email password,
    data = [("email", email), ("password", password)] ∧
      Typed s.server s.made s.results uid email password
  kept : ∀ screen uid, (.loginScreen screen, some uid) ∈ s.results → (s.keychain uid).isSome
  returned : ∀ userUid uid, (.lastAccount userUid, some uid) ∈ s.results →
    uid = userUid ∧ ∃ screen, (.loginScreen screen, some uid) ∈ s.results

variable {users authenticate} {s t : State} {a : Action} {server later : Server} {made more : List Request}
  {results further : List (Origin × Option Uid)} {email password : String} {uid : Uid}

theorem start_inv (server : Server) : Inv (.start server) where
  calls := List.forall_mem_nil _
  screens := List.forall_mem_nil _
  made := List.forall_mem_nil _
  saved _ _ none := absurd none (Option.some_ne_none _).symm
  kept _ _ none := absurd none List.not_mem_nil
  returned _ _ none := absurd none List.not_mem_nil

/-- No account of Firebase's loses its email. -/
def Grows (server later : Server) : Prop := ∀ email uid, Owner server email uid → Owner later email uid

theorem Typed.mono (typed : Typed server made results uid email password) (grows : Grows server later)
    (madeMore : made ⊆ more) (resultsMore : results ⊆ further) :
    Typed later more further uid email password := by
  obtain ⟨screen, listed⟩ := typed.made
  obtain ⟨accepting, accepted⟩ := typed.accepted
  exact ⟨grows email uid typed.owner, typed.filled, ⟨screen, madeMore listed⟩,
    ⟨accepting, resultsMore accepted⟩⟩

theorem Proper.mono {request : Request} (proper : Proper server made results request)
    (grows : Grows server later) (madeMore : made ⊆ more) (resultsMore : results ⊆ further) :
    Proper later more further request := by
  unfold Proper at proper ⊢
  cases origin : request.origin with
  | loginScreen screen =>
    rw [origin] at proper
    exact proper
  | lastAccount userUid =>
    rw [origin] at proper
    exact proper.mono grows madeMore resultsMore

theorem grows_createUser (absent : server email = none) (uid : Uid) (password : String) :
    Grows server (Function.update server email (some (uid, password))) := by
  rintro other owner ⟨right, found⟩
  refine ⟨right, ?_⟩
  rw [Function.update_of_ne ?_, found]
  rintro rfl
  rw [absent] at found
  contradiction

theorem grows_updatePassword (server : Server) (email password : String) :
    Grows server (updatePassword server email password) := by
  rintro other owner ⟨right, found⟩
  unfold updatePassword
  by_cases same : other = email
  · subst same
    refine ⟨password, ?_⟩
    rw [Function.update_self, found]
    rfl
  · exact ⟨right, by rw [Function.update_of_ne same, found]⟩

theorem authenticated_cases {result : Option Uid} (signed : authenticated users s result = some t) :
    ∃ profile, t = { s with profile := profile } := by
  cases result with
  | none =>
    cases signed
    exact ⟨s.profile, rfl⟩
  | some uid =>
    cases signed
    exact ⟨_, rfl⟩

/-- Neither a tap on a form nor an answer. -/
def Action.Other : Action → Prop
  | .loginButtonDidTapped _ _ _ | .completion _ _ _ => False
  | _ => True

variable (authenticate) in
/-- What a step does: something elsewhere, to a login screen, or to the requests. -/
inductive Stepped (s : State) : Action → State → Prop where
  | elsewhere {a : Action} (other : a.Other) (profile : Profile.State) (server : Server)
      (grows : Grows s.server server) : Stepped s a { s with profile := profile, server := server }
  | opened : Stepped s .openLogin { s with screens := s.screens ++ [.opened] }
  | left (screen : Nat) (vc : LoginVC) (found : s.screens[screen]? = some vc) :
      Stepped s (.leave screen) { s with screens := s.screens.set screen { vc with left := true } }
  | tapped (screen : Nat) (vc : LoginVC) (email password : Option String)
      (found : s.screens[screen]? = some vc) :
      Stepped s (.loginButtonDidTapped screen email password)
        (loginButtonDidTapped s screen vc email password)
  | dismissed (screen : Nat) (vc : LoginVC) (shown : String × String)
      (found : s.screens[screen]? = some vc) (up : vc.presented = some shown) :
      Stepped s (.okButton screen) { s with screens := s.screens.set screen (vc.okButton shown) }
  | button (email password : String)
      (found : LastAccount.singIn s.profile s.keychain = some (email, password)) :
      Stepped s .signInLastAccButtonDidTapped
        (request s (.lastAccount s.profile.userUid) email password)
  | answered (serial : Nat) (connected presentable : Bool) (call : Call) (calls : List Call)
      (profile : Profile.State) (result : Option Uid)
      (taken : Pool.take? (·.serial == serial) s.calls = some (call, calls))
      (answer : ∀ uid, result = some uid →
        authenticate s.server call.email call.password = some uid) :
      Stepped s (.completion serial connected presentable)
        (completed { s with profile := profile, calls := calls } call result presentable)
  | restarted : Stepped s .restart { s with
      profile := .start s.profile.currentUser
      screens := s.screens.map fun vc => { vc with left := true }
      calls := [] }

theorem step_stepped (step : (machine users authenticate).step s a = some t) :
    Stepped authenticate s a t := by
  have same : Grows s.server s.server := fun _ _ owner => owner
  cases a with
  | createUser email password uid =>
    obtain ⟨absent, signed⟩ := Option.ite_none_right_eq_some.mp step
    obtain ⟨profile, rfl⟩ := authenticated_cases signed
    exact .elsewhere (by trivial) profile _ (grows_createUser absent uid password)
  | updatePassword email password =>
    cases step
    exact .elsewhere (by trivial) s.profile _ (grows_updatePassword s.server email password)
  | openLogin =>
    cases step
    exact .opened
  | leave screen =>
    obtain ⟨vc, found, rfl⟩ := Option.map_eq_some_iff.mp step
    exact .left screen vc found
  | loginButtonDidTapped screen email password =>
    obtain ⟨vc, found, tapped⟩ := Option.bind_eq_some_iff.mp step
    obtain ⟨-, tapped⟩ := Option.ite_none_left_eq_some.mp tapped
    obtain rfl := Option.some.inj tapped
    exact .tapped screen vc email password found
  | okButton screen =>
    obtain ⟨vc, found, dismissed⟩ := Option.bind_eq_some_iff.mp step
    obtain ⟨-, dismissed⟩ := Option.ite_none_left_eq_some.mp dismissed
    obtain ⟨shown, up, rfl⟩ := Option.map_eq_some_iff.mp dismissed
    exact .dismissed screen vc shown found up
  | signInLastAccButtonDidTapped =>
    simp only [machine, SignIn.step] at step
    split at step
    · rename_i found
      cases step
      exact .button _ _ found
    · cases step
      exact .elsewhere (by trivial) s.profile s.server same
  | completion serial connected presentable =>
    obtain ⟨⟨call, calls⟩, taken, step⟩ := Option.bind_eq_some_iff.mp step
    obtain ⟨signed, authentic, rfl⟩ := Option.map_eq_some_iff.mp step
    obtain ⟨profile, rfl⟩ := authenticated_cases authentic
    refine .answered serial connected presentable call calls profile _ taken ?_
    intro uid succeeded
    cases connected with
    | false => contradiction
    | true => exact succeeded
  | signOut =>
    obtain ⟨profile, -, rfl⟩ := Option.map_eq_some_iff.mp step
    exact .elsewhere (by trivial) profile s.server same
  | notify =>
    obtain ⟨profile, -, rfl⟩ := Option.map_eq_some_iff.mp step
    exact .elsewhere (by trivial) profile s.server same
  | restart =>
    cases step
    exact .restarted

/-- Another screen, and accounts that have their emails still. -/
theorem Inv.frame (inv : Inv s) (profile : Profile.State) (grows : Grows s.server later)
    {screens : List LoginVC} (more : s.screens.length ≤ screens.length) :
    Inv { s with profile := profile, server := later, screens := screens } where
  calls := inv.calls
  screens call member screen listed := Nat.lt_of_lt_of_le (inv.screens call member screen listed) more
  made request member :=
    (inv.made request member).mono grows (List.Subset.refl _) (List.Subset.refl _)
  saved uid data stored := by
    obtain ⟨email, password, same, typed⟩ := inv.saved uid data stored
    exact ⟨email, password, same, typed.mono grows (List.Subset.refl _) (List.Subset.refl _)⟩
  kept := inv.kept
  returned := inv.returned

theorem Inv.request (inv : Inv s) {origin : Origin}
    (proper : Proper s.server (s.made ++ [⟨origin, email, password⟩]) s.results
      ⟨origin, email, password⟩)
    (listed : ∀ screen, origin = .loginScreen screen → screen < s.screens.length) :
    Inv (request s origin email password) := by
  have more : s.made ⊆ s.made ++ [⟨origin, email, password⟩] := List.subset_append_left _ _
  refine { inv with calls := ?_, screens := ?_, made := ?_, saved := ?_ }
  · exact Pool.forall_snoc (fun call member => more (inv.calls call member))
      (List.mem_append_right _ (List.mem_singleton.mpr rfl))
  · exact Pool.forall_snoc inv.screens listed
  · exact Pool.forall_snoc
      (fun request member => (inv.made request member).mono (fun _ _ owner => owner) more
        (List.Subset.refl _)) proper
  · intro uid data stored
    obtain ⟨email, password, same, typed⟩ := inv.saved uid data stored
    exact ⟨email, password, same, typed.mono (fun _ _ owner => owner) more (List.Subset.refl _)⟩

theorem checkValid_iff : checkValid (some email) (some password) = some "" ↔
    email ≠ "" ∧ password ≠ "" := by
  unfold checkValid
  split
  · rename_i filled
    refine iff_of_true rfl ⟨?_, ?_⟩
    · exact fun empty => filled.1 (congrArg some empty)
    · exact fun empty => filled.2 (congrArg some empty)
  · rename_i unfilled
    refine iff_of_false (by decide) fun filled => unfilled ⟨?_, ?_⟩
    · exact fun empty => filled.1 (Option.some.inj empty)
    · exact fun empty => filled.2 (Option.some.inj empty)

/-- A tap changes the label, and submits the form if both fields are filled. -/
theorem login_cases (s : State) (screen : Nat) (vc : LoginVC) (email password : Option String) :
    let shown := { s with
      screens := s.screens.set screen { vc with errorLabel := checkValid email password } }
    (loginButtonDidTapped s screen vc email password = shown ∧
      ∀ mail secret, email = some mail → password = some secret → ¬ (mail ≠ "" ∧ secret ≠ "")) ∨
    ∃ mail secret, email = some mail ∧ password = some secret ∧ (mail ≠ "" ∧ secret ≠ "") ∧
      loginButtonDidTapped s screen vc email password =
        request shown (.loginScreen screen) mail secret := by
  intro shown
  unfold loginButtonDidTapped
  by_cases valid : checkValid email password = some ""
  · rw [if_neg (not_not.mpr valid)]
    cases email with
    | none => exact Or.inl ⟨rfl, fun _ _ none => absurd none (Option.some_ne_none _).symm⟩
    | some mail =>
      cases password with
      | none => exact Or.inl ⟨rfl, fun _ _ _ none => absurd none (Option.some_ne_none _).symm⟩
      | some secret => exact Or.inr ⟨mail, secret, rfl, rfl, checkValid_iff.mp valid, rfl⟩
  · rw [if_pos valid]
    refine Or.inl ⟨rfl, ?_⟩
    rintro mail secret rfl rfl filled
    exact valid (checkValid_iff.mpr filled)

theorem Inv.login (inv : Inv s) {screen : Nat} {vc : LoginVC} (found : s.screens[screen]? = some vc)
    (email password : Option String) : Inv (loginButtonDidTapped s screen vc email password) := by
  have shown (changed : LoginVC) : Inv { s with screens := s.screens.set screen changed } :=
    inv.frame s.profile (fun _ _ owner => owner) (Nat.le_of_eq (List.length_set ..).symm)
  obtain ⟨same, -⟩ | ⟨mail, secret, rfl, rfl, filled, same⟩ := login_cases s screen vc email password
  · rw [same]
    exact shown _
  · rw [same]
    refine (shown _).request filled ?_
    rintro other ⟨⟩
    rw [List.length_set]
    exact (List.getElem?_eq_some_iff.mp found).1

/-- The button submits what the keychain has for the uid that is remembered. -/
theorem singIn_eq_some {profile : Profile.State} {keychain : Keychain}
    (found : LastAccount.singIn profile keychain = some (email, password)) :
    ∃ data, keychain profile.userUid = some data ∧ data.lookup "email" = some email ∧
      data.lookup "password" = some password := by
  simp only [LastAccount.singIn, loadDataForUserAccount, Option.bind_eq_bind,
    Option.bind_eq_some_iff] at found
  obtain ⟨data, stored, mail, hasEmail, secret, hasPassword, same⟩ := found
  cases Option.some.inj same
  exact ⟨data, stored, hasEmail, hasPassword⟩

theorem Inv.button (inv : Inv s)
    (found : LastAccount.singIn s.profile s.keychain = some (email, password)) :
    Inv (SignIn.request s (.lastAccount s.profile.userUid) email password) := by
  obtain ⟨data, stored, hasEmail, hasPassword⟩ := singIn_eq_some found
  obtain ⟨mail, secret, rfl, typed⟩ := inv.saved s.profile.userUid data stored
  cases hasEmail
  cases hasPassword
  refine inv.request ?_ fun _ other => absurd other (by simp)
  exact typed.mono (fun _ _ owner => owner) (List.subset_append_left _ _) (List.Subset.refl _)

/-- An entry after a completion was there before, or has the credentials of a success. -/
theorem signIn_entry {login : Login.State} {result : Option Uid} {data : Dictionary}
    (stored : (Login.signIn login email password result).1.keychain uid = some data) :
    login.keychain uid = some data ∨
      result = some uid ∧ data = [("email", email), ("password", password)] := by
  cases result with
  | none => exact Or.inl stored
  | some new =>
    cases entry : login.keychain new with
    | some present =>
      simp only [Login.signIn, Login.saveDataIntKeyChain, saveData_existing entry] at stored
      exact Or.inl stored
    | none =>
      simp only [Login.signIn, Login.saveDataIntKeyChain, saveData_new entry] at stored
      by_cases own : uid = new
      · rw [own, Function.update_self] at stored
        exact Or.inr ⟨congrArg some own.symm, (Option.some.inj stored).symm⟩
      · rw [Function.update_of_ne own] at stored
        exact Or.inl stored

/-- After a completion every account has an entry that had one, or that succeeded. -/
theorem signIn_present {login : Login.State} {result : Option Uid}
    (present : (login.keychain uid).isSome ∨ result = some uid) :
    ((Login.signIn login email password result).1.keychain uid).isSome := by
  cases result with
  | none => exact present.resolve_right (Option.some_ne_none uid).symm
  | some new =>
    cases entry : login.keychain new with
    | some data =>
      simp only [Login.signIn, Login.saveDataIntKeyChain, saveData_existing entry]
      rcases present with before | succeeded
      · exact before
      · rw [← Option.some.inj succeeded, entry]
        rfl
    | none =>
      simp only [Login.signIn, Login.saveDataIntKeyChain, saveData_new entry]
      by_cases own : uid = new
      · rw [own, Function.update_self]
        rfl
      · rw [Function.update_of_ne own]
        exact present.resolve_right fun succeeded => own (Option.some.inj succeeded).symm

/-- The answer to the button: nobody, or the account it remembered. -/
theorem Inv.answered (inv : Inv s) {userUid : Uid} {result : Option Uid}
    (returned : ∀ uid, result = some uid → uid = userUid ∧
      ∃ screen, (.loginScreen screen, some uid) ∈ s.results) :
    Inv { s with results := s.results ++ [(.lastAccount userUid, result)] } := by
  have more : s.results ⊆ s.results ++ [(.lastAccount userUid, result)] := List.subset_append_left _ _
  refine { inv with made := ?_, saved := ?_, kept := ?_, returned := ?_ }
  · exact fun request member =>
      (inv.made request member).mono (fun _ _ owner => owner) (List.Subset.refl _) more
  · intro uid data stored
    obtain ⟨email, password, same, typed⟩ := inv.saved uid data stored
    exact ⟨email, password, same, typed.mono (fun _ _ owner => owner) (List.Subset.refl _) more⟩
  · intro screen uid member
    rcases List.mem_append.mp member with before | last
    · exact inv.kept screen uid before
    · cases List.mem_singleton.mp last
  · intro other uid member
    rcases List.mem_append.mp member with before | last
    · obtain ⟨same, screen, accepted⟩ := inv.returned other uid before
      exact ⟨same, screen, more accepted⟩
    · cases List.mem_singleton.mp last
      obtain ⟨same, screen, accepted⟩ := returned uid rfl
      exact ⟨same, screen, more accepted⟩

/-- The answer to a login screen, and what the view model saves. -/
theorem Inv.loggedIn (inv : Inv s) {screen : Nat} {result : Option Uid} (success : Bool)
    {screens : List LoginVC} (member : ⟨.loginScreen screen, email, password⟩ ∈ s.made)
    (owner : ∀ uid, result = some uid → Owner s.server email uid)
    (more : s.screens.length ≤ screens.length) :
    Inv { s with
      results := s.results ++ [(.loginScreen screen, result)]
      keychain := (Login.signIn ⟨success, s.keychain⟩ email password result).1.keychain
      screens := screens } := by
  have grown : s.results ⊆ s.results ++ [(.loginScreen screen, result)] := List.subset_append_left _ _
  have last : (.loginScreen screen, result) ∈ s.results ++ [(.loginScreen screen, result)] :=
    List.mem_append_right _ (List.mem_singleton.mpr rfl)
  refine ⟨inv.calls, ?_, ?_, ?_, ?_, ?_⟩
  · exact fun call member screen listed =>
      Nat.lt_of_lt_of_le (inv.screens call member screen listed) more
  · exact fun request member =>
      (inv.made request member).mono (fun _ _ owner => owner) (List.Subset.refl _) grown
  · intro uid data stored
    rcases signIn_entry stored with before | ⟨same, rfl⟩
    · obtain ⟨email, password, same, typed⟩ := inv.saved uid data before
      exact ⟨email, password, same, typed.mono (fun _ _ owner => owner) (List.Subset.refl _) grown⟩
    · exact ⟨email, password, rfl, owner uid same, inv.made _ member, ⟨screen, member⟩, screen,
        same ▸ last⟩
  · intro other uid accepted
    apply signIn_present
    rcases List.mem_append.mp accepted with earlier | last
    · exact Or.inl (inv.kept other uid earlier)
    · cases List.mem_singleton.mp last
      exact Or.inr rfl
  · intro userUid uid accepted
    rcases List.mem_append.mp accepted with earlier | last
    · obtain ⟨same, other, listed⟩ := inv.returned userUid uid earlier
      exact ⟨same, other, grown listed⟩
    · cases List.mem_singleton.mp last

theorem Inv.taken {serial : Nat} {call : Call} {calls : List Call} (inv : Inv s)
    (taken : Pool.take? (·.serial == serial) s.calls = some (call, calls)) :
    Inv { s with calls := calls } :=
  { inv with
    calls := fun other member => inv.calls other (Pool.take?_left taken member)
    screens := fun other member => inv.screens other (Pool.take?_left taken member) }

theorem Inv.completed (inv : Inv s) {call : Call} {result : Option Uid} (presentable : Bool)
    (member : call.toRequest ∈ s.made)
    (listed : ∀ screen, call.origin = .loginScreen screen → screen < s.screens.length)
    (answer : ∀ uid, result = some uid → Owner s.server call.email uid) :
    Inv (completed s call result presentable) := by
  obtain ⟨⟨origin, email, password⟩, serial⟩ := call
  cases origin with
  | lastAccount userUid =>
    refine inv.answered ?_
    intro uid succeeded
    have typed : Typed s.server s.made s.results userUid email password := inv.made _ member
    obtain ⟨right, found⟩ := typed.owner
    obtain ⟨other, same⟩ := answer uid succeeded
    cases found.symm.trans same
    exact ⟨rfl, typed.accepted⟩
  | loginScreen screen =>
    have found := List.getElem?_eq_getElem (listed screen rfl)
    simp only [SignIn.completed, found]
    exact inv.loggedIn _ member answer (Nat.le_of_eq (List.length_set ..).symm)

theorem step_inv (knows : Knows authenticate) (inv : Inv s)
    (step : (machine users authenticate).step s a = some t) : Inv t := by
  have same : Grows s.server s.server := fun _ _ owner => owner
  cases step_stepped step with
  | elsewhere other profile server grows => exact inv.frame profile grows le_rfl
  | opened => exact inv.frame s.profile same (by simp)
  | left screen vc found => exact inv.frame s.profile same (by simp)
  | tapped screen vc email password found => exact inv.login found email password
  | dismissed screen vc shown found up => exact inv.frame s.profile same (by simp)
  | button email password found => exact inv.button found
  | answered serial connected presentable call calls profile result taken answer =>
    have member := Pool.take?_mem taken
    exact ((inv.taken taken).frame profile same le_rfl).completed presentable
      (inv.calls call member) (inv.screens call member)
      fun uid succeeded => knows s.server call.email call.password uid (answer uid succeeded)
  | restarted =>
    have closed : s.screens.length ≤
        (s.screens.map fun vc : LoginVC => { vc with left := true }).length := by
      rw [List.length_map]
    have framed := inv.frame (.start s.profile.currentUser) same closed
    exact { framed with calls := List.forall_mem_nil _, screens := List.forall_mem_nil _ }

/-- In every state reached: the button for the last account has brought back the account it
remembered, if any, and one that had logged in before; every request has an email and a password
that were typed into a login screen; and each account that logged in, from a screen left or not,
is saved with an email it has. -/
theorem button_returns {acts : List Action} (knows : Knows authenticate)
    (run : (machine users authenticate).run (.start server) acts = some s) :
    (∀ userUid uid, (.lastAccount userUid, some uid) ∈ s.results →
      uid = userUid ∧ ∃ screen, (.loginScreen screen, some uid) ∈ s.results) ∧
    (∀ request ∈ s.made, request.email ≠ "" ∧ request.password ≠ "" ∧
      ∃ screen, ⟨.loginScreen screen, request.email, request.password⟩ ∈ s.made) ∧
    ∀ screen uid, (.loginScreen screen, some uid) ∈ s.results → ∃ email password,
      s.keychain uid = some [("email", email), ("password", password)] ∧ Owner s.server email uid := by
  have inv := Transition.Machine.run_invariant (step_inv knows) run (start_inv server)
  refine ⟨inv.returned, ?_, ?_⟩
  · rintro ⟨origin, email, password⟩ member
    have proper := inv.made _ member
    cases origin with
    | loginScreen screen =>
      have filled : email ≠ "" ∧ password ≠ "" := proper
      exact ⟨filled.1, filled.2, screen, member⟩
    | lastAccount userUid =>
      have typed : Typed s.server s.made s.results userUid email password := proper
      exact ⟨typed.filled.1, typed.filled.2, typed.made⟩
  · intro screen uid accepted
    obtain ⟨data, stored⟩ := Option.isSome_iff_exists.mp (inv.kept screen uid accepted)
    obtain ⟨email, password, rfl, typed⟩ := inv.saved uid data stored
    exact ⟨email, password, stored, typed.owner⟩

/-- A server that compares passwords. -/
def rightPassword (server : Server) (email password : String) : Option Uid :=
  (server email).bind fun (uid, right) => if password = right then some uid else none

theorem rightPassword_knows : Knows rightPassword := by
  intro server email password uid signed
  obtain ⟨⟨owner, right⟩, found, same⟩ := Option.bind_eq_some_iff.mp signed
  obtain ⟨-, same⟩ := Option.ite_none_right_eq_some.mp same
  obtain rfl := Option.some.inj same
  exact ⟨right, found⟩

/-- Ann's account. -/
def firebase : Server := fun email => if email = "ann@mail.com" then some ("u", "old") else none

/-- Ann logs in from a screen that she leaves at once, changes her password and signs out; the
button still has the old one. -/
def passwordChanged : List Action :=
  [.openLogin, .loginButtonDidTapped 0 (some "ann@mail.com") (some ""),
    .loginButtonDidTapped 0 (some "ann@mail.com") (some "old"), .leave 0, .completion 0 true true,
    .notify, .signOut, .signInLastAccButtonDidTapped, .completion 1 true true, .signOut,
    .updatePassword "ann@mail.com" "new", .signInLastAccButtonDidTapped, .completion 2 true true]

theorem button_returns_password_changed :
    ∃ s, (machine (fun _ => none) rightPassword).run (.start firebase) passwordChanged = some s ∧
      s.results = [(.loginScreen 0, some "u"), (.lastAccount "u", some "u"), (.lastAccount "u", none)] ∧
      (∃ screen, (.loginScreen screen, some "u") ∈ s.results) ∧
      ∃ email password, s.keychain "u" = some [("email", email), ("password", password)] ∧
        Owner s.server email "u" := by
  obtain ⟨s, run, results⟩ : ∃ s,
      (machine (fun _ => none) rightPassword).run (.start firebase) passwordChanged = some s ∧
      s.results = [(.loginScreen 0, some "u"), (.lastAccount "u", some "u"), (.lastAccount "u", none)] :=
    ⟨_, rfl, rfl⟩
  obtain ⟨returned, -, saved⟩ := button_returns rightPassword_knows run
  have accepted : (.loginScreen 0, some "u") ∈ s.results := by rw [results]; simp
  have again : (.lastAccount "u", some "u") ∈ s.results := by rw [results]; simp
  exact ⟨s, run, results, (returned "u" "u" again).2, saved 0 "u" accepted⟩

end MoviesApp.SignIn
