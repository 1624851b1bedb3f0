import MoviesApp.Services.Keychain
import MoviesApp.Transition

/-! The login screen's view model. Every successful sign-in saves its email and password
for the account's uid; a save that fails is only printed. -/
namespace MoviesApp.Login
open Firestore Locksmith

structure State where
  success : Bool
  keychain : Keychain

/-- The error of a save is swallowed. -/
def saveDataIntKeyChain (keychain : Keychain) (email password : String) (userUid : Uid) : Keychain :=
  match saveData keychain [("email", email), ("password", password)] userUid with
  | .ok saved => saved
  | .error _ => keychain

/-- The completion of Firebase's `signIn`, with the user of its result if there is one, and
what it passes on. -/
def signIn (s : State) (email password : String) (result : Option Uid) : State × Bool :=
  match result with
  | some userUid => (⟨true, saveDataIntKeyChain s.keychain email password userUid⟩, true)
  | none => ({ s with success := false }, false)

/-- A successful call of `signIn`. -/
structure Call where
  userUid : Uid
  email : String
  password : String
  deriving DecidableEq

def Call.credentials (login : Call) : Dictionary :=
  [("email", login.email), ("password", login.password)]

def completed (s : State) (login : Call) : State :=
  (signIn s login.email login.password (some login.userUid)).1

def machine : Transition.Machine State Call := ⟨fun s login => some (completed s login)⟩

/-- The keychain has the call's email and password for its account, and has all other
entries unchanged. -/
def Follows (s : State) (login : Call) : Prop :=
  loadDataForUserAccount (completed s login).keychain login.userUid = some login.credentials ∧
    ∀ other ≠ login.userUid, loadDataForUserAccount (completed s login).keychain other =
      loadDataForUserAccount s.keychain other

/-- The account has no entry yet, or one with the same email and password. -/
def Agrees (s : State) (login : Call) : Prop :=
  s.keychain login.userUid = none ∨ s.keychain login.userUid = some login.credentials

/-- Two calls for one account carry the same email and password. -/
def Consistent (login later : Call) : Prop :=
  login.userUid = later.userUid → login.credentials = later.credentials

variable {s : State} {login : Call}

theorem completed_keychain (agrees : Agrees s login) : (completed s login).keychain =
    Function.update s.keychain login.userUid (some login.credentials) := by
  rcases agrees with absent | present
  · simp only [completed, signIn, saveDataIntKeyChain, saveData_new absent]
    rfl
  · simp only [completed, signIn, saveDataIntKeyChain, saveData_existing present]
    exact (Function.update_eq_self_iff.mpr present.symm).symm

/-- An entry with other credentials stays as it is, and the call is not followed. -/
theorem follows_iff : Follows s login ↔ Agrees s login := by
  constructor
  · rintro ⟨followed, -⟩
    cases entry : s.keychain login.userUid with
    | none => exact Or.inl entry
    | some stored =>
      simp only [completed, signIn, saveDataIntKeyChain, saveData_existing entry,
        loadDataForUserAccount] at followed
      exact Or.inr followed
  · intro agrees
    rw [Follows, completed_keychain agrees]
    exact ⟨Function.update_self .., fun other different => Function.update_of_ne different ..⟩

/-- What the keychain holds after a call agrees with a later one, if it agreed before
and the two calls are consistent. -/
theorem agrees_completed_iff {later : Call} (agrees : Agrees s login) :
    Agrees (completed s login) later ↔ Agrees s later ∧ Consistent login later := by
  simp only [Agrees, Consistent, completed_keychain agrees]
  by_cases same : later.userUid = login.userUid
  · rw [same, Function.update_self]
    constructor
    · rintro (none | equal)
      · exact nomatch none
      · rw [← Option.some.inj equal]
        exact ⟨agrees, fun _ => rfl⟩
    · rintro ⟨-, consistent⟩
      exact Or.inr (congrArg some (consistent rfl))
  · rw [Function.update_of_ne same]
    exact (and_iff_left fun equal => (same equal.symm).elim).symm

/-- For every sequence of logins from any keychain: every call is followed if and only
if each account's credentials never change. -/
theorem keychain_follows_iff (s : State) (logins : List Call) :
    machine.Along Follows s logins ↔
      (∀ login ∈ logins, Agrees s login) ∧ logins.Pairwise Consistent := by
  induction logins generalizing s with
  | nil => exact iff_of_true trivial ⟨List.forall_mem_nil _, .nil⟩
  | cons login rest ih =>
    have step : machine.step s login = some (completed s login) := rfl
    rw [Transition.Machine.along_cons step, ih, follows_iff, List.forall_mem_cons,
      List.pairwise_cons]
    constructor
    · rintro ⟨agrees, later, pairs⟩
      have each := fun m member => (agrees_completed_iff agrees).mp (later m member)
      exact ⟨⟨agrees, fun m member => (each m member).1⟩, fun m member => (each m member).2, pairs⟩
    · rintro ⟨⟨agrees, later⟩, consistent, pairs⟩
      exact ⟨agrees, fun m member => (agrees_completed_iff agrees).mpr
        ⟨later m member, consistent m member⟩, pairs⟩

/-- Two accounts, and one of them again: every call agrees with those before. -/
theorem keychain_follows_two_accounts :
    machine.Along Follows ⟨true, fun _ => none⟩
      [⟨"u", "u@mail.com", "one"⟩, ⟨"v", "v@mail.com", "two"⟩, ⟨"u", "u@mail.com", "one"⟩] :=
  (keychain_follows_iff _ _).mpr ⟨fun _ _ => Or.inl rfl, by simp [Consistent, Call.credentials]⟩

/-- The account comes back with a new password, and the keychain keeps the old one. -/
theorem changed_password_not_kept :
    machine.run ⟨true, fun _ => none⟩ [⟨"u", "u@mail.com", "one"⟩, ⟨"u", "u@mail.com", "two"⟩] =
        some ⟨true, Function.update (fun _ => none) "u"
          (some [("email", "u@mail.com"), ("password", "one")])⟩ ∧
      ¬ machine.Along Follows ⟨true, fun _ => none⟩
        [⟨"u", "u@mail.com", "one"⟩, ⟨"u", "u@mail.com", "two"⟩] := by
  constructor
  · rfl
  · rintro ⟨-, ⟨followed, -⟩, -⟩
    revert followed
    decide

end MoviesApp.Login
