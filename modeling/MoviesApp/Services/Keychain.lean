import MoviesApp.Firestore

/-! The keychain as the app uses it through Locksmith: one generic password item an
account, all under the app's own service. Saving adds an item and fails on one that exists. -/
namespace MoviesApp.Locksmith
open Firestore

/-- The data of an item; the app stores strings only. -/
abbrev Dictionary := List (String × String)

abbrev Keychain := Uid → Option Dictionary

inductive LocksmithError where
  | duplicate
  deriving DecidableEq

def loadDataForUserAccount (keychain : Keychain) (userAccount : Uid) : Option Dictionary :=
  keychain userAccount

def saveData (keychain : Keychain) (data : Dictionary) (userAccount : Uid) :
    Except LocksmithError Keychain :=
  match keychain userAccount with
  | some _ => .error .duplicate
  | none => .ok (Function.update keychain userAccount (some data))

variable {keychain : Keychain} {data stored : Dictionary} {userAccount : Uid}

theorem saveData_new (absent : keychain userAccount = none) :
    saveData keychain data userAccount = .ok (Function.update keychain userAccount (some data)) := by
  simp only [saveData, absent]

theorem saveData_existing (present : keychain userAccount = some stored) :
    saveData keychain data userAccount = .error .duplicate := by
  simp only [saveData, present]

end MoviesApp.Locksmith
