import Mathlib.Logic.Function.Basic
import Mathlib.Data.List.Zip

/-! Firestore as the view models use it: field values with the dynamic casts of
the Swift code, the documents of one collection, and the two writes. Reads and
writes act on the collection as it stands at that moment. -/
namespace MoviesApp.Firestore

/-- The field values the app writes or casts to. -/
inductive Value where
  | null
  | string (s : String)
  | array (items : List Value)
  | map (entries : List (String × Value))

namespace Value

/-- The cast `as? String`. -/
def asString : Value → Option String
  | string s => some s
  | _ => none

/-- The cast `as? [String]`. -/
def asStrings : Value → Option (List String)
  | array items => items.mapM asString
  | _ => none

/-- The cast `as? [String: Any]`. -/
def asDictionary : Value → Option (List (String × Value))
  | map entries => some entries
  | _ => none

/-- A Swift `[String]` handed to Firestore. -/
def strings (xs : List String) : Value := array (xs.map string)

@[simp] theorem asStrings_strings (xs : List String) : (strings xs).asStrings = some xs := by
  simp only [strings, asStrings, List.mapM_map]
  induction xs with
  | nil => rfl
  | cons x rest ih => simp [List.mapM_cons, Function.comp_def, asString] at ih ⊢; simp [ih]

end Value

abbrev Uid := String

/-- What `data()` gives for a document that exists. -/
abbrev Document := String → Option Value

abbrev Collection := Uid → Option Document

def Document.empty : Document := fun _ => none

/-- A dictionary literal of fields. -/
def Document.ofFields (fields : List (String × Value)) : Document := fun field => fields.lookup field

def Document.setting (document : Document) (field : String) (value : Value) : Document :=
  Function.update document field (some value)

/-- Overwrites the document, or creates it. -/
def setData (users : Collection) (uid : Uid) (document : Document) : Collection :=
  Function.update users uid (some document)

/-- Replaces one field of an existing document; fails where there is none. -/
def updateData (users : Collection) (uid : Uid) (field : String) (value : Value) : Collection :=
  match users uid with
  | some document => Function.update users uid (some (document.setting field value))
  | none => users

@[simp] theorem setting_same (document : Document) (field : String) (value : Value) :
    document.setting field value field = some value := by
  simp [Document.setting]

@[simp] theorem setting_other {document : Document} {field other : String} {value : Value}
    (different : other ≠ field) : document.setting field value other = document other := by
  simp [Document.setting, different]

@[simp] theorem setData_same (users : Collection) (uid : Uid) (document : Document) :
    setData users uid document uid = some document := by
  simp [setData]

@[simp] theorem setData_other {users : Collection} {uid other : Uid} {document : Document}
    (different : other ≠ uid) : setData users uid document other = users other := by
  simp [setData, different]

/-- An update reaches its own document only, and only if that document exists. -/
theorem updateData_apply (users : Collection) (uid other : Uid) (field : String) (value : Value) :
    updateData users uid field value other =
      if other = uid then (users uid).map (·.setting field value) else users other := by
  unfold updateData
  by_cases same : other = uid
  · subst same
    cases found : users other <;> simp [found]
  · cases found : users uid <;> simp [same]

@[simp] theorem updateData_same (users : Collection) (uid : Uid) (field : String) (value : Value) :
    updateData users uid field value uid = (users uid).map (·.setting field value) := by
  rw [updateData_apply, if_pos rfl]

/-- The document `addNewDocumentInFirebase` writes for a new account. -/
def newDocument (firstName lastName : String) (userUid : Uid) : Document :=
  .ofFields [("firstName", .string firstName), ("lastName", .string lastName),
    ("uid", .string userUid), ("avatarURL", .string " ")]

end MoviesApp.Firestore
