import MoviesApp.Services.Keychain
import MoviesApp.Transition

/-! Locksmith's requests to the Security framework. A request is a dictionary of attributes;
the framework answers with a status, of which only some become errors. What an account has
stored is what the keychain says, and a save that the framework refuses is dropped. -/
namespace MoviesApp.SecureStore
open Firestore
open Locksmith (Dictionary Keychain)

abbrev OSStatus := Int

def errSecSuccess : OSStatus := 0
def errSecUnimplemented : OSStatus := -4
def errSecParam : OSStatus := -50
def errSecAllocate : OSStatus := -108
def errSecNotAvailable : OSStatus := -25291
def errSecAuthFailed : OSStatus := -25293
def errSecDuplicateItem : OSStatus := -25299
def errSecItemNotFound : OSStatus := -25300
def errSecInteractionNotAllowed : OSStatus := -25308
def errSecDecode : OSStatus := -26275

inductive LocksmithError where
  | allocate | authFailed | decode | duplicate | interactionNotAllowed | noError | notAvailable
  | notFound | param | requestNotSet | typeNotFound | unableToClear | undefined | unimplemented
  deriving DecidableEq

/-- Every other status is no error. -/
def LocksmithError.ofStatusCode? (code : OSStatus) : Option LocksmithError :=
  if code = errSecAllocate then some .allocate
  else if code = errSecAuthFailed then some .authFailed
  else if code = errSecDecode then some .decode
  else if code = errSecDuplicateItem then some .duplicate
  else if code = errSecInteractionNotAllowed then some .interactionNotAllowed
  else if code = errSecItemNotFound then some .notFound
  else if code = errSecNotAvailable then some .notAvailable
  else if code = errSecParam then some .param
  else if code = errSecUnimplemented then some .unimplemented
  else none

/-- The keys `kSecClass` to `kSecReturnAttributes`. -/
inductive Key where
  | secClass | service | account | generic | accessGroup | accessible | description | comment
  | creator | label | type | isInvisible | isNegative | valueData | returnData | matchLimit
  | returnAttributes
  deriving DecidableEq

inductive Value (Data : Type) where
  | string (s : String)
  | number (n : Nat)
  | boolean (b : Bool)
  | data (d : Data)

/-- A Swift dictionary by its lookups. -/
abbrev Attributes (Data : Type) := Key → Option (Value Data)

section Dictionaries
variable {V : Type}

def literal (pairs : List (Key × V)) : Key → Option V := fun key => pairs.lookup key

def withoutOptionalValues (initial : Key → Option (Option V)) : Key → Option V :=
  fun key => (initial key).join

/-- The second dictionary's values replace those of the first. -/
def merging (initial toMerge : Key → Option V) : Key → Option V :=
  fun key => (toMerge key).or (initial key)

end Dictionaries

variable {Data Store : Type}

/-- A request for a generic password; the protocols default all but the first two to nil. -/
structure GenericPassword (Data : Type) where
  service : String
  account : String
  accessGroup : Option String
  accessible : Option String
  description : Option String
  comment : Option String
  creator : Option Nat
  label : Option String
  type : Option Nat
  isInvisible : Option Bool
  isNegative : Option Bool
  generic : Option Data

def GenericPassword.request (service account : String) : GenericPassword Data :=
  ⟨service, account, none, none, none, none, none, none, none, none, none, none⟩

namespace GenericPassword
variable (r : GenericPassword Data)

def secureStorableBaseStoragePropertyDictionary : Attributes Data :=
  withoutOptionalValues (literal [(.accessGroup, r.accessGroup.map .string),
    (.accessible, r.accessible.map .string)])

def accountSecureStoragePropertyDictionary : Attributes Data :=
  literal [(.account, .string r.account)]

def describableSecureStoragePropertyDictionary : Attributes Data :=
  withoutOptionalValues (literal [(.description, r.description.map .string)])

def commentableSecureStoragePropertyDictionary : Attributes Data :=
  withoutOptionalValues (literal [(.comment, r.comment.map .string)])

def creatorDesignatableSecureStoragePropertyDictionary : Attributes Data :=
  withoutOptionalValues (literal [(.creator, r.creator.map .number)])

def labellableSecureStoragePropertyDictionary : Attributes Data :=
  withoutOptionalValues (literal [(.label, r.label.map .string)])

def typeDesignatableSecureStoragePropertyDictionary : Attributes Data :=
  withoutOptionalValues (literal [(.type, r.type.map .number)])

def isInvisibleSecureStoragePropertyDictionary : Attributes Data :=
  withoutOptionalValues (literal [(.isInvisible, r.isInvisible.map .boolean)])

def isNegativeSecureStoragePropertyDictionary : Attributes Data :=
  withoutOptionalValues (literal [(.isNegative, r.isNegative.map .boolean)])

def genericPasswordBaseStoragePropertyDictionary : Attributes Data :=
  let dictionary : Key → Option (Option (Value Data)) := literal
    [(.service, some (.string r.service)), (.generic, r.generic.map .data),
      (.secClass, some (.string "genp"))]
  let toMergeWith : List (Attributes Data) := [r.describableSecureStoragePropertyDictionary,
    r.secureStorableBaseStoragePropertyDictionary, r.accountSecureStoragePropertyDictionary,
    r.describableSecureStoragePropertyDictionary, r.commentableSecureStoragePropertyDictionary,
    r.creatorDesignatableSecureStoragePropertyDictionary,
    r.typeDesignatableSecureStoragePropertyDictionary, r.labellableSecureStoragePropertyDictionary,
    r.isInvisibleSecureStoragePropertyDictionary, r.isNegativeSecureStoragePropertyDictionary]
  withoutOptionalValues (toMergeWith.foldl
    (fun dictionary dict => merging dictionary fun key => (dict key).map some) dictionary)

def asReadableSecureStoragePropertyDictionary : Attributes Data :=
  merging r.genericPasswordBaseStoragePropertyDictionary (literal [(.returnData, .boolean true),
    (.matchLimit, .string "m_LimitOne"), (.returnAttributes, .boolean true)])

def asCreateableSecureStoragePropertyDictionary (archived : Data) : Attributes Data :=
  merging r.genericPasswordBaseStoragePropertyDictionary (literal [(.valueData, .data archived)])

/-- Each field is under its own key, and nothing else is there. -/
theorem base_eq (key : Key) : r.genericPasswordBaseStoragePropertyDictionary key = match key with
    | .secClass => some (.string "genp")
    | .service => some (.string r.service)
    | .account => some (.string r.account)
    | .generic => r.generic.map .data
    | .accessGroup => r.accessGroup.map .string
    | .accessible => r.accessible.map .string
    | .description => r.description.map .string
    | .comment => r.comment.map .string
    | .creator => r.creator.map .number
    | .label => r.label.map .string
    | .type => r.type.map .number
    | .isInvisible => r.isInvisible.map .boolean
    | .isNegative => r.isNegative.map .boolean
    | .valueData | .returnData | .matchLimit | .returnAttributes => none := by
  obtain ⟨service, account, accessGroup, accessible, description, comment, creator, label, type,
    isInvisible, isNegative, generic⟩ := r
  cases key with
  | secClass | service | account => rfl
  | generic => cases generic <;> rfl
  | accessGroup => cases accessGroup <;> rfl
  | accessible => cases accessible <;> rfl
  | description => cases description <;> rfl
  | comment => cases comment <;> rfl
  | creator => cases creator <;> rfl
  | label => cases label <;> rfl
  | type => cases type <;> rfl
  | isInvisible => cases isInvisible <;> rfl
  | isNegative => cases isNegative <;> rfl
  | valueData | returnData | matchLimit | returnAttributes => rfl

end GenericPassword

/-- The two calls of the framework that Locksmith makes. A match may come with its attributes. -/
structure SecItem (Data Store : Type) where
  add : Attributes Data → Store → OSStatus × Store
  copyMatching : Attributes Data → Store → OSStatus × Option (Attributes Data)

structure KeyedArchiver (Data : Type) where
  archivedData : Dictionary → Data
  unarchiveObject : Data → Option Dictionary

/-- A status that is neither success nor an error of the list is passed over. -/
def performSecureStorageAction (status : OSStatus) (result : Option (Attributes Data)) :
    Except LocksmithError (Option (Attributes Data)) :=
  match LocksmithError.ofStatusCode? status with
  | some error => .error error
  | none =>
    if status ≠ errSecSuccess then .ok none
    else match result with
      | none => .ok none
      | some dictionary => match dictionary .valueData with
        | some (.data _) => .ok (some dictionary)
        | _ => .ok none

theorem performSecureStorageAction_success {dictionary : Attributes Data} {aData : Data}
    (valueData : dictionary .valueData = some (.data aData)) :
    performSecureStorageAction errSecSuccess (some dictionary) = .ok (some dictionary) := by
  have none : LocksmithError.ofStatusCode? errSecSuccess = none := rfl
  simp only [performSecureStorageAction, none, ne_eq, not_true_eq_false, if_false, valueData]

/-- What is returned has been returned by the framework, with success. -/
theorem performSecureStorageAction_eq_some {status : OSStatus} {result : Option (Attributes Data)}
    {dictionary : Attributes Data}
    (performed : performSecureStorageAction status result = .ok (some dictionary)) :
    status = errSecSuccess ∧ result = some dictionary := by
  unfold performSecureStorageAction at performed
  split at performed
  · contradiction
  · split at performed
    · cases performed
    · rename_i success
      refine ⟨not_not.mp success, ?_⟩
      split at performed
      · cases performed
      · split at performed
        · cases performed
          rfl
        · cases performed

section Locksmith
variable (secItem : SecItem Data Store) (archiver : KeyedArchiver Data) (service : String)

/-- `SecItemAdd` is not asked to return anything. -/
def saveData (data : Dictionary) (userAccount : Uid) (store : Store) :
    Except LocksmithError Unit × Store :=
  let request := GenericPassword.request service userAccount
  let answer := secItem.add
    (request.asCreateableSecureStoragePropertyDictionary (archiver.archivedData data)) store
  ((performSecureStorageAction answer.1 (none : Option (Attributes Data))).map fun _ => (), answer.2)

/-- An error is caught, and is no data. -/
def loadDataForUserAccount (userAccount : Uid) (store : Store) : Option Dictionary :=
  let request := GenericPassword.request service userAccount
  let answer := secItem.copyMatching request.asReadableSecureStoragePropertyDictionary store
  match performSecureStorageAction answer.1 answer.2 with
  | .ok (some resultDictionary) => match resultDictionary .valueData with
    | some (.data aData) => archiver.unarchiveObject aData
    | _ => none
  | _ => none

end Locksmith

/-- An item to add, with no attributes but these. -/
structure AddsItem (query : Attributes Data) (service account : String) (data : Data) : Prop where
  secClass : query .secClass = some (.string "genp")
  service : query .service = some (.string service)
  account : query .account = some (.string account)
  valueData : query .valueData = some (.data data)
  other : ∀ key ∉ [Key.secClass, .service, .account, .valueData], query key = none

/-- A query for one item, its data and attributes. -/
structure AsksFor (query : Attributes Data) (service account : String) : Prop where
  secClass : query .secClass = some (.string "genp")
  service : query .service = some (.string service)
  account : query .account = some (.string account)
  returnData : query .returnData = some (.boolean true)
  matchLimit : query .matchLimit = some (.string "m_LimitOne")
  returnAttributes : query .returnAttributes = some (.boolean true)
  other : ∀ key ∉ [Key.secClass, .service, .account, .returnData, .matchLimit, .returnAttributes],
    query key = none

/-- The items of a store by service and account, and whether they are accessible now: what the
framework documents of generic passwords. -/
structure Documented (secItem : SecItem Data Store) (items : Store → String → String → Option Data)
    (Available : Store → Prop) : Prop where
  add_new : ∀ {query store service account data}, AddsItem query service account data →
    Available store → items store service account = none →
    (secItem.add query store).1 = errSecSuccess ∧
    ∀ other name, items (secItem.add query store).2 other name =
      if other = service ∧ name = account then some data else items store other name
  add_existing : ∀ {query store service account data}, AddsItem query service account data →
    Available store → items store service account ≠ none →
    (secItem.add query store).1 = errSecDuplicateItem ∧ items (secItem.add query store).2 = items store
  add_refused : ∀ {query store}, ¬ Available store →
    (secItem.add query store).1 ≠ errSecSuccess ∧ items (secItem.add query store).2 = items store
  copy_existing : ∀ {query store service account data}, AsksFor query service account →
    Available store → items store service account = some data →
    (secItem.copyMatching query store).1 = errSecSuccess ∧
    ∃ attributes, (secItem.copyMatching query store).2 = some attributes ∧
      attributes .valueData = some (.data data)
  copy_missing : ∀ {query store service account}, AsksFor query service account →
    Available store → items store service account = none →
    (secItem.copyMatching query store).1 = errSecItemNotFound
  copy_refused : ∀ {query store}, ¬ Available store →
    (secItem.copyMatching query store).1 ≠ errSecSuccess

theorem asCreateable_addsItem (service account : String) (data : Data) :
    AddsItem ((GenericPassword.request service account).asCreateableSecureStoragePropertyDictionary
      data) service account data := by
  refine ⟨rfl, rfl, rfl, rfl, ?_⟩
  intro key absent
  rw [GenericPassword.asCreateableSecureStoragePropertyDictionary, merging, GenericPassword.base_eq]
  cases key <;> first | rfl | exact absurd absent (by simp)

theorem asReadable_asksFor (service account : String) :
    AsksFor (GenericPassword.asReadableSecureStoragePropertyDictionary (.request service account : GenericPassword Data))
      service account := by
  refine ⟨rfl, rfl, rfl, rfl, rfl, rfl, ?_⟩
  intro key absent
  rw [GenericPassword.asReadableSecureStoragePropertyDictionary, merging, GenericPassword.base_eq]
  cases key <;> first | rfl | exact absurd absent (by simp)

/-- A change of the store elsewhere, which leaves the service's own items. -/
structure Elsewhere (items : Store → String → String → Option Data) (service : String) where
  change : Store → Store
  own : ∀ store account, items (change store) service account = items store service account

inductive Action (items : Store → String → String → Option Data) (service : String) where
  | saveData (data : Dictionary) (userAccount : Uid)
  | elsewhere (other : Elsewhere items service)

section Refinement
variable {secItem : SecItem Data Store} {archiver : KeyedArchiver Data} {service : String}
  {items : Store → String → String → Option Data} {Available : Store → Prop}

variable (secItem archiver) in
/-- The saves of the app, and what else becomes of the store. -/
def machine : Transition.Machine Store (Action items service) where
  step store
    | .saveData data userAccount => some (saveData secItem archiver service data userAccount store).2
    | .elsewhere other => some (other.change store)

variable (items service) in
/-- The same on a keychain. -/
def keychainMachine : Transition.Machine Keychain (Action items service) where
  step keychain
    | .saveData data userAccount => match Locksmith.saveData keychain data userAccount with
      | .ok saved => some saved
      | .error _ => some keychain
    | .elsewhere _ => some keychain

variable (archiver service items) in
/-- The keychain that a store implements. -/
def keychainOf (store : Store) : Keychain := fun account =>
  (items store service account).bind archiver.unarchiveObject

variable (archiver service items) in
/-- The service's items are archives. -/
def Archived (store : Store) : Prop :=
  ∀ account data, items store service account = some data → (archiver.unarchiveObject data).isSome

variable {store : Store} {data : Dictionary} {account : Uid}

theorem keychainOf_congr {other : Store}
    (same : ∀ account, items other service account = items store service account) :
    keychainOf archiver service items other = keychainOf archiver service items store :=
  funext fun account => congrArg (·.bind archiver.unarchiveObject) (same account)

theorem Archived.congr {other : Store} (archived : Archived archiver service items store)
    (same : ∀ account, items other service account = items store service account) :
    Archived archiver service items other :=
  fun account data found => archived account data ((same account).symm.trans found)

variable (secItem archiver service items) in
/-- A save has the outcome that it has on the keychain, and does the same to it. -/
def SavesAlike (store : Store) (data : Dictionary) (account : Uid) : Prop :=
  match Locksmith.saveData (keychainOf archiver service items store) data account with
  | .ok saved => (saveData secItem archiver service data account store).1 = .ok () ∧
      keychainOf archiver service items (saveData secItem archiver service data account store).2 = saved
  | .error _ => (saveData secItem archiver service data account store).1 = .error .duplicate ∧
      keychainOf archiver service items (saveData secItem archiver service data account store).2 =
        keychainOf archiver service items store

theorem saveData_available (documented : Documented secItem items Available)
    (archives : ∀ data, archiver.unarchiveObject (archiver.archivedData data) = some data)
    (archived : Archived archiver service items store) (available : Available store)
    (data : Dictionary) (account : Uid) :
    Archived archiver service items (saveData secItem archiver service data account store).2 ∧
      SavesAlike secItem archiver service items store data account := by
  unfold SavesAlike
  have adds := asCreateable_addsItem service account (archiver.archivedData data)
  cases found : items store service account with
  | none =>
    obtain ⟨status, added⟩ := documented.add_new adds available found
    have absent : keychainOf archiver service items store account = none := by
      rw [keychainOf, found]
      rfl
    rw [Locksmith.saveData_new absent]
    refine ⟨?_, ?_, ?_⟩
    · intro name content stored
      have stored := (added service name).symm.trans stored
      split at stored
      · rw [← Option.some.inj stored, archives]
        rfl
      · exact archived name content stored
    · simp only [saveData, status]
      rfl
    · funext name
      change (items _ service name).bind archiver.unarchiveObject = _
      rw [saveData, added service name]
      by_cases own : name = account
      · rw [own, if_pos ⟨rfl, rfl⟩, Function.update_self, Option.bind_some, archives]
      · rw [if_neg fun both => own both.2, Function.update_of_ne own]
        rfl
  | some content =>
    obtain ⟨status, kept⟩ := documented.add_existing adds available (found ▸ Option.some_ne_none content)
    obtain ⟨present, unarchived⟩ := Option.isSome_iff_exists.mp (archived account content found)
    have entry : keychainOf archiver service items store account = some present := by
      rw [keychainOf, found]
      exact unarchived
    have same : ∀ name, items (saveData secItem archiver service data account store).2 service name =
        items store service name := fun name => congrFun (congrFun kept service) name
    rw [Locksmith.saveData_existing entry]
    refine ⟨archived.congr same, ?_, keychainOf_congr same⟩
    simp only [saveData, status]
    rfl

/-- A save that is refused changes nothing, whether it throws or not. -/
theorem saveData_refused (documented : Documented secItem items Available)
    (refused : ¬ Available store) (data : Dictionary) (account name : Uid) :
    items (saveData secItem archiver service data account store).2 service name =
      items store service name :=
  congrFun (congrFun (documented.add_refused refused).2 service) name

/-- A load answers what the keychain has, or nothing while it is not accessible. -/
theorem loadDataForUserAccount_spec (documented : Documented secItem items Available) (account : Uid) :
    (Available store → loadDataForUserAccount secItem archiver service account store =
      Locksmith.loadDataForUserAccount (keychainOf archiver service items store) account) ∧
    (¬ Available store → loadDataForUserAccount secItem archiver service account store = none) := by
  have asks : @AsksFor Data _ service account := asReadable_asksFor service account
  constructor
  · intro available
    cases found : items store service account with
    | none =>
      have status := documented.copy_missing asks available found
      simp only [loadDataForUserAccount, status, Locksmith.loadDataForUserAccount, keychainOf, found]
      rfl
    | some content =>
      obtain ⟨status, attributes, answer, valueData⟩ := documented.copy_existing asks available found
      simp only [loadDataForUserAccount, status, answer, Locksmith.loadDataForUserAccount, keychainOf,
        found, performSecureStorageAction_success valueData, valueData]
      rfl
  · intro refused
    unfold loadDataForUserAccount
    dsimp only
    split
    · rename_i performed
      exact absurd (performSecureStorageAction_eq_some performed).1 (documented.copy_refused refused)
    · rfl

/-- Every save finds the keychain accessible. -/
def Kept (Available : Store → Prop) (store : Store) : Action items service → Prop
  | .saveData _ _ => Available store
  | .elsewhere _ => True

/-- A step keeps the items archives, and is the keychain's own or leaves the keychain alone. -/
theorem step_refines (documented : Documented secItem items Available)
    (archives : ∀ data, archiver.unarchiveObject (archiver.archivedData data) = some data)
    (archived : Archived archiver service items store) {a : Action items service} {after : Store}
    (step : (machine secItem archiver).step store a = some after) :
    Archived archiver service items after ∧
      (Kept Available store a → (keychainMachine service items).step
        (keychainOf archiver service items store) a = some (keychainOf archiver service items after)) ∧
      (¬ Kept Available store a → keychainOf archiver service items after =
        keychainOf archiver service items store) := by
  cases a with
  | saveData data account =>
    cases step
    refine ⟨?_, ?_, fun refused => keychainOf_congr (saveData_refused documented refused data account)⟩
    · by_cases available : Available store
      · exact (saveData_available documented archives archived available data account).1
      · exact archived.congr (saveData_refused documented available data account)
    · intro available
      have saved := (saveData_available documented archives archived available data account).2
      unfold SavesAlike at saved
      cases outcome : Locksmith.saveData (keychainOf archiver service items store) data account with
      | ok keychain =>
        simp only [outcome] at saved
        simp only [keychainMachine, outcome, saved.2]
      | error refusal =>
        simp only [outcome] at saved
        simp only [keychainMachine, outcome, saved.2]
  | elsewhere other =>
    cases step
    have same : keychainOf archiver service items (other.change store) =
        keychainOf archiver service items store := keychainOf_congr (other.own store)
    exact ⟨archived.congr (other.own store), fun _ => congrArg some same.symm, fun _ => same⟩

/-- Locksmith refines the keychain. In every run from a store without items of the service, the
store implements a keychain to which some of the saves have been made, and all of them if every
one found the store accessible. A load answers what this keychain has, or nothing; a save has the
keychain's outcome, or changes nothing. -/
theorem keychain_refined (documented : Documented secItem items Available)
    (archives : ∀ data, archiver.unarchiveObject (archiver.archivedData data) = some data)
    (empty : ∀ account, items store service account = none) {acts : List (Action items service)}
    {after : Store} (run : (machine secItem archiver).run store acts = some after) :
    (∃ left, left.Sublist acts ∧ (keychainMachine service items).run (fun _ => none) left =
      some (keychainOf archiver service items after)) ∧
    ((machine secItem archiver).Along (Kept Available) store acts →
      (keychainMachine service items).run (fun _ => none) acts =
        some (keychainOf archiver service items after)) ∧
    (∀ account, (Available after → loadDataForUserAccount secItem archiver service account after =
        Locksmith.loadDataForUserAccount (keychainOf archiver service items after) account) ∧
      (¬ Available after → loadDataForUserAccount secItem archiver service account after = none)) ∧
    ∀ data account, (Available after → SavesAlike secItem archiver service items after data account) ∧
      (¬ Available after → ∀ name,
        items (saveData secItem archiver service data account after).2 service name =
          items after service name) := by
  have archived : Archived archiver service items store := by
    intro account data found
    rw [empty account] at found
    contradiction
  have nothing : keychainOf archiver service items store = fun _ => none :=
    funext fun account => congrArg (·.bind archiver.unarchiveObject) (empty account)
  refine ⟨?_, ?_, loadDataForUserAccount_spec documented, ?_⟩
  · let Implements (store : Store) (keychain : Keychain) : Prop :=
      Archived archiver service items store ∧ keychain = keychainOf archiver service items store
    have erased : ∃ left keychain, left.Sublist acts ∧
        (keychainMachine service items).run (fun _ => none) left = some keychain ∧
        (keychainMachine service items).Along (fun _ _ => True) (fun _ => none) left ∧
        Implements after keychain := by
      refine Transition.Machine.run_erasure ?_ run ⟨archived, nothing.symm⟩
      rintro s a t _ ⟨archived, rfl⟩ step
      obtain ⟨formed, kept, refused⟩ := step_refines documented archives archived step
      by_cases met : Kept Available s a
      · exact Or.inr ⟨_, kept met, trivial, formed, rfl⟩
      · exact Or.inl ⟨formed, (refused met).symm⟩
    obtain ⟨left, keychain, fewer, reached, -, -, rfl⟩ := erased
    exact ⟨left, fewer, reached⟩
  · intro accessible
    rw [← nothing]
    refine Transition.Machine.run_map (P := Archived archiver service items) ?_ run accessible archived
    intro s a t archived met step
    obtain ⟨formed, kept, -⟩ := step_refines documented archives archived step
    exact ⟨formed, kept met⟩
  · intro data account
    have formed : Archived archiver service items after := Transition.Machine.run_invariant
      (fun archived step => (step_refines documented archives archived step).1) run archived
    refine ⟨fun available => ?_, fun refused => saveData_refused documented refused data account⟩
    exact (saveData_available documented archives formed available data account).2

end Refinement

/-- A device that keeps passwords as they are, and none of them in reach while it is locked. -/
structure Device where
  locked : Bool
  passwords : String → String → Option Dictionary

def Device.add (query : Attributes Dictionary) (device : Device) : OSStatus × Device :=
  if device.locked then (errSecInteractionNotAllowed, device)
  else match query .service, query .account, query .valueData with
    | some (.string service), some (.string account), some (.data data) =>
      match device.passwords service account with
      | some _ => (errSecDuplicateItem, device)
      | none => (errSecSuccess, { device with passwords := fun other name =>
          if other = service ∧ name = account then some data else device.passwords other name })
    | _, _, _ => (errSecParam, device)

def Device.copyMatching (query : Attributes Dictionary) (device : Device) :
    OSStatus × Option (Attributes Dictionary) :=
  if device.locked then (errSecInteractionNotAllowed, none)
  else match query .service, query .account with
    | some (.string service), some (.string account) =>
      match device.passwords service account with
      | some data => (errSecSuccess, some (literal [(.account, .string account),
          (.service, .string service), (.valueData, .data data)]))
      | none => (errSecItemNotFound, none)
    | _, _ => (errSecParam, none)

def device : SecItem Dictionary Device := ⟨Device.add, Device.copyMatching⟩

def plain : KeyedArchiver Dictionary := ⟨id, some⟩

theorem device_documented : Documented device Device.passwords (·.locked = false) where
  add_new adds available absent := by
    simp only [device, Device.add, available, adds.service, adds.account, adds.valueData, absent,
      Bool.false_eq_true, if_false]
    exact ⟨trivial, fun _ _ => trivial⟩
  add_existing adds available present := by
    obtain ⟨data, found⟩ := Option.ne_none_iff_exists'.mp present
    simp only [device, Device.add, available, adds.service, adds.account, adds.valueData, found,
      Bool.false_eq_true, if_false, and_self]
  add_refused refused := by
    simp only [device, Device.add, eq_true_of_ne_false refused, if_true]
    exact ⟨by decide, trivial⟩
  copy_existing asks available found := by
    simp only [device, Device.copyMatching, available, asks.service, asks.account, found,
      Bool.false_eq_true, if_false]
    exact ⟨trivial, _, rfl, rfl⟩
  copy_missing asks available absent := by
    simp only [device, Device.copyMatching, available, asks.service, asks.account, absent,
      Bool.false_eq_true, if_false]
  copy_refused refused := by
    simp only [device, Device.copyMatching, eq_true_of_ne_false refused, if_true]
    decide

def setLocked (locked : Bool) : Elsewhere Device.passwords "app" :=
  ⟨fun device => { device with locked := locked }, fun _ _ => rfl⟩

/-- One account is saved, a second one while the device is locked, and the first one again. -/
def threeSaves : List (Action Device.passwords "app") :=
  [.saveData [("email", "ann@mail.com")] "u", .elsewhere (setLocked true),
    .saveData [("email", "bob@mail.com")] "v", .elsewhere (setLocked false),
    .saveData [("email", "ann@work.com")] "u"]

theorem keychain_refined_three_saves : ∃ after left,
    (machine device plain).run ⟨false, fun _ _ => none⟩ threeSaves = some after ∧
    left.Sublist threeSaves ∧ (keychainMachine "app" Device.passwords).run (fun _ => none) left =
      some (keychainOf plain "app" Device.passwords after) ∧
    loadDataForUserAccount device plain "app" "u" after = some [("email", "ann@mail.com")] ∧
    loadDataForUserAccount device plain "app" "v" after = none := by
  obtain ⟨after, run, unlocked, ann, bob⟩ : ∃ after : Device,
      (machine device plain).run ⟨false, fun _ _ => none⟩ threeSaves = some after ∧
      after.locked = false ∧
      keychainOf plain "app" Device.passwords after "u" = some [("email", "ann@mail.com")] ∧
      keychainOf plain "app" Device.passwords after "v" = none := ⟨_, rfl, rfl, rfl, rfl⟩
  obtain ⟨⟨left, fewer, saved⟩, -, loads, -⟩ :=
    keychain_refined device_documented (fun _ => rfl) (fun _ => rfl) run
  exact ⟨after, left, run, fewer, saved, ((loads "u").1 unlocked).trans ann,
    ((loads "v").1 unlocked).trans bob⟩

end MoviesApp.SecureStore
