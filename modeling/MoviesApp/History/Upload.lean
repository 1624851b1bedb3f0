import MoviesApp.Firestore
import MoviesApp.Pool
import MoviesApp.Transition

/-! Everything that writes the users collection: registration, avatar updates and
`uploadHistoryToFirebase`, whose read and write are separate steps of one run. -/
namespace MoviesApp.History
open Firestore

/-- The history field: two parallel arrays. -/
def historyField (ids names : List String) : Value :=
  .map [("id", .strings ids), ("name", .strings names)]

def historyValue (entries : List (String × String)) : Value :=
  historyField (entries.map Prod.fst) (entries.map Prod.snd)

/-- What `uploadHistoryToFirebase` writes once `getDocument` has delivered `data`:
nothing when the field is a dictionary whose arrays do not cast, one fresh entry
when the field (or the document) is absent or no dictionary. -/
def historyUpdate (data : Option Document) (id name : String) : Option Value :=
  match (data.bind (· "history")).bind Value.asDictionary with
  | some history =>
    match (history.lookup "id").bind Value.asStrings,
        (history.lookup "name").bind Value.asStrings with
    | some oldID, some oldName =>
      some (historyField (oldID ++ [id]) (oldName ++ [name]))
    | _, _ => none
  | none => some (historyField [id] [name])

/-- A call whose `getDocument` has not delivered yet. -/
structure Read where
  serial : Nat
  uid : Uid
  id : String
  name : String

/-- A call whose callback has run: `payload` was computed from `snapshot` and is
on its way to the server. -/
structure Write extends Read where
  snapshot : Option Document
  payload : Value

structure State where
  users : Collection
  reads : List Read
  writes : List Write
  /-- Every call made so far for a signed-in user, in order. -/
  calls : List (Uid × String × String)

/-- No user has registered yet. -/
def start : State := ⟨fun _ => none, [], [], []⟩

/-- Here `failed` marks the outcomes with a Firestore error. -/
inductive Action where
  | register (uid : Uid) (firstName lastName : String)
  | updateAvatar (uid : Uid) (url : String)
  | upload (currentUser : Option Uid) (id name : String)
  | getDocument (serial : Nat) (failed : Bool)
  | updateData (serial : Nat) (failed : Bool)

def upload (s : State) (currentUser : Option Uid) (id name : String) : State :=
  match currentUser with
  | none => s
  | some uid => { s with
      reads := s.reads ++ [⟨s.calls.length, uid, id, name⟩]
      calls := s.calls ++ [(uid, id, name)] }

/-- The `getDocument` callback: an erroneous read delivers no document. -/
def delivered (s : State) (call : Read) (reads : List Read) (failed : Bool) : State :=
  let data := if failed then none else s.users call.uid
  match historyUpdate data call.id call.name with
  | some payload => { s with reads := reads, writes := s.writes ++ [⟨call, data, payload⟩] }
  | none => { s with reads := reads }

def written (s : State) (write : Write) (writes : List Write) (failed : Bool) : State :=
  { s with
    writes := writes
    users := if failed then s.users
      else Firestore.updateData s.users write.uid "history" write.payload }

def step (s : State) : Action → Option State
  | .register uid firstName lastName =>
    some { s with users := setData s.users uid (newDocument firstName lastName uid) }
  | .updateAvatar uid url =>
    some { s with users := Firestore.updateData s.users uid "avatarURL" (.string url) }
  | .upload currentUser id name => some (upload s currentUser id name)
  | .getDocument serial failed =>
    (Pool.take? (·.serial == serial) s.reads).map fun (call, reads) => delivered s call reads failed
  | .updateData serial failed =>
    (Pool.take? (·.serial == serial) s.writes).map fun (write, writes) =>
      written s write writes failed

def machine : Transition.Machine State Action := ⟨step⟩

/-- The arguments of the calls made for one user. -/
def State.callsOf (s : State) (uid : Uid) : List (String × String) :=
  (s.calls.filter (·.1 == uid)).map Prod.snd

/-- The arguments of that user's calls that still have a read or a write to come. -/
def State.inFlight (s : State) (uid : Uid) : List (String × String) :=
  (s.reads.filter (·.uid == uid)).map (fun r => (r.id, r.name)) ++
    (s.writes.filter (·.uid == uid)).map (fun w => (w.id, w.name))

/-- The entries a document's history field holds: none when it is absent, the
zipped arrays when they have one length, and nothing readable otherwise. -/
def readHistory (data : Option Document) : Option (List (String × String)) :=
  data.bind fun document =>
    match document "history" with
    | none => some []
    | some value => do
      let history ← value.asDictionary
      let ids ← (history.lookup "id").bind Value.asStrings
      let names ← (history.lookup "name").bind Value.asStrings
      if ids.length = names.length then some (ids.zip names) else none

@[simp] theorem readHistory_historyValue (document : Document) (entries : List (String × String)) :
    readHistory (some (document.setting "history" (historyValue entries))) = some entries := by
  simp [readHistory, historyValue, historyField, Value.asDictionary, List.lookup_cons, List.zip_map']

/-- Writes to another field leave the history as it was. -/
theorem readHistory_setting_other (document : Document) {field : String} (value : Value)
    (other : "history" ≠ field) :
    readHistory (some (document.setting field value)) = readHistory (some document) := by
  simp only [readHistory, Option.bind_some, setting_other other]

/-- The one specification of the callback: from a readable snapshot it appends. -/
theorem historyUpdate_append {data : Option Document} {entries : List (String × String)}
    (read : readHistory data = some entries) (id name : String) :
    historyUpdate data id name = some (historyValue (entries ++ [(id, name)])) := by
  obtain ⟨document, rfl, content⟩ := Option.bind_eq_some_iff.mp read
  cases field : document "history" with
  | none =>
    rw [field] at content
    cases Option.some.inj content
    simp only [historyUpdate, Option.bind_some, field, Option.bind_none]
    rfl
  | some value =>
    rw [field] at content
    simp only [Option.bind_eq_bind, Option.bind_eq_some_iff] at content
    obtain ⟨history, dictionary, ids, foundIds, names, foundNames, zipped⟩ := content
    simp only [historyUpdate, Option.bind_some, field, dictionary,
      Option.bind_eq_some_iff.mpr foundIds, Option.bind_eq_some_iff.mpr foundNames]
    split at zipped
    · rename_i same
      cases Option.some.inj zipped
      simp only [historyValue, List.map_append, List.map_fst_zip (Nat.le_of_eq same),
        List.map_snd_zip (Nat.le_of_eq same.symm), List.map_cons, List.map_nil]
    · contradiction

/-- Whatever was read, the callback adds at most its own write. -/
theorem delivered_cases (s : State) (call : Read) (reads : List Read) (failed : Bool) :
    ∃ added, delivered s call reads failed =
        { s with reads := reads, writes := s.writes ++ added } ∧
      ∀ write ∈ added, write.uid = call.uid := by
  unfold delivered
  cases update : historyUpdate (if failed then none else s.users call.uid) call.id call.name with
  | none => exact ⟨[], by simp only [update, List.append_nil], fun _ member => nomatch member⟩
  | some payload =>
    refine ⟨[_], by simp only [update]; rfl, fun write member => ?_⟩
    rw [List.mem_singleton.mp member]

end MoviesApp.History
