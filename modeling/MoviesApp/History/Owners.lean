import MoviesApp.History.WellFormed

/-! Whose document a step changes. Reads and writes carry the position of their call, so
every operation in flight can be traced back to the user it was started for. -/
namespace MoviesApp.History
open Firestore

/-- A read or a write is the operation of one call, and `serial` is that call's position. -/
structure Numbered (s : State) : Prop where
  reads : ∀ call ∈ s.reads, s.calls[call.serial]? = some (call.uid, call.id, call.name)
  writes : ∀ write ∈ s.writes, s.calls[write.serial]? = some (write.uid, write.id, write.name)

theorem upload_numbered {s : State} (numbered : Numbered s) (currentUser : Option Uid)
    (id name : String) : Numbered (upload s currentUser id name) := by
  cases currentUser with
  | none => exact numbered
  | some uid =>
    have kept : ∀ {serial : Nat} {call : Uid × String × String}, s.calls[serial]? = some call →
        (s.calls ++ [(uid, id, name)])[serial]? = some call := by
      intro serial call found
      rw [List.getElem?_append_left (List.getElem?_eq_some_iff.mp found).1, found]
    exact ⟨Pool.forall_snoc (fun call member => kept (numbered.reads call member))
      List.getElem?_concat_length, fun write member => kept (numbered.writes write member)⟩

theorem delivered_numbered {s : State} {call : Read} {rest : List Read} {serial : Nat}
    (numbered : Numbered s) (taken : Pool.take? (·.serial == serial) s.reads = some (call, rest))
    (failed : Bool) : Numbered (delivered s call rest failed) := by
  have left : ∀ other ∈ rest, s.calls[other.serial]? = some (other.uid, other.id, other.name) :=
    fun other member => numbered.reads other (Pool.take?_left taken member)
  unfold delivered
  dsimp only
  split
  · exact ⟨left, Pool.forall_snoc numbered.writes (numbered.reads call (Pool.take?_mem taken))⟩
  · exact ⟨left, numbered.writes⟩

theorem step_numbered {s t : State} {a : Action} (numbered : Numbered s)
    (step : History.step s a = some t) : Numbered t := by
  cases a with
  | register | updateAvatar =>
    cases Option.some.inj step
    exact ⟨numbered.reads, numbered.writes⟩
  | upload currentUser id name =>
    cases Option.some.inj step
    exact upload_numbered numbered currentUser id name
  | getDocument serial failed =>
    obtain ⟨⟨call, rest⟩, taken, rfl⟩ := Option.map_eq_some_iff.mp step
    exact delivered_numbered numbered taken failed
  | updateData serial failed =>
    obtain ⟨⟨write, rest⟩, taken, rfl⟩ := Option.map_eq_some_iff.mp step
    exact ⟨numbered.reads,
      fun other member => numbered.writes other (Pool.take?_left taken member)⟩

/-- The user for whom the operation behind a step was started: for an upload's read and
write, the one its call was made for. -/
def startedFor (s : State) : Action → Option Uid
  | .register uid _ _ | .updateAvatar uid _ => some uid
  | .upload currentUser _ _ => currentUser
  | .getDocument serial _ | .updateData serial _ => (s.calls[serial]?).map Prod.fst

theorem users_other {s t : State} {a : Action} {uid : Uid} (numbered : Numbered s)
    (step : History.step s a = some t) (other : startedFor s a ≠ some uid) :
    t.users uid = s.users uid := by
  cases a with
  | register owner firstName lastName =>
    cases Option.some.inj step
    exact setData_other fun same => other (congrArg some same.symm)
  | updateAvatar owner url =>
    cases Option.some.inj step
    exact (updateData_apply _ _ _ _ _).trans (if_neg fun same => other (congrArg some same.symm))
  | upload currentUser id name =>
    cases Option.some.inj step
    cases currentUser <;> rfl
  | getDocument serial failed =>
    obtain ⟨⟨call, rest⟩, -, rfl⟩ := Option.map_eq_some_iff.mp step
    obtain ⟨added, shape, -⟩ := delivered_cases s call rest failed
    dsimp only
    rw [shape]
  | updateData serial failed =>
    obtain ⟨⟨write, rest⟩, taken, rfl⟩ := Option.map_eq_some_iff.mp step
    obtain rfl : write.serial = serial := beq_iff_eq.mp (Pool.take?_spec taken).1
    have owner : uid ≠ write.uid := by
      rintro rfl
      apply other
      simp only [startedFor, numbered.writes write (Pool.take?_mem taken), Option.map_some]
    cases failed with
    | true => rfl
    | false => exact (updateData_apply _ _ _ _ _).trans (if_neg owner)

/-- The entries of a well-formed document are arguments of calls for its user. -/
theorem WellFormed.entries {calls : List (Uid × String × String)} {uid : Uid} {document : Document}
    (formed : WellFormed calls uid document) :
    ∃ entries, readHistory (some document) = some entries ∧
      ∀ entry ∈ entries, (uid, entry.1, entry.2) ∈ calls := by
  rcases formed with absent | ⟨ids, names, field, -, same, pairs⟩
  · exact ⟨[], by simp only [readHistory, Option.bind_some, absent], List.forall_mem_nil _⟩
  · obtain ⟨dictionary, idArray, nameArray⟩ := historyField_casts ids names
    refine ⟨ids.zip names, ?_, ?_⟩
    · simp only [readHistory, Option.bind_some, field, dictionary, Option.bind_eq_bind, idArray,
        nameArray, if_pos same]
    · intro entry member
      obtain ⟨i, found⟩ := List.mem_iff_getElem?.mp member
      obtain ⟨id, name⟩ := List.getElem?_zip_eq_some.mp found
      exact pairs i entry.1 entry.2 id name

end MoviesApp.History
