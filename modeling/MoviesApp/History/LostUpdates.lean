import MoviesApp.History.Upload
import MoviesApp.ReadModifyWrite

/-! One user's history is a shared list under read-modify-write. The users
collection refines that abstract list for every user, whatever the other users,
registrations and avatar updates do in between. -/
namespace MoviesApp.History
open Firestore

def Read.entry (call : Read) : String × String := (call.id, call.name)

/-- The copy of the history a call in flight was computed from. -/
def Write.seen (write : Write) : List (String × String) := (readHistory write.snapshot).getD []

/-- The shared list, the calls and the copies in flight of one user. -/
def view (uid : Uid) (s : State) : ReadModifyWrite.State (String × String) where
  current := (readHistory (s.users uid)).getD []
  waiting := (s.reads.filter (·.uid == uid)).map Read.entry
  pending := (s.writes.filter (·.uid == uid)).map fun write => (write.entry, write.seen)
  calls := s.callsOf uid

/-- The user's document exists with a readable history, and so did every copy in
flight, whose payload appends the call's own entry to it. -/
def Readable (uid : Uid) (s : State) : Prop :=
  (∃ entries, readHistory (s.users uid) = some entries) ∧
  ∀ write ∈ s.writes, write.uid = uid →
    ∃ seen, readHistory write.snapshot = some seen ∧
      write.payload = historyValue (seen ++ [write.entry])

/-- No operation of this user's calls fails, and nobody registers over the document. -/
def NoError (uid : Uid) (s : State) : Action → Prop
  | .register other _ _ => other ≠ uid
  | .getDocument serial failed =>
    ∀ call ∈ s.reads.find? (·.serial == serial), call.uid = uid → failed = false
  | .updateData serial failed =>
    ∀ write ∈ s.writes.find? (·.serial == serial), write.uid = uid → failed = false
  | _ => True

/-- A write of this user's calls finds the history its own read delivered. -/
def UpToDate (uid : Uid) (s : State) : Action → Prop
  | .updateData serial _ =>
    ∀ write ∈ s.writes.find? (·.serial == serial), write.uid = uid →
      readHistory (s.users uid) = readHistory write.snapshot
  | _ => True

instance (uid : Uid) (s : State) : (a : Action) → Decidable (NoError uid s a)
  | .register _ _ _ => inferInstanceAs (Decidable (_ ≠ _))
  | .getDocument _ _ | .updateData _ _ => inferInstanceAs (Decidable (∀ _ ∈ _, _ → _))
  | .updateAvatar _ _ | .upload _ _ _ => .isTrue trivial

instance (uid : Uid) (s : State) : (a : Action) → Decidable (UpToDate uid s a)
  | .updateData _ _ => inferInstanceAs (Decidable (∀ _ ∈ _, _ → _))
  | .register _ _ _ | .updateAvatar _ _ | .upload _ _ _ | .getDocument _ _ => .isTrue trivial

theorem coe_snoc (xs : List α) (x : α) : ((xs ++ [x] : List α) : Multiset α) = x ::ₘ (xs : Multiset α) := by
  rw [← Multiset.coe_add, Multiset.coe_singleton, add_comm, Multiset.singleton_add]

/-- Only the history field of the user's own document and the user's own
operations are visible in the view. -/
theorem view_congr {uid : Uid} {s t : State}
    (users : readHistory (t.users uid) = readHistory (s.users uid))
    (reads : (t.reads.filter (·.uid == uid)).Perm (s.reads.filter (·.uid == uid)))
    (writes : (t.writes.filter (·.uid == uid)).Perm (s.writes.filter (·.uid == uid)))
    (calls : t.callsOf uid = s.callsOf uid) : view uid t = view uid s := by
  simp only [view, users, calls]
  congr 1
  · exact Multiset.coe_eq_coe.mpr (reads.map _)
  · exact Multiset.coe_eq_coe.mpr (writes.map _)

theorem Readable.congr {uid : Uid} {s t : State} (readable : Readable uid s)
    (users : readHistory (t.users uid) = readHistory (s.users uid))
    (writes : ∀ write ∈ t.writes, write.uid = uid → write ∈ s.writes) : Readable uid t :=
  ⟨users ▸ readable.1, fun write member own => readable.2 write (writes write member own) own⟩

/-- A step of the collection is a step of the abstract list, or invisible in it. -/
def Refines (uid : Uid) (s : State) (a : Action) (t : State) : Prop :=
  Readable uid t ∧ ((view uid t = view uid s ∧ UpToDate uid s a) ∨
    ∃ e, ReadModifyWrite.Step (view uid s) e (view uid t) ∧
      (UpToDate uid s a ↔ ReadModifyWrite.Fresh (view uid s) e))

theorem readHistory_updateData {users : Collection} {uid other : Uid} {field : String}
    (value : Value) (foreign : other = uid → "history" ≠ field) :
    readHistory (updateData users uid field value other) = readHistory (users other) := by
  rw [updateData_apply]
  split
  · rename_i same
    subst same
    cases found : users other with
    | none => rfl
    | some document => exact readHistory_setting_other document value (foreign rfl)
  · rfl

theorem upload_refines {uid : Uid} {s : State} (readable : Readable uid s)
    (currentUser : Option Uid) (id name : String) :
    Refines uid s (.upload currentUser id name) (upload s currentUser id name) := by
  cases currentUser with
  | none => exact ⟨readable, Or.inl ⟨rfl, trivial⟩⟩
  | some caller =>
    refine ⟨readable.congr rfl (fun _ member _ => member), ?_⟩
    by_cases own : caller = uid
    · subst own
      have abstract := ReadModifyWrite.Step.call (view caller s) (id, name)
      refine Or.inr ⟨.call (id, name), ?_, Iff.rfl⟩
      have same : view caller (upload s (some caller) id name) =
          { view caller s with
            waiting := (id, name) ::ₘ (view caller s).waiting
            calls := (id, name) ::ₘ (view caller s).calls } := by
        simp only [view, upload, State.callsOf, List.filter_append, List.filter_cons_of_pos,
          List.filter_nil, beq_self_eq_true, List.map_append, List.map_cons, List.map_nil,
          coe_snoc, Read.entry]
      exact same ▸ abstract
    · refine Or.inl ⟨view_congr rfl ?_ (.refl _) ?_, trivial⟩
      · simp [upload, own]
      · simp [upload, State.callsOf, own]

/-- A read for the user is a read of the abstract protocol. -/
theorem delivered_refines_own {s : State} {call : Read} {reads : List Read} {serial : Nat}
    (readable : Readable call.uid s)
    (taken : Pool.take? (·.serial == serial) s.reads = some (call, reads)) :
    Refines call.uid s (.getDocument serial false) (delivered s call reads false) := by
  have pool := Pool.take?_filter taken (·.uid == call.uid)
  obtain ⟨entries, stored⟩ := readable.1
  have update := historyUpdate_append stored call.id call.name
  simp only [beq_self_eq_true, if_true] at pool
  have after : delivered s call reads false = { s with
      reads := reads
      writes := s.writes ++ [⟨call, s.users call.uid, historyValue (entries ++ [call.entry])⟩] } := by
    simp only [delivered, Bool.false_eq_true, if_false, update]
    rfl
  rw [after]
  refine ⟨⟨readable.1, ?_⟩, Or.inr ⟨.read call.entry, ?_, Iff.rfl⟩⟩
  · exact Pool.forall_snoc readable.2 fun _ => ⟨entries, stored, rfl⟩
  · have waiting : (view call.uid s).waiting =
        call.entry ::ₘ ((reads.filter (·.uid == call.uid)).map Read.entry : List _) :=
      Multiset.coe_eq_coe.mpr (pool.map _)
    have abstract := ReadModifyWrite.Step.read (view call.uid s) call.entry _ waiting
    have same : view call.uid { s with
        reads := reads
        writes := s.writes ++
          [⟨call, s.users call.uid, historyValue (entries ++ [call.entry])⟩] } =
        { view call.uid s with
          waiting := ((reads.filter (·.uid == call.uid)).map Read.entry : List _)
          pending := (call.entry, (view call.uid s).current) ::ₘ (view call.uid s).pending } := by
      simp only [view, State.callsOf, List.filter_append, List.filter_cons_of_pos,
        List.filter_nil, beq_self_eq_true, List.map_append, List.map_cons, List.map_nil,
        coe_snoc, Write.seen]
    exact same ▸ abstract

/-- A read for somebody else changes nothing of the user's. -/
theorem delivered_refines_other {uid : Uid} {s : State} {call : Read} {reads : List Read}
    {serial : Nat} {failed : Bool} (readable : Readable uid s)
    (taken : Pool.take? (·.serial == serial) s.reads = some (call, reads)) (other : call.uid ≠ uid) :
    Refines uid s (.getDocument serial failed) (delivered s call reads failed) := by
  have pool := Pool.take?_filter taken (·.uid == uid)
  have foreign : (call.uid == uid) = false := by simpa using other
  simp only [foreign, Bool.false_eq_true, if_false] at pool
  obtain ⟨added, after, owners⟩ := delivered_cases s call reads failed
  have none_mine : added.filter (·.uid == uid) = [] := by
    refine List.filter_eq_nil_iff.mpr fun write member => ?_
    rw [owners write member, foreign]
    decide
  rw [after]
  refine ⟨readable.congr rfl ?_, Or.inl ⟨view_congr rfl pool.symm ?_ rfl, trivial⟩⟩
  · intro write member mine
    rcases List.mem_append.mp member with held | new
    · exact held
    · exact absurd (owners write new ▸ mine) other
  · rw [List.filter_append, none_mine, List.append_nil]

theorem delivered_refines {uid : Uid} {s : State} {call : Read} {reads : List Read}
    {serial : Nat} {failed : Bool} (readable : Readable uid s)
    (taken : Pool.take? (·.serial == serial) s.reads = some (call, reads))
    (succeeds : call.uid = uid → failed = false) :
    Refines uid s (.getDocument serial failed) (delivered s call reads failed) := by
  by_cases own : call.uid = uid
  · obtain rfl := succeeds own
    subst own
    exact delivered_refines_own readable taken
  · exact delivered_refines_other readable taken own

/-- A write for the user is a write of the abstract protocol, and as fresh as that one. -/
theorem written_refines_own {s : State} {write : Write} {writes : List Write} {serial : Nat}
    (readable : Readable write.uid s)
    (taken : Pool.take? (·.serial == serial) s.writes = some (write, writes)) :
    Refines write.uid s (.updateData serial false) (written s write writes false) := by
  have pool := Pool.take?_filter taken (·.uid == write.uid)
  have chosen := Pool.take?_find taken
  obtain ⟨seen, snapshot, payload⟩ := readable.2 write (Pool.take?_mem taken) rfl
  obtain ⟨⟨entries, stored⟩, others⟩ := readable
  obtain ⟨document, exists_, -⟩ := Option.bind_eq_some_iff.mp stored
  simp only [beq_self_eq_true, if_true] at pool
  have after : readHistory ((written s write writes false).users write.uid) =
      some (seen ++ [write.entry]) := by
    simp only [written, Bool.false_eq_true, if_false, updateData_same, exists_,
      Option.map_some, payload, readHistory_historyValue]
  refine ⟨⟨⟨_, after⟩, ?_⟩, Or.inr ⟨.write write.entry seen, ?_, ?_⟩⟩
  · exact fun other member mine => others other (Pool.take?_left taken member) mine
  · have pending : (view write.uid s).pending = (write.entry, seen) ::ₘ
        ((writes.filter (·.uid == write.uid)).map fun w => (w.entry, w.seen) : List _) := by
      have perm := pool.map fun w : Write => (w.entry, w.seen)
      rw [List.map_cons, show write.seen = seen by simp only [Write.seen, snapshot, Option.getD_some]]
        at perm
      exact Multiset.coe_eq_coe.mpr perm
    have abstract := ReadModifyWrite.Step.write (view write.uid s) write.entry seen _ pending
    have same : view write.uid (written s write writes false) = { view write.uid s with
        pending := ((writes.filter (·.uid == write.uid)).map fun w => (w.entry, w.seen) : List _)
        current := seen ++ [write.entry] } := by
      simp only [view, after, Option.getD_some]
      rfl
    exact same ▸ abstract
  · simp only [UpToDate, chosen, Option.mem_def, Option.some.injEq, forall_eq',
      snapshot, stored, ReadModifyWrite.Fresh, view, Option.getD_some, true_implies]

theorem written_refines_other {uid : Uid} {s : State} {write : Write} {writes : List Write}
    {serial : Nat} {failed : Bool} (readable : Readable uid s)
    (taken : Pool.take? (·.serial == serial) s.writes = some (write, writes))
    (other : write.uid ≠ uid) :
    Refines uid s (.updateData serial failed) (written s write writes failed) := by
  have pool := Pool.take?_filter taken (·.uid == uid)
  have foreign : (write.uid == uid) = false := by simpa using other
  simp only [foreign, Bool.false_eq_true, if_false] at pool
  have users : readHistory ((written s write writes failed).users uid) =
      readHistory (s.users uid) := by
    cases failed with
    | true => rfl
    | false => exact readHistory_updateData _ (fun same => absurd same.symm other)
  refine ⟨readable.congr users (fun _ member _ => Pool.take?_left taken member),
    Or.inl ⟨view_congr users (.refl _) pool.symm rfl, ?_⟩⟩
  intro found member mine
  cases Option.some.inj ((Pool.take?_find taken).symm.trans member)
  exact absurd mine other

theorem written_refines {uid : Uid} {s : State} {write : Write} {writes : List Write}
    {serial : Nat} {failed : Bool} (readable : Readable uid s)
    (taken : Pool.take? (·.serial == serial) s.writes = some (write, writes))
    (succeeds : write.uid = uid → failed = false) :
    Refines uid s (.updateData serial failed) (written s write writes failed) := by
  by_cases own : write.uid = uid
  · obtain rfl := succeeds own
    subst own
    exact written_refines_own readable taken
  · exact written_refines_other readable taken own

theorem step_refines {uid : Uid} {s t : State} {a : Action} (readable : Readable uid s)
    (noError : NoError uid s a) (step : machine.step s a = some t) : Refines uid s a t := by
  cases a with
  | register other firstName lastName =>
    cases Option.some.inj step
    have users : readHistory (setData s.users other (newDocument firstName lastName other) uid) =
        readHistory (s.users uid) := by rw [setData_other (Ne.symm noError)]
    exact ⟨readable.congr users (fun _ member _ => member),
      Or.inl ⟨view_congr users (.refl _) (.refl _) rfl, trivial⟩⟩
  | updateAvatar other url =>
    cases Option.some.inj step
    have users : readHistory (updateData s.users other "avatarURL" (.string url) uid) =
        readHistory (s.users uid) :=
      readHistory_updateData _ (fun _ => by decide)
    exact ⟨readable.congr users (fun _ member _ => member),
      Or.inl ⟨view_congr users (.refl _) (.refl _) rfl, trivial⟩⟩
  | upload currentUser id name =>
    cases Option.some.inj step
    exact upload_refines readable currentUser id name
  | getDocument serial failed =>
    obtain ⟨⟨call, reads⟩, taken, after⟩ := Option.map_eq_some_iff.mp step
    subst after
    exact delivered_refines readable taken (noError call (Pool.take?_find taken))
  | updateData serial failed =>
    obtain ⟨⟨write, writes⟩, taken, after⟩ := Option.map_eq_some_iff.mp step
    subst after
    exact written_refines readable taken (noError write (Pool.take?_find taken))

/-- The stored history is the initial entries followed by the entry of every
call made for the user, each once. -/
def HoldsEveryCall (uid : Uid) (entries : List (String × String)) (s : State) : Prop :=
  ∃ order : List (String × String), order.Perm (s.callsOf uid) ∧
    readHistory (s.users uid) = some (entries ++ order)

theorem holdsEveryCall_iff {uid : Uid} {s : State} (readable : Readable uid s)
    (entries : List (String × String)) :
    HoldsEveryCall uid entries s ↔ ReadModifyWrite.Complete entries (view uid s) := by
  obtain ⟨⟨current, stored⟩, -⟩ := readable
  constructor
  · rintro ⟨order, perm, content⟩
    refine ⟨order, Multiset.coe_eq_coe.mpr perm, ?_⟩
    simp only [view, content, Option.getD_some]
  · rintro ⟨order, perm, content⟩
    refine ⟨order, Multiset.coe_eq_coe.mp perm, ?_⟩
    simpa only [view, stored, Option.getD_some, Option.some.injEq] using content

theorem view_settled {uid : Uid} {s : State} (finished : s.inFlight uid = []) :
    (view uid s).waiting = 0 ∧ (view uid s).pending = 0 := by
  obtain ⟨reads, writes⟩ := List.append_eq_nil_iff.mp finished
  rw [List.map_eq_nil_iff] at reads writes
  constructor
  · simp only [view, reads, List.map_nil, Multiset.coe_nil]
  · simp only [view, writes, List.map_nil, Multiset.coe_nil]

/-- Exactly when no call is lost: in every run without Firestore errors, once all
calls of the user have finished, the history holds each of them once if and only
if every write found the history its own read had delivered. -/
theorem history_complete_iff {users : Collection} {uid : Uid}
    {entries : List (String × String)} {acts : List Action} {s : State}
    (stored : readHistory (users uid) = some entries)
    (run : machine.run ⟨users, [], [], []⟩ acts = some s)
    (noError : machine.Along (NoError uid) ⟨users, [], [], []⟩ acts)
    (finished : s.inFlight uid = []) :
    HoldsEveryCall uid entries s ↔ machine.Along (UpToDate uid) ⟨users, [], [], []⟩ acts := by
  have initial : Readable uid ⟨users, [], [], []⟩ ∧
      ReadModifyWrite.Intact entries (view uid ⟨users, [], [], []⟩) := by
    refine ⟨⟨⟨entries, stored⟩, fun _ member => nomatch member⟩, ?_⟩
    simp only [view, stored, Option.getD_some]
    exact ReadModifyWrite.initial_intact entries
  have trap := Transition.Machine.along_trap (UpToDate uid)
    (fun s => Readable uid s ∧ ReadModifyWrite.Intact entries (view uid s))
    (fun s => Readable uid s ∧ ReadModifyWrite.Short entries (view uid s))
    ?keeps ?slips ?stays run noError initial
  case keeps =>
    rintro s a t ⟨readable, intact⟩ permitted met step
    obtain ⟨next, ⟨same, -⟩ | ⟨e, abstract, fresh⟩⟩ := step_refines readable permitted step
    · exact ⟨next, same ▸ intact⟩
    · exact ⟨next, intact.step (fresh.mp met) abstract⟩
  case slips =>
    rintro s a t ⟨readable, intact⟩ permitted broken step
    obtain ⟨next, ⟨-, met⟩ | ⟨e, abstract, fresh⟩⟩ := step_refines readable permitted step
    · exact absurd met broken
    · exact ⟨next, intact.slip (fun met => broken (fresh.mpr met)) abstract⟩
  case stays =>
    rintro s a t ⟨readable, short⟩ permitted step
    obtain ⟨next, ⟨same, -⟩ | ⟨e, abstract, -⟩⟩ := step_refines readable permitted step
    · exact ⟨next, same ▸ short⟩
    · exact ⟨next, short.step abstract⟩
  obtain ⟨waiting, pending⟩ := view_settled finished
  rcases trap with ⟨along, readable, intact⟩ | ⟨broken, readable, short⟩
  · rw [holdsEveryCall_iff readable]
    exact iff_of_true (intact.complete waiting pending) along
  · rw [holdsEveryCall_iff readable]
    exact iff_of_false short.incomplete broken

/-- One registered account, before any call. -/
def registered : Collection := setData (fun _ => none) "u" (newDocument "Ann" "Lee" "u")

theorem history_complete_one_by_one : HoldsEveryCall "u" []
      ⟨updateData (updateData registered "u" "history" (historyValue [("1", "A")]))
        "u" "history" (historyValue [("1", "A"), ("2", "B")]), [], [],
        [("u", "1", "A"), ("u", "2", "B")]⟩ ↔
    machine.Along (UpToDate "u") ⟨registered, [], [], []⟩
      [.upload (some "u") "1" "A", .getDocument 0 false, .updateData 0 false,
        .upload (some "u") "2" "B", .getDocument 1 false, .updateData 1 false] :=
  @history_complete_iff registered "u" [] _ _ rfl rfl (by decide) rfl

/-- Two details screens record at once: both read before either writes. -/
def overlapping : List Action :=
  [.upload (some "u") "1" "A", .upload (some "u") "2" "B", .getDocument 0 false,
    .getDocument 1 false, .updateData 0 false, .updateData 1 false]

theorem overlapping_uploads_lose_one :
    ∃ s, machine.run ⟨registered, [], [], []⟩ overlapping = some s ∧
      machine.Along (NoError "u") ⟨registered, [], [], []⟩ overlapping ∧
      s.inFlight "u" = [] ∧ readHistory (s.users "u") = some [("2", "B")] ∧
      ¬ HoldsEveryCall "u" [] s := by
  refine ⟨_, rfl, by decide, rfl, rfl, ?_⟩
  rintro ⟨order, perm, content⟩
  have stored : [("2", "B")] = order := Option.some.inj content
  have lengths := perm.length_eq
  rw [← stored] at lengths
  contradiction

end MoviesApp.History
