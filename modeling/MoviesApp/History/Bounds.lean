import MoviesApp.History.LostUpdates

/-! What may become of a history when anything fails: reads and writes with Firestore errors,
documents that are missing, a registration over a document. Each is a step of the lossy
protocol, so entries are lost but never doubled, and no other user's entry comes in. A read
that succeeds brings the document as it stands; older copies, which Firestore may keep for a
device without a connection, are left out. -/
namespace MoviesApp.History
open Firestore

/-- A document that is there has a readable history. -/
def Legible (data : Option Document) : Prop := data.isSome → (readHistory data).isSome

/-- The entries a document holds, none if it is missing. -/
def entriesOf (data : Option Document) : List (String × String) := (readHistory data).getD []

/-- The user's document is legible, and every write in flight appends its own entry to the
entries it has seen. -/
structure Appending (uid : Uid) (s : State) : Prop where
  legible : Legible (s.users uid)
  writes : ∀ write ∈ s.writes, write.uid = uid →
    write.payload = historyValue (write.seen ++ [write.entry])

/-- The step keeps this, and is one of the lossy protocol or not visible there. -/
def Lossy (uid : Uid) (s t : State) : Prop :=
  Appending uid t ∧
    (view uid t = view uid s ∨ ReadModifyWrite.LossyStep (view uid s) (view uid t))

variable {uid : Uid} {s t : State}

theorem Lossy.bounded {initial : List (String × String)} (lossy : Lossy uid s t)
    (bounded : ReadModifyWrite.AtMostOnce initial (view uid s)) :
    ReadModifyWrite.AtMostOnce initial (view uid t) := by
  rcases lossy.2 with same | step
  · exact same ▸ bounded
  · exact bounded.step step

theorem Legible.read {data : Option Document} (legible : Legible data) {document : Document}
    (present : data = some document) : readHistory data = some (entriesOf data) := by
  obtain ⟨entries, read⟩ := Option.isSome_iff_exists.mp (legible (Option.isSome_of_eq_some present))
  rw [entriesOf, read, Option.getD_some]

/-- From whatever is legible the callback appends. -/
theorem historyUpdate_legible {data : Option Document} (legible : Legible data) (id name : String) :
    historyUpdate data id name = some (historyValue (entriesOf data ++ [(id, name)])) := by
  cases data with
  | none => rfl
  | some document => exact historyUpdate_append (legible.read rfl) id name

theorem Legible.updateData {users : Collection} {other : Uid} {field : String} {value : Value}
    (legible : Legible (users uid))
    (kept : readHistory (updateData users other field value uid) = readHistory (users uid)) :
    Legible (Firestore.updateData users other field value uid) := by
  intro present
  rw [kept]
  apply legible
  rw [updateData_apply] at present
  split at present
  · rename_i same
    rw [same]
    exact (Option.isSome_map ..).symm.trans present
  · exact present

/-- A step after which neither the user's document nor what is in flight looks different. -/
theorem Appending.invisible (appending : Appending uid s) (legible : Legible (t.users uid))
    (users : readHistory (t.users uid) = readHistory (s.users uid))
    (reads : (t.reads.filter (·.uid == uid)).Perm (s.reads.filter (·.uid == uid)))
    (writes : (t.writes.filter (·.uid == uid)).Perm (s.writes.filter (·.uid == uid)))
    (calls : t.callsOf uid = s.callsOf uid) : Lossy uid s t := by
  refine ⟨⟨legible, fun write member own => ?_⟩, Or.inl (view_congr users reads writes calls)⟩
  have mine : write ∈ t.writes.filter (·.uid == uid) :=
    List.mem_filter.mpr ⟨member, beq_iff_eq.mpr own⟩
  exact appending.writes write (List.mem_of_mem_filter (writes.mem_iff.mp mine)) own

theorem register_lossy (appending : Appending uid s) (other : Uid) (firstName lastName : String) :
    Lossy uid s { s with users := setData s.users other (newDocument firstName lastName other) } := by
  by_cases own : other = uid
  · subst own
    have fresh : readHistory (some (newDocument firstName lastName other)) = some [] := rfl
    have after : readHistory (setData s.users other (newDocument firstName lastName other) other) =
        some [] := by rw [setData_same, fresh]
    refine ⟨⟨fun _ => Option.isSome_of_eq_some after, appending.writes⟩, Or.inr ?_⟩
    have same : view other { s with
        users := setData s.users other (newDocument firstName lastName other) } =
        { view other s with current := [] } := by
      simp only [view, after, Option.getD_some]
      rfl
    exact same ▸ ReadModifyWrite.LossyStep.reset _
  · have users : setData s.users other (newDocument firstName lastName other) uid = s.users uid :=
      setData_other (Ne.symm own)
    have legible : Legible (setData s.users other (newDocument firstName lastName other) uid) :=
      users.symm ▸ appending.legible
    exact appending.invisible legible (congrArg readHistory users) (.refl _) (.refl _) rfl

theorem updateAvatar_lossy (appending : Appending uid s) (other : Uid) (url : String) :
    Lossy uid s { s with
      users := Firestore.updateData s.users other "avatarURL" (.string url) } := by
  have users : readHistory (updateData s.users other "avatarURL" (.string url) uid) =
      readHistory (s.users uid) := readHistory_updateData _ fun _ => by decide
  exact appending.invisible (appending.legible.updateData users) users (.refl _) (.refl _) rfl

theorem upload_lossy (appending : Appending uid s) (currentUser : Option Uid) (id name : String) :
    Lossy uid s (upload s currentUser id name) := by
  cases currentUser with
  | none => exact ⟨appending, Or.inl rfl⟩
  | some caller =>
    by_cases own : caller = uid
    · subst own
      refine ⟨⟨appending.legible, appending.writes⟩, Or.inr (.protocol (.call (id, name)) ?_)⟩
      have same : view caller (upload s (some caller) id name) =
          { view caller s with
            waiting := (id, name) ::ₘ (view caller s).waiting
            calls := (id, name) ::ₘ (view caller s).calls } := by
        simp only [view, upload, State.callsOf, List.filter_append, List.filter_cons_of_pos,
          List.filter_nil, beq_self_eq_true, List.map_append, List.map_cons, List.map_nil,
          coe_snoc, Read.entry]
      exact same ▸ ReadModifyWrite.Step.call _ _
    · refine appending.invisible appending.legible rfl ?_ (.refl _) ?_
      · simp [upload, own]
      · simp [upload, State.callsOf, own]

/-- A read, failed or not, leaves a write that appends to what it has seen. -/
theorem delivered_lossy_own {call : Read} {reads : List Read} {serial : Nat} {failed : Bool}
    (appending : Appending call.uid s)
    (taken : Pool.take? (·.serial == serial) s.reads = some (call, reads)) :
    Lossy call.uid s (delivered s call reads failed) := by
  have pool := Pool.take?_filter taken (·.uid == call.uid)
  simp only [beq_self_eq_true, if_true] at pool
  let data := if failed then none else s.users call.uid
  have legible : Legible data := by
    cases failed with
    | true => exact fun present => nomatch present
    | false => exact appending.legible
  let write : Write := ⟨call, data, historyValue (entriesOf data ++ [call.entry])⟩
  have after : delivered s call reads failed =
      { s with reads := reads, writes := s.writes ++ [write] } := by
    have update : historyUpdate data call.id call.name = some write.payload :=
      historyUpdate_legible legible call.id call.name
    simp only [delivered]
    rw [update]
  rw [after]
  refine ⟨⟨appending.legible, Pool.forall_snoc appending.writes fun _ => rfl⟩, Or.inr ?_⟩
  have waiting : (view call.uid s).waiting =
      call.entry ::ₘ ((reads.filter (·.uid == call.uid)).map Read.entry : List _) :=
    Multiset.coe_eq_coe.mpr (pool.map _)
  have same : view call.uid { s with reads := reads, writes := s.writes ++ [write] } =
      { view call.uid s with
        waiting := ((reads.filter (·.uid == call.uid)).map Read.entry : List _)
        pending := (call.entry, entriesOf data) ::ₘ (view call.uid s).pending } := by
    simp only [view, State.callsOf, List.filter_append, List.filter_cons_of_pos,
      List.filter_nil, beq_self_eq_true, List.map_append, List.map_cons, List.map_nil,
      coe_snoc, Write.seen, write]
    rfl
  rw [same]
  cases failed with
  | true => exact .readNothing _ _ _ waiting
  | false => exact .protocol (.read call.entry) (.read _ _ _ waiting)

theorem delivered_lossy {call : Read} {reads : List Read} {serial : Nat} {failed : Bool}
    (appending : Appending uid s)
    (taken : Pool.take? (·.serial == serial) s.reads = some (call, reads)) :
    Lossy uid s (delivered s call reads failed) := by
  by_cases own : call.uid = uid
  · subst own
    exact delivered_lossy_own appending taken
  · have pool := Pool.take?_filter taken (·.uid == uid)
    have foreign : (call.uid == uid) = false := by simpa using own
    simp only [foreign, Bool.false_eq_true, if_false] at pool
    obtain ⟨added, after, owners⟩ := delivered_cases s call reads failed
    have none_mine : added.filter (·.uid == uid) = [] := by
      refine List.filter_eq_nil_iff.mpr fun write member => ?_
      rw [owners write member, foreign]
      decide
    rw [after]
    refine appending.invisible appending.legible rfl pool.symm ?_ rfl
    rw [List.filter_append, none_mine, List.append_nil]

/-- A write puts what it has seen and its own entry in place, unless it fails or there is no
document. -/
theorem written_lossy_own {write : Write} {writes : List Write} {serial : Nat} {failed : Bool}
    (appending : Appending write.uid s)
    (taken : Pool.take? (·.serial == serial) s.writes = some (write, writes)) :
    Lossy write.uid s (written s write writes failed) := by
  have pool := Pool.take?_filter taken (·.uid == write.uid)
  simp only [beq_self_eq_true, if_true] at pool
  have payload := appending.writes write (Pool.take?_mem taken) rfl
  have others : ∀ other ∈ writes, other.uid = write.uid →
      other.payload = historyValue (other.seen ++ [other.entry]) :=
    fun other member => appending.writes other (Pool.take?_left taken member)
  let left : List ((String × String) × List (String × String)) :=
    (writes.filter (·.uid == write.uid)).map fun w => (w.entry, w.seen)
  have pending : (view write.uid s).pending = (write.entry, write.seen) ::ₘ (left : Multiset _) :=
    Multiset.coe_eq_coe.mpr (pool.map fun w => (w.entry, w.seen))
  by_cases lost : failed = true ∨ s.users write.uid = none
  · have users : (written s write writes failed).users write.uid = s.users write.uid := by
      rcases lost with rfl | missing
      · rfl
      · cases failed with
        | true => rfl
        | false => exact (updateData_same ..).trans (missing.symm ▸ rfl)
    have same : view write.uid (written s write writes failed) =
        { view write.uid s with pending := (left : Multiset _) } := by
      simp only [view, users]
      rfl
    refine ⟨⟨users.symm ▸ appending.legible, others⟩, Or.inr ?_⟩
    exact same ▸ ReadModifyWrite.LossyStep.giveUp _ _ _ pending
  · obtain ⟨succeeds, present⟩ := not_or.mp lost
    obtain rfl := Bool.eq_false_iff.mpr succeeds
    obtain ⟨document, found⟩ := Option.ne_none_iff_exists'.mp present
    have after : readHistory ((written s write writes false).users write.uid) =
        some (write.seen ++ [write.entry]) := by
      simp only [written, Bool.false_eq_true, if_false, updateData_same, found, Option.map_some,
        payload, readHistory_historyValue]
    have same : view write.uid (written s write writes false) =
        { view write.uid s with
          pending := (left : Multiset _)
          current := write.seen ++ [write.entry] } := by
      simp only [view, after, Option.getD_some]
      rfl
    refine ⟨⟨fun _ => Option.isSome_of_eq_some after, others⟩, Or.inr ?_⟩
    exact same ▸ .protocol (.write write.entry write.seen) (.write _ _ _ _ pending)

theorem written_lossy {write : Write} {writes : List Write} {serial : Nat} {failed : Bool}
    (appending : Appending uid s)
    (taken : Pool.take? (·.serial == serial) s.writes = some (write, writes)) :
    Lossy uid s (written s write writes failed) := by
  by_cases own : write.uid = uid
  · subst own
    exact written_lossy_own appending taken
  · have pool := Pool.take?_filter taken (·.uid == uid)
    have foreign : (write.uid == uid) = false := by simpa using own
    simp only [foreign, Bool.false_eq_true, if_false] at pool
    have users : readHistory ((written s write writes failed).users uid) =
        readHistory (s.users uid) := by
      cases failed with
      | true => rfl
      | false => exact readHistory_updateData _ fun same => absurd same.symm own
    refine appending.invisible ?_ users (.refl _) pool.symm rfl
    cases failed with
    | true => exact appending.legible
    | false => exact appending.legible.updateData users

theorem step_lossy {a : Action} (appending : Appending uid s) (step : machine.step s a = some t) :
    Lossy uid s t := by
  cases a with
  | register other firstName lastName =>
    cases Option.some.inj step
    exact register_lossy appending other firstName lastName
  | updateAvatar other url =>
    cases Option.some.inj step
    exact updateAvatar_lossy appending other url
  | upload currentUser id name =>
    cases Option.some.inj step
    exact upload_lossy appending currentUser id name
  | getDocument serial failed =>
    obtain ⟨⟨call, reads⟩, taken, rfl⟩ := Option.map_eq_some_iff.mp step
    exact delivered_lossy appending taken
  | updateData serial failed =>
    obtain ⟨⟨write, writes⟩, taken, rfl⟩ := Option.map_eq_some_iff.mp step
    exact written_lossy appending taken

theorem underway_view (uid : Uid) (s : State) :
    ReadModifyWrite.underway (view uid s) = (s.inFlight uid : List _) := by
  simp only [ReadModifyWrite.underway, view, State.inFlight, Multiset.map_coe, List.map_map,
    Multiset.coe_add]
  rfl

/-- In every run, whatever fails in it and whoever registers: the user's history stays readable,
and together with the calls still in flight it holds no entry more often than it held at the
start and was recorded for this user since. -/
theorem history_at_most_once {users : Collection} {uid : Uid} {acts : List Action} {s : State}
    (legible : Legible (users uid)) (run : machine.run ⟨users, [], [], []⟩ acts = some s) :
    Legible (s.users uid) ∧
      (entriesOf (s.users uid) ++ s.inFlight uid).Subperm
        (entriesOf (users uid) ++ s.callsOf uid) := by
  let initial : State := ⟨users, [], [], []⟩
  have start : Appending uid initial ∧
      ReadModifyWrite.AtMostOnce (entriesOf (users uid)) (view uid initial) := by
    refine ⟨⟨legible, fun _ member => nomatch member⟩, ?_, fun p member => ?_⟩
    · exact le_refl ((entriesOf (users uid) : Multiset (String × String)) + 0)
    · exact absurd member (Multiset.notMem_zero p)
  have steps : ∀ {s : State} {a : Action} {t : State}, (Appending uid s ∧
      ReadModifyWrite.AtMostOnce (entriesOf (users uid)) (view uid s)) →
      machine.step s a = some t → Appending uid t ∧
        ReadModifyWrite.AtMostOnce (entriesOf (users uid)) (view uid t) := by
    rintro s a t ⟨appending, bounded⟩ step
    have lossy := step_lossy appending step
    exact ⟨lossy.1, lossy.bounded bounded⟩
  obtain ⟨appending, bounded⟩ := Transition.Machine.run_invariant steps run start
  refine ⟨appending.legible, Multiset.coe_le.mp ?_⟩
  rw [← Multiset.coe_add, ← Multiset.coe_add, ← underway_view]
  exact bounded.list

/-- A user with one entry, who records two films. The first read fails, so its write starts the
history afresh, and the second write fails. -/
def failing : List Action :=
  [.upload (some "u") "2" "B", .getDocument 0 true, .upload (some "u") "3" "C",
    .updateData 0 false, .getDocument 1 false, .updateData 1 true]

def recorded : Collection := updateData registered "u" "history" (historyValue [("1", "A")])

theorem history_at_most_once_failing : ∃ s, machine.run ⟨recorded, [], [], []⟩ failing = some s ∧
    entriesOf (s.users "u") = [("2", "B")] ∧
    (entriesOf (s.users "u") ++ s.inFlight "u").Subperm
      (entriesOf (recorded "u") ++ s.callsOf "u") := by
  have legible : Legible (recorded "u") := fun _ => rfl
  refine ⟨_, rfl, rfl, ?_⟩
  exact (@history_at_most_once recorded "u" failing _ legible rfl).2

/-- In every run without Firestore errors, each read bringing the document as it stands: what the
history held at the start stays in front, what follows are entries of finished calls, and once a
call has finished, there is one. -/
theorem history_grows {users : Collection} {uid : Uid} {entries : List (String × String)}
    {acts : List Action} {s : State} (stored : readHistory (users uid) = some entries)
    (run : machine.run ⟨users, [], [], []⟩ acts = some s)
    (noError : machine.Along (NoError uid) ⟨users, [], [], []⟩ acts) :
    ∃ order, readHistory (s.users uid) = some (entries ++ order) ∧
      (order ++ s.inFlight uid).Subperm (s.callsOf uid) ∧
      (order = [] → (s.inFlight uid).Perm (s.callsOf uid)) := by
  let initial : State := ⟨users, [], [], []⟩
  have current : entriesOf (users uid) = entries := by rw [entriesOf, stored, Option.getD_some]
  have start : Readable uid initial ∧ ReadModifyWrite.AtMostOnce entries (view uid initial) ∧
      ReadModifyWrite.Growing entries (view uid initial) := by
    refine ⟨⟨⟨entries, stored⟩, fun _ member => nomatch member⟩, ⟨?_, ?_⟩, ⟨?_, ?_, Or.inl rfl⟩⟩
    · subst current
      exact le_refl ((entriesOf (users uid) : Multiset (String × String)) + 0)
    · exact fun p member => absurd member (Multiset.notMem_zero p)
    · exact current ▸ List.prefix_rfl
    · exact fun p member => absurd member (Multiset.notMem_zero p)
  have steps : ∀ {s : State} {a : Action} {t : State}, (Readable uid s ∧
      ReadModifyWrite.AtMostOnce entries (view uid s) ∧
      ReadModifyWrite.Growing entries (view uid s)) → NoError uid s a →
      machine.step s a = some t → Readable uid t ∧
        ReadModifyWrite.AtMostOnce entries (view uid t) ∧
        ReadModifyWrite.Growing entries (view uid t) := by
    rintro s a t ⟨readable, bounded, growing⟩ permitted step
    obtain ⟨next, ⟨same, -⟩ | ⟨e, abstract, -⟩⟩ := step_refines readable permitted step
    · exact ⟨next, same ▸ bounded, same ▸ growing⟩
    · exact ⟨next, bounded.step (.protocol e abstract), growing.step abstract⟩
  obtain ⟨⟨⟨held, read⟩, -⟩, bounded, growing⟩ :=
    Transition.Machine.run_invariant_along steps run noError start
  have shown : (view uid s).current = held := by simp only [view, read, Option.getD_some]
  obtain ⟨order, rfl⟩ := shown ▸ growing.list
  refine ⟨order, read, ?_, ?_⟩
  · have bound := bounded.list
    rw [shown, ← Multiset.coe_add, underway_view, add_assoc] at bound
    exact Multiset.coe_le.mp (le_of_add_le_add_left bound)
  · rintro rfl
    rcases growing.more with same | more
    · rw [underway_view] at same
      exact (Multiset.coe_eq_coe.mp same).symm
    · rw [shown, List.append_nil] at more
      exact absurd more (Nat.lt_irrefl _)

theorem history_grows_overlapping : ∃ s, machine.run ⟨recorded, [], [], []⟩ overlapping = some s ∧
    readHistory (s.users "u") = some [("1", "A"), ("2", "B")] ∧
    ∃ order, readHistory (s.users "u") = some ([("1", "A")] ++ order) ∧
      (order ++ s.inFlight "u").Subperm (s.callsOf "u") := by
  refine ⟨_, rfl, rfl, ?_⟩
  obtain ⟨order, read, bound, -⟩ := @history_grows recorded "u" [("1", "A")] overlapping _ rfl rfl
    (by decide)
  exact ⟨order, read, bound⟩

end MoviesApp.History
