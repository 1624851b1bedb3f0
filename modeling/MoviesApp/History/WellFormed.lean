import MoviesApp.History.Screen

/-! The history stays paired: over any interleaving of registrations, uploads and
avatar updates the two arrays of every document, and every copy in flight, list
argument pairs of calls made for that user. The history screen inherits it. -/
namespace MoviesApp.History
open Firestore

/-- Position by position, the two arrays are the arguments of calls for `uid`. -/
def Paired (calls : List (Uid × String × String)) (uid : Uid) (ids names : List String) : Prop :=
  ids.length = names.length ∧
    ∀ (i : Nat) (id name : String), ids[i]? = some id → names[i]? = some name → (uid, id, name) ∈ calls

/-- The history field is absent, or holds two non-empty paired arrays. -/
def WellFormed (calls : List (Uid × String × String)) (uid : Uid) (document : Document) : Prop :=
  document "history" = none ∨ ∃ ids names, document "history" = some (historyField ids names) ∧
    ids ≠ [] ∧ Paired calls uid ids names

variable {calls : List (Uid × String × String)} {uid : Uid} {ids names : List String} {id name : String}

theorem Paired.mono (paired : Paired calls uid ids names) (more : calls ⊆ later) :
    Paired later uid ids names :=
  ⟨paired.1, fun i id name hi hn => more (paired.2 i id name hi hn)⟩

theorem WellFormed.mono {document : Document} (formed : WellFormed calls uid document)
    (more : calls ⊆ later) : WellFormed later uid document := by
  rcases formed with absent | ⟨ids, names, field, nonempty, paired⟩
  · exact Or.inl absent
  · exact Or.inr ⟨ids, names, field, nonempty, paired.mono more⟩

theorem Paired.nil : Paired calls uid [] [] := ⟨rfl, fun i id name hi => by simp at hi⟩

theorem Paired.append (paired : Paired calls uid ids names) (called : (uid, id, name) ∈ calls) :
    Paired calls uid (ids ++ [id]) (names ++ [name]) := by
  obtain ⟨same, pairs⟩ := paired
  refine ⟨by simp only [List.length_append, same, List.length_singleton], ?_⟩
  intro i x y hx hy
  rcases Nat.lt_trichotomy i ids.length with inside | rfl | outside
  · rw [List.getElem?_append_left inside] at hx
    rw [List.getElem?_append_left (same ▸ inside)] at hy
    exact pairs i x y hx hy
  · rw [List.getElem?_concat_length] at hx
    rw [same, List.getElem?_concat_length] at hy
    cases hx
    cases hy
    exact called
  · have bound := (List.getElem?_eq_some_iff.mp hx).1
    simp only [List.length_append, List.length_singleton] at bound
    omega

/-- The dictionary and both arrays cast back to what was written. -/
theorem historyField_casts (ids names : List String) :
    (historyField ids names).asDictionary = some [("id", .strings ids), ("name", .strings names)] ∧
      (List.lookup "id" [("id", Value.strings ids), ("name", .strings names)]).bind
        Value.asStrings = some ids ∧
      (List.lookup "name" [("id", Value.strings ids), ("name", .strings names)]).bind
        Value.asStrings = some names :=
  ⟨rfl, by simp, by simp [List.lookup_cons]⟩

/-- From a well-formed document, a missing one or a failed read, the callback
always writes, and what it writes is paired. -/
theorem historyUpdate_paired {data : Option Document}
    (formed : ∀ document, data = some document → WellFormed calls uid document)
    (called : (uid, id, name) ∈ calls) :
    ∃ ids names, historyUpdate data id name = some (historyField ids names) ∧
      ids ≠ [] ∧ Paired calls uid ids names := by
  have single : Paired calls uid [id] [name] := Paired.nil.append called
  cases data with
  | none => exact ⟨[id], [name], rfl, List.cons_ne_nil _ _, single⟩
  | some document =>
    rcases formed document rfl with absent | ⟨ids, names, field, nonempty, paired⟩
    · refine ⟨[id], [name], ?_, List.cons_ne_nil _ _, single⟩
      simp only [historyUpdate, Option.bind_some, absent, Option.bind_none]
    · obtain ⟨dictionary, idArray, nameArray⟩ := historyField_casts ids names
      refine ⟨ids ++ [id], names ++ [name], ?_, by simp, paired.append called⟩
      simp only [historyUpdate, Option.bind_some, field, dictionary, idArray, nameArray]

/-- Every document, every read to come and every copy in flight. -/
structure Invariant (s : State) : Prop where
  documents : ∀ uid document, s.users uid = some document → WellFormed s.calls uid document
  reads : ∀ call ∈ s.reads, (call.uid, call.id, call.name) ∈ s.calls
  writes : ∀ write ∈ s.writes, ∃ ids names, write.payload = historyField ids names ∧
    ids ≠ [] ∧ Paired s.calls write.uid ids names

theorem start_invariant : Invariant start :=
  ⟨fun _ _ found => (nomatch found), fun _ member => (nomatch member),
    fun _ member => (nomatch member)⟩

/-- An update of a field keeps the documents well formed if the new value of the
history field, where it is the one replaced, is paired. -/
theorem updateData_wellFormed {users : Collection} {field : String} {value : Value} {owner : Uid}
    (documents : ∀ uid document, users uid = some document → WellFormed calls uid document)
    (replaced : field = "history" → ∃ ids names, value = historyField ids names ∧
      ids ≠ [] ∧ Paired calls owner ids names) :
    ∀ uid document, Firestore.updateData users owner field value uid = some document →
      WellFormed calls uid document := by
  intro uid document found
  rw [updateData_apply] at found
  split at found
  · rename_i same
    subst same
    obtain ⟨before, existed, after⟩ := Option.map_eq_some_iff.mp found
    subst after
    by_cases history : field = "history"
    · obtain ⟨ids, names, rfl, nonempty, paired⟩ := replaced history
      subst history
      exact Or.inr ⟨ids, names, setting_same _ _ _, nonempty, paired⟩
    · have kept := documents uid before existed
      simpa only [WellFormed, setting_other (Ne.symm history)] using kept
  · exact documents uid document found

theorem calls_grow {s t : State} {a : Action} (step : History.step s a = some t) :
    s.calls ⊆ t.calls := by
  cases a with
  | register | updateAvatar => cases Option.some.inj step; exact List.Subset.refl _
  | upload currentUser id name =>
    cases Option.some.inj step
    cases currentUser with
    | none => exact List.Subset.refl _
    | some uid => exact List.subset_append_left _ _
  | getDocument serial failed =>
    obtain ⟨⟨call, reads⟩, -, after⟩ := Option.map_eq_some_iff.mp step
    obtain ⟨added, shape, -⟩ := delivered_cases s call reads failed
    change delivered s call reads failed = t at after
    rw [← after, shape]
    exact List.Subset.refl _
  | updateData serial failed =>
    obtain ⟨⟨write, writes⟩, -, after⟩ := Option.map_eq_some_iff.mp step
    subst after
    exact List.Subset.refl _

theorem upload_invariant {s : State} (inv : Invariant s) (currentUser : Option Uid)
    (id name : String) : Invariant (upload s currentUser id name) := by
  cases currentUser with
  | none => exact inv
  | some owner =>
    have more : s.calls ⊆ s.calls ++ [(owner, id, name)] := List.subset_append_left _ _
    refine ⟨fun uid document found => (inv.documents uid document found).mono more, ?_, ?_⟩
    · exact Pool.forall_snoc (fun call held => more (inv.reads call held))
        (List.mem_append_right _ (List.mem_singleton.mpr rfl))
    · intro write member
      obtain ⟨ids, names, payload, nonempty, paired⟩ := inv.writes write member
      exact ⟨ids, names, payload, nonempty, paired.mono more⟩

/-- A read that is delivered puts a paired history on its way. -/
theorem delivered_invariant {s : State} {call : Read} {rest : List Read} {serial : Nat}
    (inv : Invariant s) (taken : Pool.take? (·.serial == serial) s.reads = some (call, rest))
    (failed : Bool) : Invariant (delivered s call rest failed) := by
  have read : ∀ document, (if failed then none else s.users call.uid) = some document →
      WellFormed s.calls call.uid document := by
    intro document found
    cases failed with
    | true => contradiction
    | false => exact inv.documents call.uid document found
  obtain ⟨ids, names, update, nonempty, paired⟩ :=
    historyUpdate_paired read (inv.reads call (Pool.take?_mem taken))
  have shape : delivered s call rest failed = { s with
      reads := rest
      writes := s.writes ++
        [⟨call, if failed then none else s.users call.uid, historyField ids names⟩] } := by
    simp only [delivered, update]
  rw [shape]
  exact ⟨inv.documents, fun other member => inv.reads other (Pool.take?_left taken member),
    Pool.forall_snoc inv.writes ⟨ids, names, rfl, nonempty, paired⟩⟩

theorem step_invariant {s t : State} {a : Action} (inv : Invariant s)
    (step : History.step s a = some t) : Invariant t := by
  cases a with
  | register owner firstName lastName =>
    cases Option.some.inj step
    refine ⟨?_, inv.reads, inv.writes⟩
    intro uid document found
    by_cases same : uid = owner
    · subst same
      cases Option.some.inj ((setData_same _ _ _).symm.trans found)
      exact Or.inl rfl
    · exact inv.documents uid document ((setData_other same).symm.trans found)
  | updateAvatar owner url =>
    cases Option.some.inj step
    exact ⟨updateData_wellFormed inv.documents (fun history => absurd history (by decide)),
      inv.reads, inv.writes⟩
  | upload currentUser id name =>
    cases Option.some.inj step
    exact upload_invariant inv currentUser id name
  | getDocument serial failed =>
    obtain ⟨⟨call, rest⟩, taken, rfl⟩ := Option.map_eq_some_iff.mp step
    exact delivered_invariant inv taken failed
  | updateData serial failed =>
    obtain ⟨⟨write, rest⟩, taken, rfl⟩ := Option.map_eq_some_iff.mp step
    refine ⟨?_, inv.reads, fun other member => inv.writes other (Pool.take?_left taken member)⟩
    cases failed with
    | true => exact inv.documents
    | false =>
      exact updateData_wellFormed inv.documents (fun _ => inv.writes write (Pool.take?_mem taken))

/-- What a history screen holds at each stage, against the calls made so far. -/
def Filled (calls : List (Uid × String × String)) (vc : HistoryVC) : Prop :=
  match vc.stage with
  | .created | .reading => vc.viewModel = ⟨[], []⟩
  | .delivered data => vc.viewModel = ⟨[], []⟩ ∧ ∃ uid, vc.user = some uid ∧
      ∀ document, data = some document → WellFormed calls uid document
  | .assigning names => vc.viewModel.names = [] ∧
      ∃ uid, vc.user = some uid ∧ Paired calls uid vc.viewModel.ids names
  | .settled => vc.viewModel = ⟨[], []⟩ ∨
      ∃ uid, vc.user = some uid ∧ Paired calls uid vc.viewModel.ids vc.viewModel.names

theorem Filled.mono {vc : HistoryVC} (filled : Filled calls vc) (more : calls ⊆ later) :
    Filled later vc := by
  unfold Filled at filled ⊢
  cases stage : vc.stage with
  | created | reading => simpa only [stage] using filled
  | delivered data =>
    simp only [stage] at filled ⊢
    obtain ⟨empty, uid, user, formed⟩ := filled
    exact ⟨empty, uid, user, fun document found => (formed document found).mono more⟩
  | assigning names =>
    simp only [stage] at filled ⊢
    obtain ⟨empty, uid, user, paired⟩ := filled
    exact ⟨empty, uid, user, paired.mono more⟩
  | settled =>
    simp only [stage] at filled ⊢
    rcases filled with empty | ⟨uid, user, paired⟩
    · exact Or.inl empty
    · exact Or.inr ⟨uid, user, paired.mono more⟩

theorem assignIds_filled {vc : HistoryVC} {data : Option Document}
    (empty : vc.viewModel = ⟨[], []⟩) (user : vc.user = some uid)
    (formed : ∀ document, data = some document → WellFormed calls uid document) :
    Filled calls (vc.assignIds data) := by
  have untouched : Filled calls { vc with stage := .settled } := Or.inl empty
  cases data with
  | none => exact untouched
  | some document =>
    rcases formed document rfl with absent | ⟨ids, names, field, -, paired⟩
    · simpa only [HistoryVC.assignIds, Option.bind_some, absent, Option.bind_none] using untouched
    · obtain ⟨dictionary, idArray, nameArray⟩ := historyField_casts ids names
      simp only [HistoryVC.assignIds, Option.bind_some, field, dictionary, idArray, nameArray]
      exact ⟨congrArg HistoryViewModel.names empty, uid, user, paired⟩

theorem screen_filled {vc next : HistoryVC} {users : Collection} {a : AppAction}
    (documents : ∀ uid document, users uid = some document → WellFormed calls uid document)
    (filled : Filled calls vc) (step : vc.step users a = some next) : Filled calls next := by
  unfold Filled at filled
  cases a with
  | backend | openHistory => contradiction
  | viewDidLoad n currentUser =>
    cases stage : vc.stage <;> simp only [HistoryVC.step, stage] at step filled <;>
      try contradiction
    cases Option.some.inj step
    cases currentUser with
    | none => exact Or.inl filled
    | some uid => exact filled
  | getDocument n failed =>
    cases stage : vc.stage <;> cases user : vc.user <;>
      simp only [HistoryVC.step, stage, user] at step filled <;> try contradiction
    rename_i uid
    cases Option.some.inj step
    refine ⟨filled, uid, rfl, ?_⟩
    intro document found
    cases failed with
    | true => contradiction
    | false => exact documents uid document found
  | assignIds n =>
    cases stage : vc.stage <;> simp only [HistoryVC.step, stage] at step filled <;>
      try contradiction
    cases Option.some.inj step
    obtain ⟨empty, uid, user, formed⟩ := filled
    exact assignIds_filled empty user formed
  | assignNames n =>
    cases stage : vc.stage <;> simp only [HistoryVC.step, stage] at step filled <;>
      try contradiction
    cases Option.some.inj step
    exact Or.inr filled.2

theorem app_step_invariant {app next : App} {a : AppAction}
    (inv : Invariant app.backend ∧ ∀ vc ∈ app.screens, Filled app.backend.calls vc)
    (step : system.step app a = some next) :
    Invariant next.backend ∧ ∀ vc ∈ next.screens, Filled next.backend.calls vc := by
  obtain ⟨backend, screens⟩ := inv
  have screenStep : ∀ n, (app.screens[n]?).bind (fun vc : HistoryVC =>
      (vc.step app.backend.users a).map fun vc => app.setScreen n vc) = some next →
      Invariant next.backend ∧ ∀ vc ∈ next.screens, Filled next.backend.calls vc := by
    intro n moved
    obtain ⟨vc, found, moved⟩ := Option.bind_eq_some_iff.mp moved
    obtain ⟨after, stepped, rfl⟩ := Option.map_eq_some_iff.mp moved
    refine ⟨backend, ?_⟩
    intro other member
    rcases List.mem_or_eq_of_mem_set member with kept | rfl
    · exact screens other kept
    · exact screen_filled backend.documents (screens vc (List.mem_of_getElem? found)) stepped
  cases a with
  | backend a =>
    obtain ⟨after, stepped, rfl⟩ := Option.map_eq_some_iff.mp step
    exact ⟨step_invariant backend stepped,
      fun vc member => (screens vc member).mono (calls_grow stepped)⟩
  | openHistory =>
    cases Option.some.inj step
    exact ⟨backend, Pool.forall_snoc screens rfl⟩
  | viewDidLoad n _ | getDocument n _ | assignIds n | assignNames n => exact screenStep n step

/-- Rows never outnumber ids, and each row's title is paired with the id it loads. -/
theorem Filled.rows {vc : HistoryVC} (filled : Filled calls vc) :
    numberOfRowsInSection vc.viewModel ≤ vc.viewModel.ids.length ∧
    ∀ row < numberOfRowsInSection vc.viewModel, ∃ uid id name, vc.user = some uid ∧
      cellForRowAt vc.viewModel row = some name ∧ didSelectRowAt vc.viewModel row = some id ∧
      (uid, id, name) ∈ calls := by
  have paired : vc.viewModel.names = [] ∨
      ∃ uid, vc.user = some uid ∧ Paired calls uid vc.viewModel.ids vc.viewModel.names := by
    unfold Filled at filled
    split at filled
    · exact Or.inl (congrArg HistoryViewModel.names filled)
    · exact Or.inl (congrArg HistoryViewModel.names filled)
    · exact Or.inl (congrArg HistoryViewModel.names filled.1)
    · exact Or.inl filled.1
    · exact filled.imp_left (congrArg HistoryViewModel.names)
  unfold numberOfRowsInSection
  rcases paired with empty | ⟨uid, user, same, pairs⟩
  · rw [empty]
    exact ⟨Nat.zero_le _, fun row bound => absurd bound (Nat.not_lt_zero row)⟩
  · refine ⟨Nat.le_of_eq same.symm, ?_⟩
    intro row bound
    have inside : row < vc.viewModel.ids.length := same ▸ bound
    exact ⟨uid, vc.viewModel.ids[row], vc.viewModel.names[row], user,
      List.getElem?_eq_getElem bound, List.getElem?_eq_getElem inside,
      pairs row _ _ (List.getElem?_eq_getElem inside) (List.getElem?_eq_getElem bound)⟩

/-- In every state that registrations, uploads, avatar updates and history screens
can reach: each document's history is absent or two non-empty arrays of one length
whose positions are calls made for that user, an upload that reads it writes, and
every row of every history screen loads the movie recorded with its title. -/
theorem history_well_formed {app : App} {acts : List AppAction}
    (run : system.run .start acts = some app) :
    (∀ uid document, app.backend.users uid = some document →
      WellFormed app.backend.calls uid document ∧
      ∀ id name, historyUpdate (some document) id name ≠ none) ∧
    ∀ vc ∈ app.screens, numberOfRowsInSection vc.viewModel ≤ vc.viewModel.ids.length ∧
      ∀ row < numberOfRowsInSection vc.viewModel, ∃ uid id name, vc.user = some uid ∧
        cellForRowAt vc.viewModel row = some name ∧ didSelectRowAt vc.viewModel row = some id ∧
        (uid, id, name) ∈ app.backend.calls := by
  obtain ⟨backend, screens⟩ := Transition.Machine.run_invariant
    (P := fun app => Invariant app.backend ∧ ∀ vc ∈ app.screens, Filled app.backend.calls vc)
    app_step_invariant run ⟨start_invariant, fun _ member => (nomatch member)⟩
  refine ⟨?_, fun vc member => (screens vc member).rows⟩
  intro uid document found
  have formed := backend.documents uid document found
  refine ⟨formed, ?_⟩
  intro id name silent
  have grown : WellFormed ((uid, id, name) :: app.backend.calls) uid document :=
    formed.mono (List.subset_cons_self _ _)
  have read : ∀ other, some document = some other →
      WellFormed ((uid, id, name) :: app.backend.calls) uid other :=
    fun other same => Option.some.inj same ▸ grown
  obtain ⟨ids, names, update, -⟩ := historyUpdate_paired read List.mem_cons_self
  rw [silent] at update
  contradiction

/-- Two overlapping uploads, then the history screen halfway between its assignments. -/
def browsing : List AppAction :=
  [.backend (.register "u" "Ann" "Lee"), .backend (.upload (some "u") "1" "A"),
    .backend (.upload (some "u") "2" "B"), .backend (.getDocument 0 false),
    .backend (.updateData 0 false), .backend (.getDocument 1 false),
    .backend (.updateAvatar "u" "https://a"), .backend (.updateData 1 false), .openHistory,
    .viewDidLoad 0 (some "u"), .getDocument 0 false, .assignIds 0, .assignNames 0]

theorem history_well_formed_browsing :
    ∃ app, system.run .start browsing = some app ∧
      app.screens.map (fun vc => vc.viewModel.names) = [["A", "B"]] ∧
      ∀ vc ∈ app.screens, numberOfRowsInSection vc.viewModel ≤ vc.viewModel.ids.length := by
  refine ⟨_, rfl, rfl, ?_⟩
  intro vc member
  exact ((@history_well_formed _ browsing rfl).2 vc member).1

end MoviesApp.History
