import MoviesApp.Screens.Cells

/-! The label of a reused cast cell. `setup` writes it for names of one or two words only
and `prepareForReuse` leaves it alone, so every other actor keeps the text that is there. -/
namespace MoviesApp.CastCell
open Cells

/-- The call `components(separatedBy:)`. -/
def components (text : String) (separator : Char) : List String :=
  (text.toList.splitOn separator).map String.ofList

/-- The picture with its downloads, and the text of `nameLabel`. -/
structure Cell where
  picture : Cells.Cell ActorInfo
  nameLabel : String

/-- A new cell has the text of its interface file. -/
def new : Cell := ⟨castCollectionViewCell.new, "Label"⟩

/-- What `setup` makes of the label's text. -/
def setup (nameLabel : String) (actorInfo : ActorInfo) : String :=
  match actorInfo.name with
  | none => nameLabel
  | some name =>
    match components name ' ' with
    | [first, second] => first ++ "\r" ++ second
    | [_] => name
    | _ => nameLabel

/-- The label is written at a reuse; downloads change the picture only. -/
def step (cell : Cell) : Action ActorInfo → Option Cell
  | .dequeue actorInfo =>
    some ⟨castCollectionViewCell.dequeue cell.picture actorInfo, setup cell.nameLabel actorInfo⟩
  | .respond serial response =>
    (castCollectionViewCell.step cell.picture (.respond serial response)).map fun picture =>
      { cell with picture := picture }
  | .deliver serial =>
    (castCollectionViewCell.step cell.picture (.deliver serial)).map fun picture =>
      { cell with picture := picture }

def machine : Transition.Machine Cell (Action ActorInfo) := ⟨step⟩

def Cell.lastActor (cell : Cell) : Option ActorInfo := cell.picture.records.getLast?

/-- The text is the name with some of its spaces turned into line breaks, and blank for nil. -/
def ShowsName (text : String) (actorInfo : ActorInfo) : Prop :=
  match actorInfo.name with
  | none => text = ""
  | some name => List.Forall₂ (fun c shown => shown = c ∨ c = ' ' ∧ shown = '\r') name.toList text.toList

def Cell.ShowsOwnName (cell : Cell) : Prop :=
  ∀ actorInfo, cell.lastActor = some actorInfo → ShowsName cell.nameLabel actorInfo

/-- All of an actor's name, with a line break for every space. -/
def nameText (actorInfo : ActorInfo) : String :=
  String.ofList ((actorInfo.name.getD "").toList.map fun c => if c == ' ' then '\r' else c)

/-- The name has one or two words; any other leaves a label that reads as it should. -/
def Written (cell : Cell) : Action ActorInfo → Prop
  | .dequeue actorInfo => (∃ name ∈ actorInfo.name, (components name ' ').length ≤ 2) ∨
      cell.nameLabel = nameText actorInfo
  | .respond _ _ | .deliver _ => True

variable {cell next : Cell} {a : Action ActorInfo} {actorInfo : ActorInfo} {text : String}

/-- Joining the parts with another separator replaces the one they were split at. -/
theorem intercalate_splitOn_replace {α : Type} [BEq α] [LawfulBEq α] (xs : List α) (old sep : α) :
    [sep].intercalate (xs.splitOn old) = xs.map fun x => if x == old then sep else x := by
  induction xs with
  | nil => rfl
  | cons x rest ih =>
    obtain ⟨first, later, parts⟩ := List.exists_cons_of_ne_nil (List.splitOn_ne_nil old rest)
    rw [List.splitOn_cons_eq_if_modifyHead, List.map_cons, ← ih, parts]
    split
    · rfl
    · cases later <;> rfl

/-- The whole name, line by line, is the name's parts joined by line breaks. -/
theorem nameText_eq {name : String} (named : actorInfo.name = some name) :
    nameText actorInfo = "\r".intercalate (components name ' ') := by
  apply String.toList_inj.mp
  simp only [nameText, components, named, Option.getD_some, String.toList_ofList,
    String.toList_intercalate, List.map_map, Function.comp_def, List.map_id']
  exact (intercalate_splitOn_replace name.toList ' ' '\r').symm

/-- A name of one or two words is written out whatever the label showed before. -/
theorem setup_of_short {name : String} (named : actorInfo.name = some name)
    (short : (components name ' ').length ≤ 2) : setup text actorInfo = nameText actorInfo := by
  have joined : " ".intercalate (components name ' ') = name := by
    apply String.toList_inj.mp
    simp only [components, String.toList_intercalate, List.map_map, Function.comp_def,
      String.toList_ofList, List.map_id']
    exact List.intercalate_splitOn ' '
  rw [nameText_eq named, setup, named]
  dsimp only
  match parts : components name ' ' with
  | [] => exact absurd (List.map_eq_nil_iff.mp parts) (List.splitOn_ne_nil ' ' name.toList)
  | [only] => rw [parts] at joined; exact joined.symm
  | [first, second] => rfl
  | _ :: _ :: _ :: rest =>
    rw [parts] at short
    simp only [List.length_cons] at short
    omega

theorem setup_of_other (other : ¬ ∃ name ∈ actorInfo.name, (components name ' ').length ≤ 2) :
    setup text actorInfo = text := by
  unfold setup
  split
  · rfl
  · rename_i name named
    split
    · rename_i parts
      exact absurd ⟨name, named, by rw [parts]; exact Nat.le_refl 2⟩ other
    · rename_i parts
      exact absurd ⟨name, named, by rw [parts]; exact Nat.le_succ 1⟩ other
    · rfl

theorem nameText_shows (actorInfo : ActorInfo) : ShowsName (nameText actorInfo) actorInfo := by
  unfold ShowsName nameText
  cases actorInfo.name with
  | none => rfl
  | some name =>
    simp only [Option.getD_some, String.toList_ofList, List.forall₂_map_right_iff,
      List.forall₂_same]
    intro c _
    by_cases space : c = ' '
    · exact Or.inr ⟨space, by rw [space]; rfl⟩
    · exact Or.inl (if_neg (by simpa using space))

theorem space_not_mem_nameText (actorInfo : ActorInfo) : ' ' ∉ (nameText actorInfo).toList := by
  rw [nameText, String.toList_ofList, List.mem_map]
  rintro ⟨c, -, same⟩
  split at same
  · exact absurd same (by decide)
  · rename_i other
    exact other (beq_iff_eq.mpr same)

/-- A text without spaces that shows the name is all of it, line by line. -/
theorem ShowsName.eq_nameText (shows_ : ShowsName text actorInfo) (noSpace : ' ' ∉ text.toList) :
    text = nameText actorInfo := by
  unfold ShowsName at shows_
  apply String.toList_inj.mp
  rw [nameText, String.toList_ofList]
  cases named : actorInfo.name with
  | none =>
    rw [named] at shows_
    rw [shows_]
    rfl
  | some name =>
    rw [named] at shows_
    dsimp only at shows_
    rw [Option.getD_some]
    generalize name.toList = letters at shows_ ⊢
    generalize text.toList = shown at shows_ noSpace ⊢
    induction shows_ with
    | nil => rfl
    | cons head _ ih =>
      obtain ⟨first, later⟩ := not_or.mp (List.mem_cons.not.mp noSpace)
      rw [List.map_cons, ← ih later]
      rcases head with rfl | ⟨rfl, rfl⟩
      · rw [if_neg (by simpa using Ne.symm first)]
      · rfl

/-- Whatever is on the label was not written with a space. -/
theorem step_noSpace (noSpace : ' ' ∉ cell.nameLabel.toList)
    (step : machine.step cell a = some next) : ' ' ∉ next.nameLabel.toList := by
  cases a with
  | dequeue actorInfo =>
    cases Option.some.inj step
    by_cases short : ∃ name ∈ actorInfo.name, (components name ' ').length ≤ 2
    · obtain ⟨name, named, words⟩ := short
      rw [setup_of_short named words]
      exact space_not_mem_nameText actorInfo
    · rw [setup_of_other short]
      exact noSpace
  | respond serial response | deliver serial =>
    obtain ⟨picture, -, rfl⟩ := Option.map_eq_some_iff.mp step
    exact noSpace

/-- A download leaves the actors a cell was set up with. -/
theorem lastActor_dequeue (cell : Cell) (actorInfo : ActorInfo) (text : String) :
    Cell.lastActor ⟨castCollectionViewCell.dequeue cell.picture actorInfo, text⟩ = some actorInfo :=
  List.getLast?_concat

/-- After a reuse the label shows the actor's name exactly if it was written or kept right. -/
theorem step_shows (noSpace : ' ' ∉ cell.nameLabel.toList) (shows_ : cell.ShowsOwnName)
    (step : machine.step cell a = some next) : next.ShowsOwnName ↔ Written cell a := by
  cases a with
  | dequeue actorInfo =>
    cases Option.some.inj step
    have own : Cell.ShowsOwnName ⟨castCollectionViewCell.dequeue cell.picture actorInfo,
        setup cell.nameLabel actorInfo⟩ ↔ ShowsName (setup cell.nameLabel actorInfo) actorInfo := by
      constructor
      · exact fun each => each actorInfo (lastActor_dequeue cell actorInfo _)
      · intro last other same
        cases Option.some.inj ((lastActor_dequeue cell actorInfo _).symm.trans same)
        exact last
    rw [own]
    by_cases short : ∃ name ∈ actorInfo.name, (components name ' ').length ≤ 2
    · refine iff_of_true ?_ (Or.inl short)
      obtain ⟨name, named, words⟩ := short
      rw [setup_of_short named words]
      exact nameText_shows actorInfo
    · rw [setup_of_other short]
      constructor
      · exact fun kept => Or.inr (kept.eq_nameText noSpace)
      · intro written
        rw [written.resolve_left short]
        exact nameText_shows actorInfo
  | respond serial response | deliver serial =>
    obtain ⟨picture, stepped, rfl⟩ := Option.map_eq_some_iff.mp step
    refine iff_of_true ?_ trivial
    obtain ⟨view, -, rfl⟩ := Option.map_eq_some_iff.mp stepped
    exact shows_

/-- For every run of reuses and downloads: the label shows the name of the cell's actor in
every state reached exactly when each name has one or two words or finds itself on the
label; and then the text is a function of that actor. -/
theorem shows_own_name_iff {acts : List (Action ActorInfo)} {cell : Cell}
    (run : machine.run new acts = some cell) :
    ((∀ before after reached, acts = before ++ after → machine.run new before = some reached →
      reached.ShowsOwnName) ↔ machine.Along Written new acts) ∧
    (machine.Along Written new acts → ∀ actorInfo, cell.lastActor = some actorInfo →
      cell.nameLabel = nameText actorInfo) := by
  have initial : ' ' ∉ new.nameLabel.toList := by decide
  have unused : new.ShowsOwnName := by
    intro actorInfo none
    contradiction
  have each : (∀ before after reached, acts = before ++ after →
      machine.run new before = some reached → reached.ShowsOwnName) ↔ machine.Along Written new acts :=
    Transition.Machine.forall_reached_iff step_noSpace step_shows run initial unused
  refine ⟨each, ?_⟩
  intro along actorInfo last
  have noSpace := Transition.Machine.run_invariant step_noSpace run initial
  exact (each.mpr along acts [] cell (List.append_nil acts).symm run actorInfo last).eq_nameText noSpace

def actor (name : Option String) : ActorInfo := ⟨name, none⟩

/-- One cell used for these actors in turn. -/
def reuses (names : List (Option String)) : List (Action ActorInfo) :=
  names.map fun name => .dequeue (actor name)

theorem shows_own_name_reused : ∃ cell, machine.run new (reuses ["Al Pacino", "Cher"]) = some cell ∧
    cell.nameLabel = "Cher" ∧ cell.ShowsOwnName := by
  have observed : (machine.run new (reuses ["Al Pacino", "Cher"])).map Cell.nameLabel =
      some "Cher" := by
    decide +kernel
  obtain ⟨cell, run, text⟩ := Option.map_eq_some_iff.mp observed
  refine ⟨cell, run, text, ?_⟩
  have along : machine.Along Written new (reuses ["Al Pacino", "Cher"]) :=
    ⟨Or.inl ⟨_, rfl, by decide +kernel⟩, Or.inl ⟨_, rfl, by decide +kernel⟩, trivial⟩
  exact (shows_own_name_iff run).1.mpr along _ [] cell (List.append_nil _).symm run

/-- Two words are written; three words, or none, leave them on the label. -/
theorem earlier_name_shown :
    (∃ cell, machine.run new (reuses ["Al Pacino", "Robert De Niro"]) = some cell ∧
      cell.lastActor = some (actor "Robert De Niro") ∧ cell.nameLabel = "Al\rPacino" ∧
      ¬ cell.ShowsOwnName) ∧
    ∃ cell, machine.run new (reuses ["Al Pacino", none]) = some cell ∧
      cell.lastActor = some (actor none) ∧ cell.nameLabel = "Al\rPacino" ∧
      ¬ cell.ShowsOwnName := by
  have wrong : ∀ {cell : Cell} {actorInfo : ActorInfo}, cell.lastActor = some actorInfo →
      cell.nameLabel = "Al\rPacino" → "Al\rPacino" ≠ nameText actorInfo → ¬ cell.ShowsOwnName := by
    intro cell actorInfo last text other shows_
    have shown := shows_ actorInfo last
    rw [text] at shown
    exact other (shown.eq_nameText (by decide +kernel))
  have observed (name : Option String) (seen : (machine.run new (reuses ["Al Pacino", name])).map
      (fun cell => (cell.lastActor, cell.nameLabel)) = some (some (actor name), "Al\rPacino"))
      (other : "Al\rPacino" ≠ nameText (actor name)) :
      ∃ cell, machine.run new (reuses ["Al Pacino", name]) = some cell ∧
        cell.lastActor = some (actor name) ∧ cell.nameLabel = "Al\rPacino" ∧
        ¬ cell.ShowsOwnName := by
    obtain ⟨cell, run, pair⟩ := Option.map_eq_some_iff.mp seen
    obtain ⟨last, text⟩ := Prod.mk.inj pair
    exact ⟨cell, run, last, text, wrong last text other⟩
  exact ⟨observed _ (by decide +kernel) (by decide +kernel),
    observed _ (by decide +kernel) (by decide +kernel)⟩

end MoviesApp.CastCell
