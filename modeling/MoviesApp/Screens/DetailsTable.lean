import MoviesApp.Reload
import MoviesApp.Screens.Recording

/-! What a details screen displays: the header and the two rows of its table. The three
observers reload the table; only the one on the cast sets the header up. -/
namespace MoviesApp.DetailsVC
open NetworkService Details

inductive TextColor where
  | label
  | systemGreen
  | systemRed
  deriving DecidableEq

/-- The texts of row 0 and the link its poster was last downloaded from. The vote stands
for its text. -/
structure DetailsTableViewCell where
  poster : Option String
  titleLable : Option String
  voteLable : Option ℚ
  voteColor : TextColor
  genreLabel : Option String
  dateLable : Option String
  overviewTextView : Option String

def DetailsTableViewCell.setup (cell : DetailsTableViewCell) (info : MovieDetailsResponce)
    (genre : String) : DetailsTableViewCell :=
  let titled := { cell with poster := info.poster, titleLable := info.title }
  match info.voteAverage with
  | none => titled
  | some vote => { titled with
      voteLable := some vote
      voteColor := if vote > 5.5 then .systemGreen else .systemRed
      genreLabel := some genre
      dateLable := info.releaseDate
      overviewTextView := info.overview }

structure CastTableViewCell where
  cast : List ActorInfo
  reviews : List Review

def CastTableViewCell.setupWithViewModel (_cell : CastTableViewCell) (cast : List ActorInfo)
    (reviews : List Review) : CastTableViewCell :=
  ⟨cast, reviews⟩

def getGenreName (s : Screen) : String :=
  match s.movie.bind MovieDetailsResponce.genres with
  | none => ""
  | some genres => ", ".intercalate (genres.filterMap Genres.name)

/-- Row 0 is an empty cell while there is no movie. -/
structure Rows where
  details : Option DetailsTableViewCell
  cast : CastTableViewCell

/-- Both rows, in the cells that were dequeued for them. -/
def cellForRowAt (s : Screen) (details : DetailsTableViewCell) (cast : CastTableViewCell) : Rows where
  details := s.movie.map fun movie => details.setup movie (getGenreName s)
  cast := cast.setupWithViewModel s.cast s.reviews

structure State where
  app : App client
  tables : Nat → Reload.View Rows

def State.start : State := ⟨⟨.empty, .start⟩, fun _ => ⟨false, none, [], []⟩⟩

/-- A layout asks for both rows; the cells it reuses may hold anything. -/
inductive Action where
  | event (e : Event client)
  | layout (screen : Nat) (details : DetailsTableViewCell) (cast : CastTableViewCell)

/-- Whether the observers installed by `bind()` reload the table when the completion
receives `value`. -/
def didChange (s : Screen) (completion : Completion) (value : Option tmdb.Any) : Bool :=
  s.bound && match completion with
    | .movie _ => (received .movieDetails value).isSome
    | .cast _ => (received .cast value).isSome &&
        s.movie.any fun movie => movie.id.isSome && movie.title.isSome
    | .reviews _ => (received .reviews value).isSome

/-- The table's first layout is due once `viewDidLoad` has set its data source. -/
def reloads (i : Nat) (app : App client) : Event client → Bool
  | .act (.viewDidLoad j) => j == i
  | .runBlock id => (app.service.mainQueue.find? (·.id == id)).any fun block =>
      block.completion.screen == i &&
        didChange (app.screen.screens i) block.completion (some block.value)
  | .act (.open _) | .respond .. => false

def step (s : State) : Action → Option State
  | .event e => (App.step s.app e).map fun app => { s with
      app := app
      tables := fun i => if reloads i s.app e then (s.tables i).reloadData else s.tables i }
  | .layout i details cast =>
    if (s.app.screen.screens i).bound then some { s with
      tables := Function.update s.tables i
        (.layout (cellForRowAt (s.app.screen.screens i) details cast)) }
    else none

def machine : Transition.Machine State Action := ⟨step⟩

/-- The screen's texts, the header's link, and what row 1 lists. -/
structure Displayed where
  header : Option String
  title : Option String
  vote : Option ℚ
  genre : Option String
  date : Option String
  overview : Option String
  cast : List ActorInfo
  reviews : List Review
  deriving DecidableEq

def displayed (s : Screen) (rows : Rows) : Displayed where
  header := s.header
  title := rows.details.bind DetailsTableViewCell.titleLable
  vote := rows.details.bind DetailsTableViewCell.voteLable
  genre := rows.details.bind DetailsTableViewCell.genreLabel
  date := rows.details.bind DetailsTableViewCell.dateLable
  overview := rows.details.bind DetailsTableViewCell.overviewTextView
  cast := rows.cast.cast
  reviews := rows.cast.reviews

/-- What the screen should display for its model. -/
def rendered (s : Screen) : Displayed where
  header := s.movie.map fun movie => movie.backdropPath.getD ""
  title := s.movie.bind MovieDetailsResponce.title
  vote := s.movie.bind MovieDetailsResponce.voteAverage
  genre := some (getGenreName s)
  date := s.movie.bind MovieDetailsResponce.releaseDate
  overview := s.movie.bind MovieDetailsResponce.overview
  cast := s.cast
  reviews := s.reviews

def Succeeds (i : Nat) (s : State) : Action → Prop
  | .event e => RepliesSucceed i s.app e
  | .layout .. => True

/-- If `viewDidLoad` does not find the movie a cast reply is still to come, and on a loaded
screen no cast reply comes before the movie. -/
def HeaderDue (i : Nat) (s : State) : Action → Prop
  | .event (.act (.viewDidLoad j)) => j = i → s.app.service.outstanding (.cast i) = 0 →
      (s.app.screen.screens i).movie.isSome
  | .event (.runBlock id) => ∀ block ∈ s.app.service.mainQueue.find? (·.id == id),
      block.completion = .cast i → (s.app.screen.screens i).bound = true →
      (s.app.screen.screens i).movie.isSome
  | .event (.act (.open _)) | .event (.respond ..) | .layout .. => True

/-- Row 0 shows the movie whatever its cell was used for before. -/
theorem setup_labels (cell : DetailsTableViewCell) {info : MovieDetailsResponce} (genre : String)
    (voted : info.voteAverage.isSome) : (cell.setup info genre).titleLable = info.title ∧
      (cell.setup info genre).voteLable = info.voteAverage ∧
      (cell.setup info genre).genreLabel = some genre ∧
      (cell.setup info genre).dateLable = info.releaseDate ∧
      (cell.setup info genre).overviewTextView = info.overview := by
  obtain ⟨vote, average⟩ := Option.isSome_iff_exists.mp voted
  simp only [DetailsTableViewCell.setup, average, and_self]

/-- The rows show the reviews, and once there is a movie also the movie and the cast. -/
def Agree (s : Screen) (rows : Rows) : Prop :=
  rows.cast.reviews = s.reviews ∧ ∀ movie, s.movie = some movie → rows.cast.cast = s.cast ∧
    ∃ cell : DetailsTableViewCell, rows.details = some (cell.setup movie (getGenreName s))

/-- The header follows the uploads, which the same observer makes; the rows agree with
the model unless a reload is pending. -/
structure Following (s : Screen) (table : Reload.View Rows) : Prop where
  unset : s.uploads = [] → s.header = none
  set : s.uploads ≠ [] → ∃ movie, s.movie = some movie ∧ s.header = some (movie.backdropPath.getD "")
  voted : ∀ movie, s.movie = some movie → movie.voteAverage.isSome
  rows : s.bound = true → table.Shows (Agree s)

theorem cellForRowAt_agree (s : Screen) (details : DetailsTableViewCell) (cast : CastTableViewCell) :
    Agree s (cellForRowAt s details cast) := by
  refine ⟨rfl, ?_⟩
  intro movie present
  exact ⟨rfl, details, by simp only [cellForRowAt, present, Option.map_some]⟩

variable {s : Screen} {table : Reload.View Rows}

/-- The table after an event that reloads it or not. -/
def after (reload : Bool) (table : Reload.View Rows) : Reload.View Rows :=
  if reload then table.reloadData else table

theorem Following.movie (following : Following s table) {movie : MovieDetailsResponce}
    (first : s.uploads = []) (voted : movie.voteAverage.isSome) {value : Option tmdb.Any} {i : Nat}
    (arrived : received .movieDetails value = some movie) :
    Following { s with movie := some movie } (after (didChange s (.movie i) value) table) := by
  refine ⟨following.unset, fun uploaded => absurd first uploaded, ?_, ?_⟩
  · intro other same
    cases same
    exact voted
  · intro bound
    have bound : s.bound = true := bound
    simp only [after, didChange, bound, arrived, Option.isSome_some, Bool.and_self, if_true]
    exact Reload.View.shows_reloadData

theorem Following.reviews (following : Following s table) {reviews : ReviewsResponce}
    {value : Option tmdb.Any} {i : Nat} (arrived : received .reviews value = some reviews) :
    Following { s with reviews := reviews.results } (after (didChange s (.reviews i) value) table) := by
  refine ⟨following.unset, following.set, following.voted, ?_⟩
  intro bound
  have bound : s.bound = true := bound
  simp only [after, didChange, bound, arrived, Option.isSome_some, Bool.and_self, if_true]
  exact Reload.View.shows_reloadData

/-- Without a movie a cast reply changes nothing that is displayed; with one it sets the
header up and reloads. -/
theorem Following.cast (following : Following s table) {cast : CastResponce}
    (identified : ∀ movie, s.movie = some movie → Identified movie)
    {value : Option tmdb.Any} {i : Nat} (arrived : received .cast value = some cast) :
    Following (if s.bound then castDidChange { s with cast := cast.cast }
      else { s with cast := cast.cast }) (after (didChange s (.cast i) value) table) := by
  cases bound : s.bound with
  | false =>
    simp only [Bool.false_eq_true, if_false, didChange, bound, Bool.false_and, after]
    exact ⟨following.unset, following.set, following.voted,
      fun loaded => absurd loaded Bool.false_ne_true⟩
  | true =>
    cases present : s.movie with
    | none =>
      simp only [if_true, castDidChange, didChange, bound, arrived, present, Option.any_none,
        Bool.and_false, Bool.false_eq_true, if_false, after]
      have seen : ∀ movie, s.movie ≠ some movie := by
        intro movie other
        rw [present] at other
        contradiction
      refine ⟨following.unset, fun uploaded => ?_,
        fun movie same => following.voted movie (present.trans same), fun _ => ?_⟩
      · obtain ⟨movie, held, -⟩ := following.set uploaded
        exact absurd held (seen movie)
      · exact (following.rows bound).mono fun agree =>
          ⟨agree.1, fun movie same => absurd (present.trans same) (seen movie)⟩
    | some movie =>
      obtain ⟨id, title, named, titled⟩ := identified movie present
      simp only [if_true, castDidChange, didChange, bound, arrived, present, named, titled,
        Option.any_some, Option.isSome_some, Bool.and_self, after]
      refine ⟨?_, fun _ => ⟨movie, rfl, rfl⟩, ?_, fun _ => Reload.View.shows_reloadData⟩
      · intro empty
        exact absurd empty (List.append_ne_nil_of_right_ne_nil _ (List.cons_ne_nil _ _))
      · intro other same
        cases same
        exact following.voted movie present

theorem reloads_other {app : App client} {i id : Nat} {block : Block tmdb Completion}
    (found : app.service.mainQueue.find? (·.id == id) = some block)
    (other : block.completion.screen ≠ i) : reloads i app (.runBlock id) = false := by
  simp only [reloads, found, Option.any_some, beq_eq_false_iff_ne.mpr other, Bool.false_and]

theorem reloads_own {app : App client} {id : Nat} {block : Block tmdb Completion}
    (found : app.service.mainQueue.find? (·.id == id) = some block) :
    reloads block.completion.screen app (.runBlock id) =
      didChange (app.screen.screens block.completion.screen) block.completion (some block.value) := by
  simp only [reloads, found, Option.any_some, beq_self_eq_true, Bool.true_and]

/-- The screen that a reply is for, whichever of the three it is. -/
theorem complete_following {s : Details.State} {completion : Completion} {value : Option tmdb.Any}
    (following : Following (s.screens completion.screen) table)
    (identified : ∀ movie, (s.screens completion.screen).movie = some movie → Identified movie)
    (first : ∀ i, completion = .movie i → (s.screens i).uploads = [])
    {model : completion.model.Value} {json : JSON} (arrived : received completion.model value = some model)
    (decoded : completion.model.decode json = some model) :
    Following ((complete s completion value).screens completion.screen)
      (after (didChange (s.screens completion.screen) completion value) table) := by
  cases completion with
  | movie i =>
    have next := complete_movie (s := s) (i := i) arrived
    exact next.symm ▸
      following.movie (first i rfl) (MovieDetailsResponce.decode_voted decoded) arrived
  | cast i =>
    have next := complete_cast (s := s) (i := i) arrived
    exact next.symm ▸ following.cast identified arrived
  | reviews i =>
    have next := complete_reviews (s := s) (i := i) arrived
    exact next.symm ▸ following.reviews arrived

theorem runBlock_following {app next : App client} {i id : Nat} (typed : Typed app)
    (sane : Sane (view i app)) (following : Following (app.screen.screens i) table)
    (step : (NetworkService.machine client).step app (.runBlock id) = some next) :
    Following (next.screen.screens i) (after (reloads i app (.runBlock id)) table) := by
  obtain ⟨block, mainQueue, taken, rfl⟩ := step_runBlock step
  have found := Pool.take?_find taken
  by_cases own : block.completion.screen = i
  · subst own
    obtain ⟨model, json, arrived, decoded⟩ := typed.block (Pool.take?_mem taken) rfl
    have first : ∀ i, block.completion = .movie i → (app.screen.screens i).uploads = [] := by
      intro j movie
      have pending := runBlock_outstanding (Completion.movie j) taken
      rw [if_pos movie] at pending
      rw [movie] at sane
      exact sane.no_uploads (sane.movie_absent pending.symm).1
    rw [reloads_own found]
    exact complete_following (s := app.screen) following sane.identified first arrived decoded
  · rw [reloads_other found own]
    have next : (complete app.screen block.completion (some block.value)).screens i =
        app.screen.screens i := complete_other (Ne.symm own)
    exact next.symm ▸ following

theorem event_following {app next : App client} {e : Event client} {i : Nat} (typed : Typed app)
    (sane : Sane (view i app)) (following : Following (app.screen.screens i) table)
    (step : (NetworkService.machine client).step app e = some next) :
    Following (next.screen.screens i) (after (reloads i app e) table) := by
  cases e with
  | respond id response =>
    obtain ⟨task, tasks, -, rfl⟩ := step_respond step
    rw [respond_screen]
    exact following
  | runBlock id => exact runBlock_following typed sane following step
  | act a =>
    obtain ⟨screen, requests, acted, rfl⟩ := step_act step
    cases a with
    | «open» movieId =>
      cases acted
      exact following
    | viewDidLoad j =>
      obtain ⟨-, -, rfl, -⟩ := act_viewDidLoad acted
      by_cases own : j = i
      · subst own
        simp only [Function.update_self, reloads, beq_self_eq_true, after, if_true]
        exact ⟨following.unset, following.set, following.voted,
          fun _ => Reload.View.shows_reloadData⟩
      · simp only [Function.update_of_ne (Ne.symm own), reloads, beq_eq_false_iff_ne.mpr own, after,
          Bool.false_eq_true, if_false]
        exact following

/-- The header has been set up, or a cast reply that will do so is still to come. -/
structure HeaderToCome (v : View) : Prop where
  sane : Sane v
  single : v.movie = none → v.casts ≤ 1
  due : v.bound = true → v.uploads ≠ [] ∨ 0 < v.casts

/-- The header is not set up, and no cast reply is to come any more. -/
structure HeaderMissed (v : View) : Prop where
  sane : Sane v
  bound : v.bound = true
  silent : v.uploads = []
  spent : v.casts = 0

variable {v w : View} {inTurn : Prop}

theorem HeaderToCome.keeps (good : HeaderToCome v) (change : Change v inTurn w)
    (met : (v.bound = false ∧ v.casts ≠ 0) ∨ inTurn) : HeaderToCome w := by
  refine ⟨good.sane.change change, ?_, ?_⟩
  · cases change with
    | stay => exact good.single
    | «open» closed =>
      obtain ⟨-, -, -, -, casts⟩ := good.sane.closed closed
      intro _
      dsimp only
      omega
    | load opened unbound =>
      intro absent
      have absent : v.movie = none := absent
      simpa only [absent, Option.isSome_none, Bool.false_eq_true, if_false, Nat.add_zero]
        using (good.sane.unbound unbound).2
    | movie movie identified pending => exact nofun
    | cast pending recorded silent records =>
      intro absent
      have single := good.single absent
      dsimp only
      omega
  · intro bound
    cases change with
    | stay => exact good.due bound
    | «open» closed =>
      rw [(good.sane.closed closed).1] at bound
      contradiction
    | load opened unbound =>
      right
      by_cases spent : v.casts = 0
      · rcases met with ⟨-, waiting⟩ | met
        · exact absurd spent waiting
        · simp only [met.mpr spent, if_true]
          omega
      · dsimp only
        omega
    | movie movie identified pending => exact good.due bound
    | cast pending recorded silent records =>
      left
      rcases good.sane.recorded silent records with ⟨quiet, -⟩ | ⟨-, movie, id, title, -, -, -, rfl⟩
      · have loaded : v.bound = true := bound
        rcases met with ⟨unbound, -⟩ | met
        · exact absurd (unbound.symm.trans loaded) Bool.false_ne_true
        · rcases quiet with unbound | absent
          · exact absurd (unbound.symm.trans loaded) Bool.false_ne_true
          · exact absurd (met loaded) (by simp [absent])
      · exact List.append_ne_nil_of_right_ne_nil _ (List.cons_ne_nil _ _)

theorem HeaderToCome.slips (good : HeaderToCome v) (change : Change v inTurn w)
    (missed : ¬ ((v.bound = false ∧ v.casts ≠ 0) ∨ inTurn)) : HeaderMissed w := by
  have sane := good.sane.change change
  obtain ⟨early, late⟩ := not_or.mp missed
  cases change with
  | stay => exact absurd trivial late
  | «open» closed => exact absurd trivial late
  | movie movie identified pending => exact absurd trivial late
  | load opened unbound =>
    have spent : v.casts = 0 := by
      by_contra waiting
      exact early ⟨unbound, waiting⟩
    have absent : v.movie.isSome = false := by
      rw [Bool.eq_false_iff]
      exact fun present => late (iff_of_true present spent)
    refine ⟨sane, rfl, (good.sane.unbound unbound).1, ?_⟩
    simp only [spent, absent, Bool.false_eq_true, if_false]
  | cast pending recorded silent records =>
    obtain ⟨bound, absent⟩ := Classical.not_imp.mp late
    rw [Option.not_isSome_iff_eq_none] at absent
    have single := good.single absent
    refine ⟨sane, bound, (silent (Or.inr absent)).trans (good.sane.no_uploads absent), ?_⟩
    dsimp only
    omega

theorem HeaderMissed.stays (bad : HeaderMissed v) (change : Change v inTurn w) : HeaderMissed w := by
  have sane := bad.sane.change change
  have bound := bad.bound
  cases change with
  | stay => exact bad
  | «open» closed =>
    rw [(bad.sane.closed closed).1] at bound
    contradiction
  | load opened unbound =>
    rw [unbound] at bound
    contradiction
  | movie movie identified pending => exact ⟨sane, bound, bad.silent, bad.spent⟩
  | cast pending recorded silent records =>
    rw [bad.spent] at pending
    contradiction

/-- A step is due if it is in turn, or if the screen is not loaded yet and a cast reply is
still to come. -/
theorem headerDue_iff {s : State} {i : Nat} {e : Event client} {next : App client}
    (step : (NetworkService.machine client).step s.app e = some next) :
    HeaderDue i s (.event e) ↔
      ((view i s.app).bound = false ∧ (view i s.app).casts ≠ 0) ∨ InTurn i s.app e := by
  cases e with
  | respond id response => exact iff_of_true trivial (Or.inr trivial)
  | runBlock id =>
    refine ⟨Or.inr, ?_⟩
    rintro (⟨unbound, -⟩ | inTurn)
    · intro block _ _ bound
      exact absurd (unbound.symm.trans bound) Bool.false_ne_true
    · exact inTurn
  | act a =>
    cases a with
    | «open» movieId => exact iff_of_true trivial (Or.inr trivial)
    | viewDidLoad j =>
      obtain ⟨screen, requests, acted, -⟩ := step_act step
      obtain ⟨-, unbound, -⟩ := act_viewDidLoad acted
      constructor
      · intro due
        by_cases spent : s.app.service.outstanding (.cast i) = 0
        · exact Or.inr fun own => iff_of_true (due own spent) spent
        · by_cases own : j = i
          · exact Or.inl ⟨own ▸ unbound, spent⟩
          · exact Or.inr fun same => absurd same own
      · rintro (⟨-, waiting⟩ | inTurn) own spent
        · exact absurd spent waiting
        · exact (inTurn own).mpr spent

theorem step_event {s t : State} {e : Event client} (step : machine.step s (.event e) = some t) :
    (NetworkService.machine client).step s.app e = some t.app ∧
      ∀ i, t.tables i = after (reloads i s.app e) (s.tables i) := by
  obtain ⟨app, stepped, rfl⟩ := Option.map_eq_some_iff.mp step
  exact ⟨stepped, fun i => rfl⟩

theorem step_layout {s t : State} {j : Nat} {details : DetailsTableViewCell}
    {cast : CastTableViewCell} (step : machine.step s (.layout j details cast) = some t) :
    t.app = s.app ∧ ∀ i, t.tables i =
      if i = j then .layout (cellForRowAt (s.app.screen.screens i) details cast)
      else s.tables i := by
  obtain ⟨-, laidOut⟩ := Option.ite_none_right_eq_some.mp step
  cases Option.some.inj laidOut
  refine ⟨rfl, fun i => ?_⟩
  by_cases own : i = j
  · subst own
    simp only [Function.update_self, if_true]
  · simp only [Function.update_of_ne own, if_neg own]

structure Inv (i : Nat) (s : State) : Prop where
  typed : Typed s.app
  sane : Sane (view i s.app)
  following : Following (s.app.screen.screens i) (s.tables i)

theorem step_inv {s t : State} {a : Action} {i : Nat} (inv : Inv i s) (succeeds : Succeeds i s a)
    (step : machine.step s a = some t) : Inv i t := by
  cases a with
  | event e =>
    obtain ⟨stepped, tables⟩ := step_event step
    obtain ⟨inTurn, change, -⟩ := step_change inv.typed inv.sane succeeds stepped
    exact ⟨step_typed inv.typed stepped, inv.sane.change change,
      tables i ▸ event_following inv.typed inv.sane inv.following stepped⟩
  | layout j details cast =>
    obtain ⟨app, tables⟩ := step_layout step
    refine ⟨app ▸ inv.typed, app ▸ inv.sane, ?_⟩
    rw [app, tables i]
    split
    · exact ⟨inv.following.unset, inv.following.set, inv.following.voted,
        fun _ => Reload.View.shows_layout (cellForRowAt_agree _ details cast)⟩
    · exact inv.following

theorem start_inv (i : Nat) : Inv i .start :=
  ⟨start_typed, (start_onCourse i).sane, fun _ => rfl, fun uploaded => absurd rfl uploaded, nofun,
    fun loaded => absurd loaded Bool.false_ne_true⟩

theorem step_due {s t : State} {a : Action} {i : Nat}
    (good : Typed s.app ∧ HeaderToCome (view i s.app)) (succeeds : Succeeds i s a)
    (step : machine.step s a = some t) :
    (HeaderDue i s a → Typed t.app ∧ HeaderToCome (view i t.app)) ∧
      (¬ HeaderDue i s a → Typed t.app ∧ HeaderMissed (view i t.app)) := by
  obtain ⟨typed, good⟩ := good
  cases a with
  | event e =>
    obtain ⟨stepped, -⟩ := step_event step
    obtain ⟨inTurn, change, same⟩ := step_change typed good.sane succeeds stepped
    rw [headerDue_iff stepped, same]
    exact ⟨fun due => ⟨step_typed typed stepped, good.keeps change due⟩,
      fun missed => ⟨step_typed typed stepped, good.slips change missed⟩⟩
  | layout j details cast =>
    obtain ⟨app, -⟩ := step_layout step
    exact ⟨fun _ => app.symm ▸ ⟨typed, good⟩, fun missed => absurd trivial missed⟩

theorem step_missed {s t : State} {a : Action} {i : Nat}
    (bad : Typed s.app ∧ HeaderMissed (view i s.app)) (succeeds : Succeeds i s a)
    (step : machine.step s a = some t) : Typed t.app ∧ HeaderMissed (view i t.app) := by
  obtain ⟨typed, bad⟩ := bad
  cases a with
  | event e =>
    obtain ⟨stepped, -⟩ := step_event step
    obtain ⟨inTurn, change, -⟩ := step_change typed bad.sane succeeds stepped
    exact ⟨step_typed typed stepped, bad.stays change⟩
  | layout j details cast =>
    obtain ⟨app, -⟩ := step_layout step
    exact app.symm ▸ ⟨typed, bad⟩

/-- Where the rows agree, what is displayed is right as soon as the header is set up. -/
theorem displayed_iff {rows : Rows} {movie : MovieDetailsResponce} (following : Following s table)
    (agree : Agree s rows) (present : s.movie = some movie) :
    displayed s rows = rendered s ↔ s.uploads ≠ [] := by
  obtain ⟨reviews, shown⟩ := agree
  obtain ⟨cast, cell, details⟩ := shown movie present
  obtain ⟨title, vote, genre, date, overview⟩ :=
    setup_labels cell (getGenreName s) (following.voted movie present)
  constructor
  · intro same empty
    have header : s.header = s.movie.map fun movie => movie.backdropPath.getD "" :=
      congrArg Displayed.header same
    rw [following.unset empty, present] at header
    contradiction
  · intro uploaded
    obtain ⟨other, held, header⟩ := following.set uploaded
    obtain rfl := Option.some.inj (present.symm.trans held)
    simp only [displayed, rendered, details, present, Option.bind_some, Option.map_some, title, vote,
      genre, date, overview, cast, reviews, header]

/-- For every run whose replies succeed: once the screen is loaded, its movie and cast
replies are in and no reload is pending, it displays its model if and only if the header
was still to come at every step. The two rows always show the model. -/
theorem converges_iff {i : Nat} {acts : List Action} {s : State}
    (run : machine.run .start acts = some s) (succeeds : machine.Along (Succeeds i) .start acts)
    (loaded : (s.app.screen.screens i).bound = true)
    (settled : s.app.service.outstanding (.movie i) = 0 ∧ s.app.service.outstanding (.cast i) = 0)
    (laidOut : (s.tables i).pending = false) :
    Agree (s.app.screen.screens i) (s.tables i).shown ∧
      (displayed (s.app.screen.screens i) (s.tables i).shown = rendered (s.app.screen.screens i) ↔
        machine.Along (HeaderDue i) .start acts) := by
  have inv := Transition.Machine.run_invariant_along step_inv run succeeds (start_inv i)
  have agree := inv.following.rows loaded laidOut
  have opened : (view i s.app).opened = true := by
    by_contra closed
    have unbound := (inv.sane.closed (Bool.eq_false_iff.mpr closed)).1
    exact absurd (unbound.symm.trans loaded) Bool.false_ne_true
  have present : (view i s.app).movie.isSome := by
    have once := inv.sane.once opened
    by_contra absent
    rw [if_neg absent] at once
    have none : (view i s.app).movies = 0 := settled.1
    omega
  obtain ⟨movie, present⟩ := Option.isSome_iff_exists.mp present
  refine ⟨agree, (displayed_iff inv.following agree present).trans ?_⟩
  have trap := Transition.Machine.along_trap (HeaderDue i) _ _
    (fun good succeeds due step => (step_due good succeeds step).1 due)
    (fun good succeeds missed step => (step_due good succeeds step).2 missed)
    step_missed run succeeds
    ⟨start_typed, (start_onCourse i).sane, fun _ => Nat.zero_le _, nofun⟩
  rcases trap with ⟨along, -, good⟩ | ⟨broken, -, bad⟩
  · refine iff_of_true ((good.due loaded).resolve_right ?_) along
    rw [show (view i s.app).casts = 0 from settled.2]
    exact Nat.lt_irrefl 0
  · exact iff_of_false (fun uploaded => uploaded bad.silent) broken

/-- What a screen that converged displays depends on its model only, not on the order in
which the replies came. -/
theorem same_model_same_display {s t : Screen} {rows other : Rows}
    (first : displayed s rows = rendered s) (second : displayed t other = rendered t)
    (model : s.movie = t.movie ∧ s.cast = t.cast ∧ s.reviews = t.reviews) :
    displayed s rows = displayed t other := by
  obtain ⟨movie, cast, reviews⟩ := model
  rw [first, second]
  simp only [rendered, getGenreName, movie, cast, reviews]

def noReviews : tmdb.Body := some (.object [("results", .array [])])

def noLabels : DetailsTableViewCell := ⟨none, none, none, .label, none, none, none⟩

/-- A loaded screen gets its replies in the given order and is laid out. -/
def replies (order : List (Event client)) : List Action :=
  .event (.act (.open "949")) :: .event (.act (.viewDidLoad 0)) ::
    order.map .event ++ [.layout 0 noLabels ⟨[], []⟩]

def movieFirst : List Action :=
  replies [.respond 0 (.data movieDetails), .runBlock 0, .respond 1 (.data noCast), .runBlock 1,
    .respond 2 (.data noReviews), .runBlock 2]

def castFirst : List Action :=
  replies [.respond 1 (.data noCast), .runBlock 1, .respond 0 (.data movieDetails), .runBlock 0,
    .respond 2 (.data noReviews), .runBlock 2]

def heat (header : Option String) : Displayed :=
  ⟨header, some "Heat", some 8, some "", some "1995-12-15", some "", [], []⟩

/-- Whether the screen is loaded, all is settled and laid out, and what the screen displays
and should display. -/
def outcome (s : State) : (Bool × Nat × Nat × Nat × Bool) × Displayed × Displayed :=
  (((s.app.screen.screens 0).bound, s.app.service.tasks.length + s.app.service.mainQueue.length,
    s.app.service.outstanding (.movie 0), s.app.service.outstanding (.cast 0), (s.tables 0).pending),
    displayed (s.app.screen.screens 0) (s.tables 0).shown, rendered (s.app.screen.screens 0))

theorem movieFirst_outcome : (machine.run .start movieFirst).map outcome =
    some ((true, 0, 0, 0, false), heat (some "/b.jpg"), heat (some "/b.jpg")) := by
  decide +kernel

theorem castFirst_outcome : (machine.run .start castFirst).map outcome =
    some ((true, 0, 0, 0, false), heat none, heat (some "/b.jpg")) := by
  decide +kernel

theorem converges_movie_first : ∃ s, machine.run .start movieFirst = some s ∧
    displayed (s.app.screen.screens 0) (s.tables 0).shown = heat (some "/b.jpg") ∧
    displayed (s.app.screen.screens 0) (s.tables 0).shown = rendered (s.app.screen.screens 0) := by
  have succeeds : machine.Along (Succeeds 0) .start movieFirst :=
    ⟨open_succeeds, load_succeeds rfl, answer_succeeds rfl rfl, trivial, answer_succeeds rfl rfl,
      trivial, answer_succeeds rfl rfl, trivial, trivial, trivial⟩
  have due : machine.Along (HeaderDue 0) .start movieFirst := by
    refine ⟨trivial, fun _ spent => (nomatch spent), trivial, ?_, trivial, ?_, trivial, ?_, trivial,
      trivial⟩
    all_goals
      intro block found completion _
      cases found
      first
        | contradiction
        | rfl
  obtain ⟨s, run, seen⟩ := Option.map_eq_some_iff.mp movieFirst_outcome
  simp only [outcome, Prod.mk.injEq] at seen
  obtain ⟨⟨loaded, -, movie, cast, laidOut⟩, shown, -⟩ := seen
  exact ⟨s, run, shown, (converges_iff run succeeds loaded ⟨movie, cast⟩ laidOut).2.mpr due⟩

/-- The same replies with the cast before the movie: the header stays empty. -/
theorem header_left_empty : ∃ s t, machine.run .start castFirst = some s ∧
    machine.Along (Succeeds 0) .start castFirst ∧
    outcome s = ((true, 0, 0, 0, false), heat none, heat (some "/b.jpg")) ∧
    machine.run .start movieFirst = some t ∧
    outcome t = ((true, 0, 0, 0, false), heat (some "/b.jpg"), heat (some "/b.jpg")) := by
  obtain ⟨s, run, seen⟩ := Option.map_eq_some_iff.mp castFirst_outcome
  obtain ⟨t, other, shown⟩ := Option.map_eq_some_iff.mp movieFirst_outcome
  exact ⟨s, t, run,
    ⟨open_succeeds, load_succeeds rfl, answer_succeeds rfl rfl, trivial, answer_succeeds rfl rfl,
      trivial, answer_succeeds rfl rfl, trivial, trivial, trivial⟩,
    seen, other, shown⟩

end MoviesApp.DetailsVC
