import MoviesApp.Screens.Details

/-! When a details screen is recorded exactly once. What matters of one screen is a
small state of its own: whether it is bound and has its movie, what it has recorded
and how many movie and cast replies it still waits for. Every step of the app changes
that state in one of five ways. -/
namespace MoviesApp.Details
open NetworkService

/-- Every request for the screen's movie and cast has a URL, and every answer decodes. -/
def RepliesSucceed (i : Nat) (app : App client) : Event client → Prop
  | .act a => ∀ screen requests, act app.screen a = some (screen, requests) →
      ∀ request ∈ requests, request.completion = .movie i ∨ request.completion = .cast i →
        request.url.isSome
  | .respond id response => ∀ task ∈ app.service.tasks.find? (·.id == id),
      task.completion = .movie i ∨ task.completion = .cast i → response.Decodes task.model
  | .runBlock _ => True

/-- The screen's `viewDidLoad` finds the movie exactly if it comes after the first cast
reply, and from then on no cast reply comes before the movie. -/
def InTurn (i : Nat) (app : App client) : Event client → Prop
  | .act (.viewDidLoad j) => j = i →
      ((app.screen.screens i).movie.isSome ↔ app.service.outstanding (.cast i) = 0)
  | .runBlock id => ∀ block ∈ app.service.mainQueue.find? (·.id == id), block.completion = .cast i →
      (app.screen.screens i).bound = true → (app.screen.screens i).movie.isSome
  | .act (.open _) | .respond _ _ => True

/-- The screen has been recorded once, with the id and the title of its movie. -/
def RecordedOnce (s : Screen) : Prop :=
  ∃ movie id title, s.movie = some movie ∧ movie.id = some id ∧ movie.title = some title ∧
    s.uploads = [(toString id, title)]

/-- One screen's share of the app's state. -/
@[ext] structure View where
  opened : Bool
  bound : Bool
  movie : Option MovieDetailsResponce
  uploads : List (String × String)
  movies : Nat
  casts : Nat

/-- A movie that decoded. -/
def Identified (movie : MovieDetailsResponce) : Prop :=
  ∃ id title, movie.id = some id ∧ movie.title = some title

/-- What a step does to the view of a screen, with the condition under which it is in turn. -/
inductive Change (v : View) : Prop → View → Prop where
  | stay : Change v True v
  | «open» (closed : v.opened = false) :
      Change v True { v with opened := true, movies := v.movies + 1, casts := v.casts + 1 }
  | load (opened : v.opened = true) (unbound : v.bound = false) :
      Change v (v.movie.isSome ↔ v.casts = 0)
        { v with bound := true, casts := v.casts + if v.movie.isSome then 1 else 0 }
  | movie (movie : MovieDetailsResponce) (identified : Identified movie) {left : Nat}
      (pending : v.movies = left + 1) :
      Change v True { v with movie := some movie, movies := left }
  | cast {left : Nat} (pending : v.casts = left + 1) (recorded : List (String × String))
      (silent : v.bound = false ∨ v.movie = none → recorded = v.uploads)
      (records : v.bound = true → ∀ movie id title, v.movie = some movie → movie.id = some id →
        movie.title = some title → recorded = v.uploads ++ [(toString id, title)]) :
      Change v (v.bound = true → v.movie.isSome) { v with casts := left, uploads := recorded }

/-- What holds of the view in every run whose replies succeed. -/
structure Sane (v : View) : Prop where
  closed : v.opened = false →
    v.bound = false ∧ v.movie = none ∧ v.uploads = [] ∧ v.movies = 0 ∧ v.casts = 0
  once : v.opened = true → v.movies = if v.movie.isSome then 0 else 1
  identified : ∀ movie, v.movie = some movie → Identified movie
  named : ∀ upload ∈ v.uploads, ∃ movie id title, v.movie = some movie ∧ movie.id = some id ∧
    movie.title = some title ∧ upload = (toString id, title)
  unbound : v.bound = false → v.uploads = [] ∧ v.casts ≤ 1

/-- One upload is made or still to come. -/
structure OnCourse (v : View) : Prop where
  sane : Sane v
  balance : v.bound = true → v.uploads.length + v.casts = 1
  waiting : v.bound = true → v.movie = none → v.casts = 1

/-- The uploads made and to come are none or two, for good. -/
structure OffCourse (v : View) : Prop where
  sane : Sane v
  bound : v.bound = true
  balance : v.uploads.length + v.casts ≠ 1
  spent : v.movie = none → v.casts = 0

variable {v w : View} {inTurn : Prop}

theorem Sane.opened_of_movies (sane : Sane v) (pending : v.movies = left + 1) : v.opened = true := by
  by_contra closed
  have none := (sane.closed (Bool.eq_false_iff.mpr closed)).2.2.2.1
  omega

theorem Sane.opened_of_casts (sane : Sane v) (pending : v.casts = left + 1) : v.opened = true := by
  by_contra closed
  have none := (sane.closed (Bool.eq_false_iff.mpr closed)).2.2.2.2
  omega

/-- The movie arrives once, on a screen that has none. -/
theorem Sane.movie_absent (sane : Sane v) (pending : v.movies = left + 1) :
    v.movie = none ∧ left = 0 := by
  have once := sane.once (sane.opened_of_movies pending)
  cases present : v.movie with
  | none =>
    rw [present] at once
    exact ⟨rfl, by simpa [pending] using once⟩
  | some movie =>
    rw [present] at once
    simp [pending] at once

theorem Sane.no_uploads (sane : Sane v) (absent : v.movie = none) : v.uploads = [] := by
  apply List.eq_nil_iff_forall_not_mem.mpr
  intro upload member
  obtain ⟨movie, _, _, present, -⟩ := sane.named upload member
  rw [absent] at present
  contradiction

/-- What a cast reply records on a screen of either kind. -/
theorem Sane.recorded (sane : Sane v) {recorded : List (String × String)}
    (silent : v.bound = false ∨ v.movie = none → recorded = v.uploads)
    (records : v.bound = true → ∀ movie id title, v.movie = some movie → movie.id = some id →
      movie.title = some title → recorded = v.uploads ++ [(toString id, title)]) :
    (v.bound = false ∨ v.movie = none) ∧ recorded = v.uploads ∨
    (v.bound = true ∧ ∃ movie id title, v.movie = some movie ∧ movie.id = some id ∧
      movie.title = some title ∧ recorded = v.uploads ++ [(toString id, title)]) := by
  cases bound : v.bound with
  | false => exact Or.inl ⟨Or.inl rfl, silent (Or.inl bound)⟩
  | true =>
    cases present : v.movie with
    | none => exact Or.inl ⟨Or.inr rfl, silent (Or.inr present)⟩
    | some movie =>
      obtain ⟨id, title, named, titled⟩ := sane.identified movie present
      exact Or.inr ⟨rfl, movie, id, title, rfl, named, titled,
        records bound movie id title present named titled⟩

theorem Sane.change (sane : Sane v) (change : Change v inTurn w) : Sane w := by
  cases change with
  | stay => exact sane
  | «open» closed =>
    obtain ⟨unbound, absent, none, movies, casts⟩ := sane.closed closed
    refine ⟨nofun, ?_, sane.identified, sane.named, ?_⟩
    · intro _
      simp [movies, absent]
    · intro _
      exact ⟨none, by simp [casts]⟩
  | load opened unbound =>
    refine ⟨?_, sane.once, sane.identified, sane.named, nofun⟩
    intro closed
    rw [opened] at closed
    contradiction
  | movie movie identified pending =>
    obtain ⟨absent, rfl⟩ := sane.movie_absent pending
    have none := sane.no_uploads absent
    refine ⟨?_, ?_, ?_, ?_, sane.unbound⟩
    · intro closed
      rw [sane.opened_of_movies pending] at closed
      contradiction
    · intro _
      rfl
    · intro other same
      cases same
      exact identified
    · intro upload member
      rw [none] at member
      contradiction
  | cast pending recorded silent records =>
    refine ⟨?_, sane.once, sane.identified, ?_, ?_⟩
    · intro closed
      rw [sane.opened_of_casts pending] at closed
      contradiction
    · rcases sane.recorded silent records with ⟨-, rfl⟩ | ⟨-, movie, id, title, present, named, titled, rfl⟩
      · exact sane.named
      · exact Pool.forall_snoc sane.named ⟨movie, id, title, present, named, titled, rfl⟩
    · intro unbound
      obtain ⟨none, bound⟩ := sane.unbound unbound
      exact ⟨(silent (Or.inl unbound)).trans none, by dsimp only; omega⟩

/-- A change in turn keeps the balance of uploads and cast replies to come. -/
theorem OnCourse.keeps (good : OnCourse v) (change : Change v inTurn w) (met : inTurn) :
    OnCourse w := by
  refine ⟨good.sane.change change, ?_, ?_⟩
  · intro bound
    cases change with
    | stay => exact good.balance bound
    | «open» closed =>
      rw [(good.sane.closed closed).1] at bound
      contradiction
    | load opened unbound =>
      obtain ⟨empty, one⟩ := good.sane.unbound unbound
      cases present : v.movie with
      | none =>
        simp only [present, Option.isSome_none, Bool.false_eq_true, false_iff] at met
        simp only [empty, List.length_nil, Option.isSome_none, Bool.false_eq_true, if_false]
        omega
      | some movie =>
        simp only [present, Option.isSome_some, true_iff] at met
        simp [empty, met]
    | movie movie identified pending => exact good.balance bound
    | cast pending recorded silent records =>
      have balance := good.balance bound
      rcases good.sane.recorded silent records with ⟨quiet, rfl⟩ | ⟨-, movie, id, title, -, -, -, rfl⟩
      · rcases quiet with unbound | absent
        · rw [unbound] at bound
          contradiction
        · have present := met bound
          rw [absent] at present
          contradiction
      · simp only [List.length_append, List.length_singleton]
        omega
  · intro bound absent
    cases change with
    | stay => exact good.waiting bound absent
    | «open» closed =>
      rw [(good.sane.closed closed).1] at bound
      contradiction
    | load opened unbound =>
      obtain ⟨empty, one⟩ := good.sane.unbound unbound
      have without : v.movie = none := absent
      simp only [without, Option.isSome_none, Bool.false_eq_true, false_iff, if_false] at met ⊢
      omega
    | movie movie identified pending => contradiction
    | cast pending recorded silent records =>
      have present := met bound
      rw [show v.movie = none from absent] at present
      contradiction

/-- The first change out of turn upsets the balance. -/
theorem OnCourse.slips (good : OnCourse v) (change : Change v inTurn w) (missed : ¬ inTurn) :
    OffCourse w := by
  have sane := good.sane.change change
  cases change with
  | stay => exact absurd trivial missed
  | «open» closed => exact absurd trivial missed
  | movie movie identified pending => exact absurd trivial missed
  | load opened unbound =>
    obtain ⟨empty, one⟩ := good.sane.unbound unbound
    refine ⟨sane, rfl, ?_, ?_⟩
    · cases present : v.movie with
      | none =>
        simp only [present, Option.isSome_none, Bool.false_eq_true, false_iff, not_not] at missed
        simp [empty, missed]
      | some movie =>
        simp only [present, Option.isSome_some, true_iff] at missed
        simp only [empty, List.length_nil, Option.isSome_some, if_true]
        omega
    · intro absent
      have without : v.movie = none := absent
      simp only [without, Option.isSome_none, Bool.false_eq_true, false_iff, not_not] at missed
      simp [missed, without]
  | cast pending recorded silent records =>
    obtain ⟨bound, absent⟩ := Classical.not_imp.mp missed
    rw [Option.not_isSome_iff_eq_none] at absent
    have balance := good.balance bound
    have waiting := good.waiting bound absent
    refine ⟨sane, bound, ?_, ?_⟩
    · rw [silent (Or.inr absent), good.sane.no_uploads absent, List.length_nil]
      dsimp only
      omega
    · intro _
      dsimp only
      omega

theorem OffCourse.stays (bad : OffCourse v) (change : Change v inTurn w) : OffCourse w := by
  have sane := bad.sane.change change
  cases change with
  | stay => exact bad
  | «open» closed =>
    have bound := bad.bound
    rw [(bad.sane.closed closed).1] at bound
    contradiction
  | load opened unbound =>
    have bound := bad.bound
    rw [unbound] at bound
    contradiction
  | movie movie identified pending => exact ⟨sane, bad.bound, bad.balance, nofun⟩
  | cast pending recorded silent records =>
    have balance := bad.balance
    rcases bad.sane.recorded silent records with ⟨quiet, rfl⟩ | ⟨-, movie, id, title, present, -, -, rfl⟩
    · rcases quiet with unbound | absent
      · have bound := bad.bound
        rw [unbound] at bound
        contradiction
      · have spent := bad.spent absent
        omega
    · refine ⟨sane, bad.bound, ?_, ?_⟩
      · simp only [List.length_append, List.length_singleton]
        omega
      · intro absent
        rw [show v.movie = none from absent] at present
        contradiction

/-- The screen's share of an app's state. -/
def view (i : Nat) (app : App client) : View where
  opened := decide (i < app.screen.opened)
  bound := (app.screen.screens i).bound
  movie := (app.screen.screens i).movie
  uploads := (app.screen.screens i).uploads
  movies := app.service.outstanding (.movie i)
  casts := app.service.outstanding (.cast i)

theorem countP_zero_of_other {i : Nat} {requests : List (Request tmdb Completion)}
    (other : ∀ request ∈ requests, request.completion.screen ≠ i) (completion : Completion)
    (own : completion.screen = i) :
    requests.countP (fun request => request.completion = completion ∧ request.url.isSome) = 0 := by
  apply List.countP_eq_zero.mpr
  intro request member
  simp only [decide_eq_true_eq, not_and]
  rintro rfl
  exact absurd own (other request member)

/-- An action for another screen. -/
theorem act_stays {app : App client} {screen : State} {requests : List (Request tmdb Completion)}
    {i : Nat} (other : ∀ request ∈ requests, request.completion.screen ≠ i)
    (opened : i < screen.opened ↔ i < app.screen.opened)
    (same : screen.screens i = app.screen.screens i) :
    view i (⟨requests.foldl NetworkService.load app.service, screen⟩ : App client) = view i app := by
  simp only [view, foldl_load_outstanding, countP_zero_of_other other (.movie i) rfl,
    countP_zero_of_other other (.cast i) rfl, same, opened, Nat.add_zero]

theorem opening_screen {i : Nat} {movieId : String} :
    ∀ request ∈ opening i movieId, request.completion.screen = i := by
  simp only [opening, List.forall_mem_cons]
  exact ⟨rfl, rfl, rfl, List.forall_mem_nil _⟩

theorem load_screen {i : Nat} {s : Screen} : ∀ request ∈ load i s, request.completion.screen = i := by
  unfold load
  split
  · exact fun _ member => nomatch member
  · simp only [List.forall_mem_cons]
    exact ⟨rfl, rfl, List.forall_mem_nil _⟩

theorem open_change {app next : App client} {i : Nat} {movieId : String}
    (succeeds : RepliesSucceed i app (.act (.open movieId)))
    (step : (machine client).step app (.act (.open movieId)) = some next) :
    Change (view i app) True (view i next) := by
  obtain ⟨screen, requests, acted, after⟩ := step_act step
  have valid := succeeds screen requests acted
  cases acted
  by_cases own : app.screen.opened = i
  · subst own
    have movieValid := valid (loadMovie _ movieId) List.mem_cons_self (Or.inl rfl)
    have castValid := valid (loadCast _ movieId) (List.mem_cons_of_mem _ List.mem_cons_self) (Or.inr rfl)
    have movies : (opening app.screen.opened movieId).countP (fun request =>
        request.completion = .movie app.screen.opened ∧ request.url.isSome) = 1 := by
      simp [opening, movieValid]
    have casts : (opening app.screen.opened movieId).countP (fun request =>
        request.completion = .cast app.screen.opened ∧ request.url.isSome) = 1 := by
      simp [opening, castValid]
    have seen : view app.screen.opened next = { view app.screen.opened app with
        opened := true
        movies := (view app.screen.opened app).movies + 1
        casts := (view app.screen.opened app).casts + 1 } := by
      rw [after]
      simp only [view, foldl_load_outstanding, movies, casts, Nat.lt_succ_self, decide_true]
    rw [seen]
    exact .open (by simp [view])
  · have seen : view i next = view i app := by
      rw [after]
      apply act_stays
      · intro request member
        rw [opening_screen request member]
        exact own
      · dsimp only
        omega
      · rfl
    rw [seen]
    exact .stay

/-- The second cast load is issued where the movie is there already. -/
theorem load_casts {i : Nat} {s : Screen}
    (identified : ∀ movie, s.movie = some movie → Identified movie)
    (valid : ∀ request ∈ load i s, request.completion = .cast i → request.url.isSome) :
    (load i s).countP (fun request => request.completion = .cast i ∧ request.url.isSome) =
      if s.movie.isSome then 1 else 0 := by
  cases present : s.movie with
  | none => simp [load, present]
  | some movie =>
    obtain ⟨id, title, named, -⟩ := identified movie present
    have shape : load i s = [loadCast i (toString id), loadReviews i (toString id)] := by
      simp only [load, present, Option.bind_some, named]
    rw [shape] at valid ⊢
    have castValid := valid _ List.mem_cons_self rfl
    rw [List.countP_cons, List.countP_singleton]
    simp only [loadCast_completion, loadReviews_completion, castValid, reduceCtorEq, false_and,
      true_and, decide_true, decide_false, Option.isSome_some, Bool.false_eq_true, if_true, if_false]

theorem load_movies {i : Nat} {s : Screen} :
    (load i s).countP (fun request => request.completion = .movie i ∧ request.url.isSome) = 0 := by
  unfold load
  split <;> simp

theorem viewDidLoad_change {app next : App client} {i j : Nat} (sane : Sane (view i app))
    (succeeds : RepliesSucceed i app (.act (.viewDidLoad j)))
    (step : (machine client).step app (.act (.viewDidLoad j)) = some next) :
    ∃ inTurn, Change (view i app) inTurn (view i next) ∧
      (InTurn i app (.act (.viewDidLoad j)) ↔ inTurn) := by
  obtain ⟨screen, requests, acted, after⟩ := step_act step
  have valid := succeeds screen requests acted
  obtain ⟨opened, unbound, loaded, issued⟩ := act_viewDidLoad acted
  by_cases own : j = i
  · subst own
    refine ⟨_, ?_, fun inTurn => inTurn rfl, fun inTurn _ => inTurn⟩
    have casts := load_casts sane.identified fun request member same =>
      valid request (issued ▸ member) (Or.inr same)
    have seen : view j next = { view j app with
        bound := true
        casts := (view j app).casts + if (view j app).movie.isSome then 1 else 0 } := by
      rw [after, loaded, issued]
      simp only [view, foldl_load_outstanding, load_movies, casts, Function.update_self, bind,
        Nat.add_zero]
      rfl
    rw [seen]
    exact .load (decide_eq_true opened) unbound
  · refine ⟨True, ?_, fun _ => trivial, fun _ same => absurd same own⟩
    have seen : view i next = view i app := by
      rw [after, loaded, issued]
      apply act_stays
      · intro request member
        rw [load_screen request member]
        exact own
      · exact Iff.rfl
      · exact Function.update_of_ne (Ne.symm own) ..
    rw [seen]
    exact .stay

theorem respond_change {app next : App client} {i id : Nat} {response : Response tmdb}
    (succeeds : RepliesSucceed i app (.respond id response))
    (step : (machine client).step app (.respond id response) = some next) :
    Change (view i app) True (view i next) := by
  obtain ⟨task, tasks, taken, rfl⟩ := step_respond step
  have decodes := succeeds task (Pool.take?_find taken)
  have movies := respond_outstanding (.movie i) taken fun same => decodes (Or.inl same)
  have casts := respond_outstanding (.cast i) taken fun same => decodes (Or.inr same)
  have after : view i (app.respond task tasks response) = view i app := by
    simp only [view, respond_screen]
    simp only [App.respond, movies, casts]
  rw [after]
  exact .stay

/-- The screen after a block of its own, with the counts of the replies still to come. -/
theorem runBlock_view {app : App client} {i id : Nat} {block : Block tmdb Completion}
    {mainQueue : List (Block tmdb Completion)} {completion : Completion} {s : Screen}
    (taken : Pool.take? (·.id == id) app.service.mainQueue = some (block, mainQueue))
    (same : block.completion = completion)
    (screen : (complete app.screen completion (some block.value)).screens i = s) :
    ∃ movies casts, view i (app.runBlock block mainQueue) =
        ⟨(view i app).opened, s.bound, s.movie, s.uploads, movies, casts⟩ ∧
      movies + (if completion = .movie i then 1 else 0) = (view i app).movies ∧
      casts + (if completion = .cast i then 1 else 0) = (view i app).casts := by
  subst same screen
  exact ⟨_, _, rfl, runBlock_outstanding (Completion.movie i) taken,
    runBlock_outstanding (Completion.cast i) taken⟩

/-- A block that is neither the screen's movie nor its cast. -/
theorem runBlock_stays {app : App client} {i id : Nat} {block : Block tmdb Completion}
    {mainQueue : List (Block tmdb Completion)} {completion : Completion} {s : Screen}
    (taken : Pool.take? (·.id == id) app.service.mainQueue = some (block, mainQueue))
    (same : block.completion = completion)
    (screen : (complete app.screen completion (some block.value)).screens i = s)
    (bound : s.bound = (app.screen.screens i).bound) (movie : s.movie = (app.screen.screens i).movie)
    (uploads : s.uploads = (app.screen.screens i).uploads) (notMovie : completion ≠ .movie i)
    (notCast : completion ≠ .cast i) : view i (app.runBlock block mainQueue) = view i app := by
  obtain ⟨movies, casts, seen, moviesLeft, castsLeft⟩ := runBlock_view taken same screen
  rw [if_neg notMovie, Nat.add_zero] at moviesLeft
  rw [if_neg notCast, Nat.add_zero] at castsLeft
  rw [seen, bound, movie, uploads, moviesLeft, castsLeft]
  rfl

/-- A cast reply records the movie of a bound screen that has one. -/
theorem cast_recorded (s t : Screen) (bound : t.bound = s.bound) (movie : t.movie = s.movie)
    (uploads : t.uploads = s.uploads) :
    let after := if s.bound then castDidChange t else t
    after.bound = s.bound ∧ after.movie = s.movie ∧
    (s.bound = false ∨ s.movie = none → after.uploads = s.uploads) ∧
    (s.bound = true → ∀ movie id title, s.movie = some movie → movie.id = some id →
      movie.title = some title → after.uploads = s.uploads ++ [(toString id, title)]) := by
  cases loaded : s.bound with
  | false => exact ⟨bound.trans loaded, movie, fun _ => uploads, nofun⟩
  | true =>
    refine ⟨(castDidChange_bound t).trans (bound.trans loaded), (castDidChange_movie t).trans movie,
      ?_, ?_⟩
    · rintro (unbound | absent)
      · contradiction
      · rw [if_pos rfl, castDidChange_absent (movie.trans absent), uploads]
    · intro _ _ _ _ present named titled
      rw [if_pos rfl, castDidChange_uploads (movie.trans present) named titled, uploads]

theorem runBlock_change {app next : App client} {i id : Nat} (typed : Typed app)
    (step : (machine client).step app (.runBlock id) = some next) :
    ∃ inTurn, Change (view i app) inTurn (view i next) ∧ (InTurn i app (.runBlock id) ↔ inTurn) := by
  obtain ⟨block, mainQueue, taken, rfl⟩ := step_runBlock step
  have found := Pool.take?_find taken
  have inTurn : InTurn i app (.runBlock id) ↔ (block.completion = .cast i →
      (view i app).bound = true → (view i app).movie.isSome) := by
    simp only [InTurn, found, Option.mem_some_iff, forall_eq']
    rfl
  rw [inTurn]
  by_cases own : block.completion.screen = i
  · cases completion : block.completion with
    | movie j =>
      obtain rfl : j = i := by rw [← own, completion]; rfl
      obtain ⟨movie, json, arrived, decoded⟩ := typed.block (Pool.take?_mem taken) completion
      obtain ⟨movies, casts, seen, moviesLeft, castsLeft⟩ :=
        runBlock_view taken completion (complete_movie arrived)
      refine ⟨True, ?_, fun _ => trivial, fun _ same => nomatch same⟩
      rw [if_pos rfl] at moviesLeft
      rw [if_neg nofun, Nat.add_zero] at castsLeft
      rw [seen, castsLeft]
      exact .movie movie (MovieDetailsResponce.decode_identified decoded) moviesLeft.symm
    | cast j =>
      obtain rfl : j = i := by rw [← own, completion]; rfl
      obtain ⟨cast, json, arrived, -⟩ := typed.block (Pool.take?_mem taken) completion
      obtain ⟨movies, casts, seen, moviesLeft, castsLeft⟩ :=
        runBlock_view taken completion (complete_cast arrived)
      rw [if_pos rfl] at castsLeft
      rw [if_neg nofun, Nat.add_zero] at moviesLeft
      obtain ⟨bound, movie, silent, records⟩ :=
        cast_recorded (app.screen.screens j) { app.screen.screens j with cast := cast.cast } rfl rfl rfl
      refine ⟨_, ?_, fun inTurn => inTurn rfl, fun inTurn _ => inTurn⟩
      rw [seen, bound, movie, moviesLeft]
      exact .cast castsLeft.symm _ silent records
    | reviews j =>
      obtain rfl : j = i := by rw [← own, completion]; rfl
      obtain ⟨reviews, json, arrived, -⟩ := typed.block (Pool.take?_mem taken) completion
      refine ⟨True, ?_, fun _ => trivial, fun _ same => nomatch same⟩
      rw [runBlock_stays taken completion (complete_reviews arrived) rfl rfl rfl nofun nofun]
      exact .stay
  · have away : block.completion ≠ .movie i ∧ block.completion ≠ .cast i := by
      constructor <;> rintro same <;> exact own (same ▸ rfl)
    refine ⟨True, ?_, fun _ => trivial, fun _ same => absurd same away.2⟩
    rw [runBlock_stays taken rfl (complete_other (Ne.symm own)) rfl rfl rfl away.1 away.2]
    exact .stay

theorem step_change {app next : App client} {e : Event client} {i : Nat} (typed : Typed app)
    (sane : Sane (view i app)) (succeeds : RepliesSucceed i app e)
    (step : (machine client).step app e = some next) :
    ∃ inTurn, Change (view i app) inTurn (view i next) ∧ (InTurn i app e ↔ inTurn) := by
  cases e with
  | act a =>
    cases a with
    | «open» movieId => exact ⟨True, open_change succeeds step, Iff.rfl⟩
    | viewDidLoad j => exact viewDidLoad_change sane succeeds step
  | respond id response => exact ⟨True, respond_change succeeds step, Iff.rfl⟩
  | runBlock id => exact runBlock_change typed step

/-- With no cast reply to come, the balance is what the screen has recorded. -/
theorem recordedOnce_iff_balance {s : Screen} (sane : Sane v) (casts : v.casts = 0)
    (movie : v.movie = s.movie) (uploads : v.uploads = s.uploads) :
    RecordedOnce s ↔ v.uploads.length + v.casts = 1 := by
  constructor
  · rintro ⟨_, _, _, _, _, _, once⟩
    rw [uploads, once, casts, List.length_singleton]
  · intro balance
    rw [casts, Nat.add_zero] at balance
    obtain ⟨upload, once⟩ := List.length_eq_one_iff.mp balance
    obtain ⟨other, id, title, present, named, titled, same⟩ :=
      sane.named upload (once ▸ List.mem_singleton_self _)
    exact ⟨other, id, title, movie.symm.trans present, named, titled, by rw [← uploads, once, same]⟩

theorem start_typed : Typed (⟨.empty, .start⟩ : App client) :=
  ⟨start_accounted _, empty_genuine, fun _ member => nomatch member⟩

theorem start_view (i : Nat) :
    view i (⟨.empty, .start⟩ : App client) = ⟨false, false, none, [], 0, 0⟩ := by
  ext
  · exact decide_eq_false (Nat.not_lt_zero i)
  all_goals rfl

theorem start_onCourse (i : Nat) : OnCourse (view i ⟨.empty, .start⟩) := by
  rw [start_view]
  constructor
  · exact ⟨fun _ => ⟨rfl, rfl, rfl, rfl, rfl⟩, nofun, fun _ same => (nomatch same),
      fun _ member => (nomatch member), fun _ => ⟨rfl, Nat.zero_le _⟩⟩
  · nofun
  · nofun

/-- Exactly when a details screen is recorded once: in every run in which its movie and
cast replies succeed, a loaded screen with no cast reply to come has been recorded exactly
once if and only if its `viewDidLoad` and its replies came in turn. -/
theorem recorded_once_iff {i : Nat} {events : List (Event client)} {app : App client}
    (run : (machine client).run ⟨.empty, .start⟩ events = some app)
    (succeeds : (machine client).Along (RepliesSucceed i) ⟨.empty, .start⟩ events)
    (loaded : (app.screen.screens i).bound = true)
    (settled : app.service.outstanding (.cast i) = 0) :
    RecordedOnce (app.screen.screens i) ↔
      (machine client).Along (InTurn i) ⟨.empty, .start⟩ events := by
  have trap := Transition.Machine.along_trap (InTurn i)
    (fun app => Typed app ∧ OnCourse (view i app)) (fun app => Typed app ∧ OffCourse (view i app))
    (fun good succeeds met step => by
      obtain ⟨_, change, inTurn⟩ := step_change good.1 good.2.sane succeeds step
      exact ⟨step_typed good.1 step, good.2.keeps change (inTurn.mp met)⟩)
    (fun good succeeds missed step => by
      obtain ⟨_, change, inTurn⟩ := step_change good.1 good.2.sane succeeds step
      exact ⟨step_typed good.1 step, good.2.slips change (fun met => missed (inTurn.mpr met))⟩)
    (fun bad succeeds step => by
      obtain ⟨_, change, -⟩ := step_change bad.1 bad.2.sane succeeds step
      exact ⟨step_typed bad.1 step, bad.2.stays change⟩)
    run succeeds ⟨start_typed, start_onCourse i⟩
  rcases trap with ⟨along, -, good⟩ | ⟨broken, -, bad⟩
  · exact iff_of_true ((recordedOnce_iff_balance good.sane settled rfl rfl).mpr (good.balance loaded))
      along
  · exact iff_of_false (fun once =>
      bad.balance ((recordedOnce_iff_balance bad.sane settled rfl rfl).mp once)) broken

def movieDetails : tmdb.Body :=
  some (.object [("poster_path", .string "/p.jpg"), ("id", .number 949), ("title", .string "Heat"),
    ("backdrop_path", .string "/b.jpg"), ("genres", .array []), ("overview", .string ""),
    ("release_date", .string "1995-12-15"), ("original_language", .string "en"),
    ("vote_average", .number 8)])

def noCast : tmdb.Body := some (.object [("cast", .array [])])

/-- The screen is loaded first, then come the movie, the cast and the reviews. -/
def loadedFirst : List (Event client) :=
  [.act (.open "949"), .act (.viewDidLoad 0), .respond 0 (.data movieDetails), .runBlock 0,
    .respond 1 (.data noCast), .runBlock 1]

theorem opening_valid : ∀ request ∈ opening 0 "949", request.url.isSome := by
  simp only [opening, List.forall_mem_cons]
  exact ⟨by decide +kernel, by decide +kernel, by decide +kernel, List.forall_mem_nil _⟩

theorem open_succeeds {service : NetworkService.State tmdb Completion} :
    RepliesSucceed 0 (⟨service, .start⟩ : App client) (.act (.open "949")) := by
  intro screen requests acted request member _
  cases acted
  exact opening_valid request member

/-- Without a movie `viewDidLoad` loads nothing. -/
theorem load_succeeds {app : App client} {i : Nat} (absent : (app.screen.screens i).movie = none) :
    RepliesSucceed i app (.act (.viewDidLoad i)) := by
  intro screen requests acted request member
  obtain ⟨-, -, -, rfl⟩ := act_viewDidLoad acted
  unfold Details.load at member
  rw [absent] at member
  exact absurd member List.not_mem_nil

theorem answer_succeeds {app : App client} {i id : Nat} {response : Response tmdb}
    {task : DataTask tmdb Completion} (found : app.service.tasks.find? (·.id == id) = some task)
    (decodes : response.Decodes task.model) : RepliesSucceed i app (.respond id response) := by
  intro other same _
  obtain rfl := Option.some.inj (found.symm.trans same)
  exact decodes

theorem loadedFirst_succeeds :
    (machine client).Along (RepliesSucceed 0) ⟨.empty, .start⟩ loadedFirst :=
  ⟨open_succeeds, load_succeeds rfl, answer_succeeds rfl rfl, trivial, answer_succeeds rfl rfl,
    trivial, trivial⟩

theorem recorded_once_loaded_first : ∃ app,
    (machine client).run ⟨.empty, .start⟩ loadedFirst = some app ∧
    (app.screen.screens 0).uploads = [("949", "Heat")] ∧
    (RecordedOnce (app.screen.screens 0) ↔
      (machine client).Along (InTurn 0) ⟨.empty, .start⟩ loadedFirst) := by
  have observed : ((machine client).run ⟨.empty, .start⟩ loadedFirst).map (fun app =>
      ((app.screen.screens 0).bound, app.service.outstanding (.cast 0),
        (app.screen.screens 0).uploads)) = some (true, 0, [("949", "Heat")]) := by
    decide +kernel
  obtain ⟨app, run, seen⟩ := Option.map_eq_some_iff.mp observed
  simp only [Prod.mk.injEq] at seen
  obtain ⟨loaded, settled, uploads⟩ := seen
  exact ⟨app, run, uploads, recorded_once_iff run loadedFirst_succeeds loaded settled⟩

/-- The movie comes before the screen is loaded, both cast replies after it. -/
def loadedBetween : List (Event client) :=
  [.act (.open "949"), .respond 0 (.data movieDetails), .runBlock 0, .act (.viewDidLoad 0),
    .respond 1 (.data noCast), .respond 2 (.data (some (.object [("results", .array [])]))),
    .respond 3 (.data noCast), .respond 4 (.data (some (.object [("results", .array [])]))),
    .runBlock 1, .runBlock 2, .runBlock 3, .runBlock 4]

theorem recorded_twice : ∃ app,
    (machine client).run ⟨.empty, .start⟩ loadedBetween = some app ∧
    (machine client).Along (RepliesSucceed 0) ⟨.empty, .start⟩ loadedBetween ∧
    (app.screen.screens 0).bound = true ∧ app.service.tasks.length + app.service.mainQueue.length = 0 ∧
    (app.screen.screens 0).uploads = [("949", "Heat"), ("949", "Heat")] ∧
    ¬ RecordedOnce (app.screen.screens 0) := by
  have observed : ((machine client).run ⟨.empty, .start⟩ loadedBetween).map (fun app =>
      ((app.screen.screens 0).bound, app.service.tasks.length + app.service.mainQueue.length,
        (app.screen.screens 0).uploads)) = some (true, 0, [("949", "Heat"), ("949", "Heat")]) := by
    decide +kernel
  have succeeds : (machine client).Along (RepliesSucceed 0) ⟨.empty, .start⟩ loadedBetween := by
    refine ⟨open_succeeds, answer_succeeds rfl rfl, trivial, ?_, answer_succeeds rfl rfl,
      answer_succeeds rfl rfl, answer_succeeds rfl rfl, answer_succeeds rfl rfl, trivial, trivial,
      trivial, trivial, trivial⟩
    intro screen requests acted request member _
    obtain ⟨-, -, -, rfl⟩ := act_viewDidLoad acted
    rcases List.mem_cons.mp member with rfl | later
    · decide +kernel
    · obtain rfl := List.mem_singleton.mp later
      decide +kernel
  obtain ⟨app, run, seen⟩ := Option.map_eq_some_iff.mp observed
  simp only [Prod.mk.injEq] at seen
  obtain ⟨loaded, settled, uploads⟩ := seen
  refine ⟨app, run, succeeds, loaded, settled, uploads, ?_⟩
  rintro ⟨_, _, _, _, _, _, once⟩
  rw [uploads] at once
  cases (List.cons.inj once).2

end MoviesApp.Details
