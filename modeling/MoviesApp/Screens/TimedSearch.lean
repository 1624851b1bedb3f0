import Mathlib.Tactic.Linarith
import MoviesApp.Screens.SearchBar
import MoviesApp.Services.Outstanding

/-! The search bar, its timer and the search screen on one clock. Searches are half a second
apart; so if no reply takes as long as that, none is overtaken, and the list is always that of
the latest search. -/
namespace MoviesApp.TimedSearch
open NetworkService RunLoop

/-- The bar with its timer, the search screen with its requests, and when each search was made. -/
structure State where
  bar : SearchVC.State
  app : App Search.client
  asked : List ℚ

def State.start (now : ℚ) : State := ⟨.start now, ⟨.empty, .start⟩, []⟩

inductive Action where
  | textDidChange (searchText : String)
  | wait (time : ℚ)
  | fire (serial : Nat)
  | respond (id : Nat) (response : Response tmdb)
  | runBlock (id : Nat)

/-- One step of the controller, in the bar and on the screen. -/
def controller (s : State) (a : SearchVC.Action) (b : Search.Action) : Option State :=
  (SearchVC.machine.step s.bar a).bind fun bar =>
    ((NetworkService.machine Search.client).step s.app (.act b)).map fun app =>
      { s with bar := bar, app := app }

def step (s : State) : Action → Option State
  | .textDidChange searchText => controller s (.textDidChange searchText) (.textDidChange searchText)
  | .wait time => (SearchVC.machine.step s.bar (.wait time)).map fun bar => { s with bar := bar }
  | .fire serial => (controller s (.fire serial) .timerFires).map fun t =>
      { t with asked := s.asked ++ [t.bar.loop.now] }
  | .respond id response =>
    ((NetworkService.machine Search.client).step s.app (.respond id response)).map fun app =>
      { s with app := app }
  | .runBlock id => ((NetworkService.machine Search.client).step s.app (.runBlock id)).map fun app =>
      { s with app := app }

def machine : Transition.Machine State Action := ⟨step⟩

/-- At this time every request under way is younger than the timer's interval. -/
def Early (s : State) (time : ℚ) : Prop :=
  ∀ k, 0 < s.app.service.outstanding k → ∀ asked, s.asked[k]? = some asked →
    time < asked + SearchVC.timeInterval

/-- As time passes, no request is left without its reply for half a second. -/
def Prompt (s : State) : Action → Prop
  | .wait time => Early s time
  | .fire serial => ∀ timer ∈ s.bar.loop.timers, timer.serial = serial → Early s timer.fireDate
  | .textDidChange _ | .respond _ _ | .runBlock _ => True

/-- The bar and the screen agree, and the searches keep their distance. -/
structure Inv (start : ℚ) (s : State) : Prop where
  untimed : SearchVC.Untimed s.bar s.app.screen
  numbered : Search.Numbered s.app
  length : s.asked.length = s.app.screen.searches.length
  past : ∀ asked ∈ s.asked, asked ≤ s.bar.loop.now
  coming : ∀ timer ∈ s.bar.loop.timers, ∀ asked ∈ s.asked,
    asked + SearchVC.timeInterval ≤ timer.fireDate
  apart : s.asked.Pairwise fun earlier later => earlier + SearchVC.timeInterval ≤ later
  elapsed : start + s.asked.length * SearchVC.timeInterval ≤ s.bar.loop.now
  due : ∀ timer ∈ s.bar.loop.timers,
    start + (s.asked.length + 1) * SearchVC.timeInterval ≤ timer.fireDate

variable {start : ℚ} {s t : State} {a : Action}

theorem controller_eq_some {a : SearchVC.Action} {b : Search.Action}
    (stepped : controller s a b = some t) :
    ∃ bar app, SearchVC.machine.step s.bar a = some bar ∧
      (NetworkService.machine Search.client).step s.app (.act b) = some app ∧
      t = { s with bar := bar, app := app } := by
  obtain ⟨bar, first, rest⟩ := Option.bind_eq_some_iff.mp stepped
  obtain ⟨app, second, rfl⟩ := Option.map_eq_some_iff.mp rest
  exact ⟨bar, app, first, second, rfl⟩

theorem start_inv (now : ℚ) : Inv now (.start now) where
  untimed := ⟨SearchVC.start_inv now, rfl, rfl⟩
  numbered := ⟨start_accounted _, List.nodup_nil, List.forall_mem_nil _⟩
  length := rfl
  past := List.forall_mem_nil _
  coming := List.forall_mem_nil _
  apart := List.Pairwise.nil
  elapsed := by
    change now + (0 : ℕ) * SearchVC.timeInterval ≤ now
    simp
  due := List.forall_mem_nil _

/-- The timer of a change comes half a second after all searches so far. -/
theorem Inv.textDidChange (inv : Inv start s) (searchText : String)
    (stepped : controller s (.textDidChange searchText) (.textDidChange searchText) = some t) :
    Inv start t := by
  obtain ⟨bar, app, typed, changed, rfl⟩ := controller_eq_some stepped
  have numbered := Search.step_numbered inv.numbered changed
  obtain ⟨screen, requests, acted, rfl⟩ := step_act changed
  cases acted
  have barInv := SearchVC.step_inv inv.untimed.inv typed
  cases Option.some.inj typed
  have timers : (SearchVC.textDidChange s.bar searchText).loop.timers =
      [⟨(SearchVC.invalidated s.bar).scheduled, s.bar.loop.now + SearchVC.timeInterval,
        searchText⟩] := by
    simp only [SearchVC.textDidChange, Loop.scheduledTimer, inv.untimed.inv.invalidated,
      SearchVC.invalidated_now, List.nil_append]
  have now : (SearchVC.textDidChange s.bar searchText).loop.now = s.bar.loop.now :=
    SearchVC.invalidated_now s.bar
  refine ⟨⟨barInv, ?_, inv.untimed.searches⟩, numbered, inv.length, ?_, ?_, inv.apart, ?_, ?_⟩
  · rw [timers]
    rfl
  · rw [now]
    exact inv.past
  · rw [timers]
    exact List.forall_mem_singleton.mpr fun asked member =>
      add_le_add_left (inv.past asked member) _
  · rw [now]
    exact inv.elapsed
  · rw [timers]
    refine List.forall_mem_singleton.mpr ?_
    have elapsed := inv.elapsed
    change start + (s.asked.length + 1) * SearchVC.timeInterval ≤
      s.bar.loop.now + SearchVC.timeInterval
    linarith

theorem Inv.wait (inv : Inv start s) {time : ℚ} {bar : SearchVC.State}
    (waited : SearchVC.machine.step s.bar (.wait time) = some bar) :
    Inv start { s with bar := bar } := by
  have barInv := SearchVC.step_inv inv.untimed.inv waited
  obtain ⟨loop, passed, rfl⟩ := Option.map_eq_some_iff.mp waited
  obtain ⟨later, -, rfl⟩ := wait_eq_some.mp passed
  exact ⟨⟨barInv, inv.untimed.timer, inv.untimed.searches⟩, inv.numbered, inv.length,
    fun asked member => (inv.past asked member).trans later, inv.coming, inv.apart,
    inv.elapsed.trans later, inv.due⟩

/-- What a search adds: it comes half a second after the last, and its number is the next. -/
theorem controller_fire (inv : Inv start s) {serial : Nat}
    (stepped : controller s (.fire serial) .timerFires = some t) :
    ∃ timer, s.bar.loop.timers = [timer] ∧ timer.serial = serial ∧ t.bar.loop.timers = [] ∧
      t.bar.loop.now = timer.fireDate ∧ t.bar.searches = s.bar.searches ++ [timer.block] ∧
      ∃ requests, Search.findMovie { s.app.screen with timer := none } timer.block =
        (t.app.screen, requests) ∧ t.app.service = requests.foldl load s.app.service := by
  obtain ⟨bar, app, fired, searched, rfl⟩ := controller_eq_some stepped
  obtain ⟨⟨searchText, loop⟩, fires, rfl⟩ := Option.map_eq_some_iff.mp fired
  rcases inv.untimed.inv.pending with none | ⟨timer, pending⟩
  · obtain ⟨timer, timers, taken, -⟩ := fire_cases fires
    rw [none] at taken
    contradiction
  · obtain ⟨same, rfl, rfl⟩ := (fire_only pending.only).mp fires
    obtain ⟨screen, requests, acted, rfl⟩ := step_act searched
    have carried : s.app.screen.timer = some timer.block := by
      rw [inv.untimed.timer, pending.only]
      rfl
    obtain ⟨text, found, made⟩ := Option.map_eq_some_iff.mp acted
    obtain rfl := Option.some.inj (carried.symm.trans found)
    exact ⟨timer, pending.only, same, rfl, rfl, rfl, requests, made, rfl⟩

theorem Inv.fire (inv : Inv start s) {serial : Nat}
    (stepped : controller s (.fire serial) .timerFires = some t) :
    Inv start { t with asked := s.asked ++ [t.bar.loop.now] } := by
  obtain ⟨timer, only, -, left, now, barSearches, requests, made, -⟩ :=
    controller_fire inv stepped
  obtain ⟨bar, app, fired, searched, rfl⟩ := controller_eq_some stepped
  have barInv := SearchVC.step_inv inv.untimed.inv fired
  have numbered := Search.step_numbered inv.numbered searched
  obtain ⟨kept, added⟩ := SearchVC.findMovie_searches { s.app.screen with timer := none } timer.block
  rw [made] at kept added
  have member : timer ∈ s.bar.loop.timers := only ▸ List.mem_cons_self
  dsimp only at left now barSearches kept added
  refine ⟨⟨barInv, ?_, ?_⟩, numbered, ?_, ?_, ?_, ?_, ?_, ?_⟩
  · rw [left]
    exact kept
  · rw [added, barSearches, inv.untimed.searches]
  · rw [added, List.length_append, List.length_append, inv.length]
    rfl
  · refine Pool.forall_snoc (fun asked earlier => ?_) le_rfl
    rw [now]
    have half : (0 : ℚ) ≤ SearchVC.timeInterval := by decide +kernel
    exact (le_add_of_nonneg_right half).trans (inv.coming timer member asked earlier)
  · rw [left]
    exact List.forall_mem_nil _
  · refine List.pairwise_append.mpr ⟨inv.apart, List.pairwise_singleton _ _, ?_⟩
    intro asked earlier later new
    rw [List.mem_singleton.mp new, now]
    exact inv.coming timer member asked earlier
  · have due := inv.due timer member
    rw [List.length_append, List.length_singleton, now]
    push_cast
    exact due
  · rw [left]
    exact List.forall_mem_nil _

theorem complete_timer (screen : Search.State) (completion : Nat) (value : Option tmdb.Any) :
    (Search.complete screen completion value).timer = screen.timer := by
  unfold Search.complete
  split <;> rfl

/-- The service's own steps take no time and search for nothing. -/
theorem Inv.served (inv : Inv start s) {app : App Search.client} {e : Event Search.client}
    (stepped : (NetworkService.machine Search.client).step s.app e = some app)
    (timer : app.screen.timer = s.app.screen.timer)
    (searches : app.screen.searches = s.app.screen.searches) : Inv start { s with app := app } :=
  ⟨⟨inv.untimed.inv, timer.trans inv.untimed.timer, searches.trans inv.untimed.searches⟩,
    Search.step_numbered inv.numbered stepped,
    inv.length.trans (congrArg List.length searches.symm), inv.past, inv.coming, inv.apart,
    inv.elapsed, inv.due⟩

theorem step_inv (inv : Inv start s) (step : machine.step s a = some t) : Inv start t := by
  cases a with
  | textDidChange searchText => exact inv.textDidChange searchText step
  | wait time =>
    obtain ⟨bar, waited, rfl⟩ := Option.map_eq_some_iff.mp step
    exact inv.wait waited
  | fire serial =>
    obtain ⟨u, stepped, rfl⟩ := Option.map_eq_some_iff.mp step
    exact inv.fire stepped
  | respond id response =>
    obtain ⟨app, responded, rfl⟩ := Option.map_eq_some_iff.mp step
    have screen : app.screen = s.app.screen := by
      obtain ⟨task, tasks, -, rfl⟩ := step_respond responded
      exact Search.respond_screen s.app task tasks response
    exact inv.served responded (congrArg _ screen) (congrArg _ screen)
  | runBlock id =>
    obtain ⟨app, ran, rfl⟩ := Option.map_eq_some_iff.mp step
    obtain ⟨block, mainQueue, -, rfl⟩ := step_runBlock ran
    let value : Option tmdb.Any := some block.value
    exact inv.served ran (complete_timer s.app.screen block.completion value)
      (Search.complete_searches s.app.screen block.completion value)

/-- Only the latest search is under way. -/
def Current (s : State) : Prop :=
  ∀ k, 0 < s.app.service.outstanding k → Search.Latest s.app k

theorem load_request (service : NetworkService.State tmdb Nat) {requests : List (Request tmdb Nat)}
    {k : Nat} (waiting : 0 < (requests.foldl load service).outstanding k) :
    0 < service.outstanding k ∨ ∃ request ∈ requests, request.completion = k := by
  rw [foldl_load_outstanding] at waiting
  rcases Nat.eq_zero_or_pos (service.outstanding k) with idle | before
  · rw [idle, Nat.zero_add] at waiting
    obtain ⟨request, member, made⟩ := List.countP_pos_iff.mp waiting
    exact Or.inr ⟨request, member, (of_decide_eq_true made).1⟩
  · exact Or.inl before

theorem findMovie_requests {screen next : Search.State} {searchText : String}
    {requests : List (Request tmdb Nat)}
    (made : Search.findMovie screen searchText = (next, requests)) :
    ∀ request ∈ requests, request.completion = screen.searches.length := by
  unfold Search.findMovie at made
  split at made
  · cases made
    exact List.forall_mem_singleton.mpr rfl
  · cases made
    exact List.forall_mem_nil _

/-- When a search is made, none is under way any more. -/
theorem Current.fire (current : Current s) (inv : Inv start s) {serial : Nat}
    (prompt : Prompt s (.fire serial)) (stepped : controller s (.fire serial) .timerFires = some t) :
    Current { t with asked := s.asked ++ [t.bar.loop.now] } := by
  obtain ⟨timer, only, same, -, -, -, requests, made, service⟩ := controller_fire inv stepped
  have member : timer ∈ s.bar.loop.timers := only ▸ List.mem_cons_self
  obtain ⟨-, added⟩ := SearchVC.findMovie_searches { s.app.screen with timer := none } timer.block
  rw [made] at added
  intro k waiting
  have waiting : 0 < t.app.service.outstanding k := waiting
  rw [service] at waiting
  rcases load_request s.app.service waiting with earlier | ⟨request, listed, named⟩
  · have latest := current k earlier
    have bound : k < s.asked.length := by
      rw [inv.length]
      exact latest ▸ Nat.lt_succ_self k
    have date := inv.coming timer member s.asked[k] (List.getElem_mem bound)
    have early := prompt timer member same k earlier s.asked[k] (List.getElem?_eq_getElem bound)
    exact absurd date (not_le.mpr early)
  · have number := findMovie_requests made request listed
    change k + 1 = t.app.screen.searches.length
    rw [added, List.length_append, ← named, number]
    rfl

theorem step_current (current : Current s) (inv : Inv start s) (prompt : Prompt s a)
    (step : machine.step s a = some t) : Current t := by
  cases a with
  | textDidChange searchText =>
    have stepped : controller s (.textDidChange searchText) (.textDidChange searchText) = some t :=
      step
    obtain ⟨bar, app, -, changed, rfl⟩ := controller_eq_some stepped
    obtain ⟨screen, requests, acted, rfl⟩ := step_act changed
    cases acted
    exact current
  | wait time =>
    obtain ⟨bar, -, rfl⟩ := Option.map_eq_some_iff.mp step
    exact current
  | fire serial =>
    obtain ⟨u, stepped, rfl⟩ := Option.map_eq_some_iff.mp step
    exact current.fire inv prompt stepped
  | respond id response =>
    obtain ⟨app, responded, rfl⟩ := Option.map_eq_some_iff.mp step
    obtain ⟨task, tasks, taken, rfl⟩ := step_respond responded
    intro k waiting
    rw [Search.Latest, Search.respond_screen]
    exact current k (Nat.lt_of_lt_of_le waiting (respond_outstanding_le k taken))
  | runBlock id =>
    obtain ⟨app, ran, rfl⟩ := Option.map_eq_some_iff.mp step
    obtain ⟨block, mainQueue, taken, rfl⟩ := step_runBlock ran
    intro k waiting
    have left := runBlock_outstanding k taken
    have searches : (s.app.runBlock block mainQueue).screen.searches = s.app.screen.searches :=
      Search.complete_searches s.app.screen block.completion (some block.value)
    rw [Search.Latest, searches]
    exact current k (by rw [← left]; exact Nat.lt_of_lt_of_le waiting (Nat.le_add_right _ _))

/-- A reply that runs is that of the latest search. -/
theorem Current.notOvertaken (current : Current s) (id : Nat) :
    Search.NotOvertaken s.app (.runBlock id) := by
  intro block found
  have queued : 0 < s.app.service.mainQueue.countP (·.completion = block.completion) :=
    List.countP_pos_iff.mpr ⟨block, List.mem_of_find?_eq_some found, decide_eq_true rfl⟩
  exact Or.inl (current block.completion (Nat.lt_of_lt_of_le queued (Nat.le_add_left _ _)))

theorem step_shows (current : Current s) (inv : Inv start s) (shows : Search.ShowsLatest s.app)
    (step : machine.step s a = some t) : Search.ShowsLatest t.app := by
  cases a with
  | textDidChange searchText =>
    have stepped : controller s (.textDidChange searchText) (.textDidChange searchText) = some t :=
      step
    obtain ⟨bar, app, -, changed, rfl⟩ := controller_eq_some stepped
    have inOrder : Search.NotOvertaken s.app (.act (.textDidChange searchText)) := trivial
    exact Search.step_shows inv.numbered shows inOrder changed
  | wait time =>
    obtain ⟨bar, -, rfl⟩ := Option.map_eq_some_iff.mp step
    exact shows
  | fire serial =>
    obtain ⟨u, stepped, rfl⟩ := Option.map_eq_some_iff.mp step
    obtain ⟨bar, app, -, searched, rfl⟩ := controller_eq_some stepped
    have inOrder : Search.NotOvertaken s.app (.act .timerFires) := trivial
    exact Search.step_shows inv.numbered shows inOrder searched
  | respond id response =>
    obtain ⟨app, responded, rfl⟩ := Option.map_eq_some_iff.mp step
    have inOrder : Search.NotOvertaken s.app (.respond id response) := trivial
    exact Search.step_shows inv.numbered shows inOrder responded
  | runBlock id =>
    obtain ⟨app, ran, rfl⟩ := Option.map_eq_some_iff.mp step
    exact Search.step_shows inv.numbered shows (current.notOvertaken id) ran

variable {acts : List Action} {now : ℚ}

/-- One search is half a second after the other, so in any time the app makes at most two
requests a second, however the text changes. -/
theorem searches_limited (run : machine.run (.start now) acts = some s) :
    s.asked.length = s.app.screen.searches.length ∧
      (s.asked.Pairwise fun earlier later => earlier + SearchVC.timeInterval ≤ later) ∧
      s.app.service.calls.length * SearchVC.timeInterval ≤ s.bar.loop.now - now := by
  have inv := Transition.Machine.run_invariant step_inv run (start_inv now)
  have numbers : s.app.service.calls.map Request.completion ⊆
      List.range s.app.screen.searches.length := by
    intro k member
    obtain ⟨request, listed, rfl⟩ := List.mem_map.mp member
    exact List.mem_range.mpr (inv.numbered.fresh request listed)
  have most := (List.subperm_of_subset inv.numbered.unique numbers).length_le
  rw [List.length_map, List.length_range, ← inv.length] at most
  refine ⟨inv.length, inv.apart, ?_⟩
  have calls : (s.app.service.calls.length : ℚ) ≤ s.asked.length := Nat.cast_le.mpr most
  have half : (0 : ℚ) ≤ SearchVC.timeInterval := by decide +kernel
  have fewer := mul_le_mul_of_nonneg_right calls half
  have elapsed := inv.elapsed
  linarith

/-- If no request is left without its reply for half a second, then at every moment only the
latest search is under way, and the list is that of the latest search. -/
theorem prompt_shows_latest (run : machine.run (.start now) acts = some s)
    (prompt : machine.Along Prompt (.start now) acts) :
    Search.ShowsLatest s.app ∧ ∀ k, 0 < s.app.service.outstanding k → Search.Latest s.app k := by
  have shows : Search.ShowsLatest (State.start now).app :=
    ⟨fun some => absurd some (Option.some_ne_none "").symm, List.forall_mem_nil _⟩
  have start : Inv now (.start now) ∧ Current (.start now) ∧ Search.ShowsLatest (State.start now).app :=
    ⟨start_inv now, fun _ waiting => absurd waiting (Nat.lt_irrefl 0), shows⟩
  have steps : ∀ {s : State} {a : Action} {t : State},
      (Inv now s ∧ Current s ∧ Search.ShowsLatest s.app) → Prompt s a → machine.step s a = some t →
        Inv now t ∧ Current t ∧ Search.ShowsLatest t.app := by
    rintro s a t ⟨inv, current, shows⟩ prompt step
    exact ⟨step_inv inv step, step_current current inv prompt step, step_shows current inv shows step⟩
  obtain ⟨-, current, shows⟩ := Transition.Machine.run_invariant_along steps run prompt start
  exact ⟨shows, current⟩

instance (s : State) (time : ℚ) : Decidable (Early s time) :=
  decidable_of_iff (∀ (k : ℕ) (listed : k < s.asked.length), 0 < s.app.service.outstanding k →
      time < s.asked[k] + SearchVC.timeInterval) <| by
    constructor
    · intro early k waiting asked found
      obtain ⟨listed, rfl⟩ := List.getElem?_eq_some_iff.mp found
      exact early k listed waiting
    · intro early k listed waiting
      exact early k waiting s.asked[k] (List.getElem?_eq_getElem listed)

instance (s : State) : (a : Action) → Decidable (Prompt s a)
  | .wait time => inferInstanceAs (Decidable (Early s time))
  | .fire serial => inferInstanceAs (Decidable
      (∀ timer ∈ s.bar.loop.timers, timer.serial = serial → Early s timer.fireDate))
  | .textDidChange _ | .respond _ _ | .runBlock _ => .isTrue trivial

/-- A word in two pieces, its reply after a quarter of a second and its delivery a little later,
and the field is cleared. -/
def typing : List Action :=
  [.textDidChange "He", .wait (1 / 4), .textDidChange "Heat", .fire 1, .wait 1,
    .respond 0 (.data Search.heat), .wait (11 / 10), .runBlock 0, .textDidChange "", .fire 2]

theorem typing_observed : ∃ s, machine.run (.start 0) typing = some s ∧
    s.app.screen.searches = ["Heat", ""] ∧ s.bar.loop.now = 8 / 5 ∧
    s.app.service.calls.length = 1 := by
  have observed : (machine.run (.start 0) typing).map (fun s =>
      (s.app.screen.searches, s.bar.loop.now, s.app.service.calls.length)) =
        some (["Heat", ""], 8 / 5, 1) := by
    decide +kernel
  obtain ⟨s, run, seen⟩ := Option.map_eq_some_iff.mp observed
  simp only [Prod.mk.injEq] at seen
  exact ⟨s, run, seen⟩

theorem searches_limited_typing : ∃ s, machine.run (.start 0) typing = some s ∧
    s.app.screen.searches = ["Heat", ""] ∧
    (s.asked.Pairwise fun earlier later => earlier + SearchVC.timeInterval ≤ later) := by
  obtain ⟨s, run, searches, -⟩ := typing_observed
  exact ⟨s, run, searches, (searches_limited run).2.1⟩

theorem prompt_shows_latest_typing : ∃ s, machine.run (.start 0) typing = some s ∧
    s.app.screen.searches = ["Heat", ""] ∧ s.app.screen.movies = [] := by
  obtain ⟨s, run, searches, -⟩ := typing_observed
  have prompt : machine.Along Prompt (.start 0) typing := by decide +kernel
  obtain ⟨shows, -⟩ := prompt_shows_latest run prompt
  exact ⟨s, run, searches, shows.cleared (by rw [searches]; rfl)⟩

end MoviesApp.TimedSearch
