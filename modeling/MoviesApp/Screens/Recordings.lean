import Mathlib.Algebra.Group.Action.Defs
import Mathlib.Algebra.Order.BigOperators.Group.Finset
import MoviesApp.History.Bounds
import MoviesApp.Screens.UserHistory

/-! How much the details screens can record. Each cast reply records once at most, and a screen
asks for the cast when it is opened and once more when it is loaded; so a history holds at
most two entries for each screen that was opened. -/
namespace MoviesApp.Details
open NetworkService

def Screen.most (s : Screen) (opened : Bool) : Nat :=
  (if opened then 1 else 0) + if s.bound then 1 else 0

/-- The recordings made and those still to be made by a cast reply on its way. -/
structure Few (s : State) (service : NetworkService.State tmdb Completion) : Prop where
  bound : ∀ i, (s.screens i).bound = true → i < s.opened
  few : ∀ i, (s.screens i).uploads.length + service.outstanding (.cast i) ≤
    (s.screens i).most (decide (i < s.opened))

variable {s : State} {service : NetworkService.State tmdb Completion}

theorem Few.unopened (few : Few s service) {i : Nat} (unopened : s.opened ≤ i) :
    (s.screens i).uploads = [] ∧ (s.screens i).bound = false ∧ service.outstanding (.cast i) = 0 := by
  have free : (s.screens i).bound = false :=
    Bool.eq_false_iff.mpr fun bound => absurd (few.bound i bound) (Nat.not_lt.mpr unopened)
  have none := few.few i
  rw [Screen.most, free, decide_eq_false (Nat.not_lt.mpr unopened)] at none
  simp only [Bool.false_eq_true, if_false, Nat.add_zero, Nat.le_zero, Nat.add_eq_zero_iff,
    List.length_eq_zero_iff] at none
  exact ⟨none.1, free, none.2⟩

theorem Few.at_most_two (few : Few s service) (i : Nat) : (s.screens i).uploads.length ≤ 2 := by
  have bound := few.few i
  unfold Screen.most at bound
  split at bound <;> split at bound <;> omega

theorem opening_cast {i : Nat} {movieId : String} : (opening i movieId).countP (fun request =>
    request.completion = .cast i ∧ request.url.isSome) ≤ 1 := by
  simp only [opening, List.countP_cons, List.countP_nil, loadMovie_completion, loadCast_completion,
    loadReviews_completion, reduceCtorEq, false_and, decide_false, Bool.false_eq_true, if_false]
  split <;> omega

theorem load_cast {i : Nat} {s : Screen} : (load i s).countP (fun request =>
    request.completion = .cast i ∧ request.url.isSome) ≤ 1 := by
  unfold load
  split
  · exact Nat.zero_le _
  · simp only [List.countP_cons, List.countP_nil, loadCast_completion, loadReviews_completion,
      reduceCtorEq, false_and, decide_false, Bool.false_eq_true, if_false]
    split <;> omega

/-- A completion keeps a screen's observers, and records at most the one cast reply. -/
theorem complete_few (s : Screen) (completion : Completion) (value : Option tmdb.Any) :
    (s.complete completion value).bound = s.bound ∧
      (s.complete completion value).uploads.length ≤
        s.uploads.length + if completion = .cast completion.screen then 1 else 0 := by
  constructor
  · cases completion with
    | movie j | reviews j =>
      simp only [Screen.complete]
      split <;> rfl
    | cast j =>
      simp only [Screen.complete]
      split
      · split
        · exact castDidChange_bound _
        · rfl
      · rfl
  · obtain same | ⟨j, _, _, _, rfl, _, _, _, _, added⟩ :=
      UserHistory.complete_uploads s completion value
    · rw [same]
      exact Nat.le_add_right _ _
    · rw [added, List.length_append]
      exact Nat.le_of_eq (by simp only [Completion.screen, if_true, List.length_singleton])

theorem act_few {app next : App client} {a : Action} (few : Few app.screen app.service)
    (step : (machine client).step app (.act a) = some next) : Few next.screen next.service := by
  obtain ⟨screen, requests, acted, rfl⟩ := step_act step
  cases a with
  | «open» movieId =>
    cases acted
    refine ⟨fun i bound => Nat.lt_succ_of_lt (few.bound i bound), fun i => ?_⟩
    have before := few.few i
    rw [foldl_load_outstanding]
    by_cases own : i = app.screen.opened
    · subst own
      obtain ⟨uploads, -, idle⟩ := few.unopened (Nat.le_refl _)
      have count := @opening_cast app.screen.opened movieId
      simp only [uploads, idle, List.length_nil, Screen.most, Nat.lt_succ_self, decide_true,
        if_true]
      omega
    · have other : ∀ request ∈ opening app.screen.opened movieId, request.completion.screen ≠ i :=
        fun request member => (opening_screen request member).symm ▸ Ne.symm own
      have count := countP_zero_of_other other (.cast i) rfl
      have same : i < app.screen.opened + 1 ↔ i < app.screen.opened := by omega
      simp only [count, same, Nat.add_zero]
      exact before
  | viewDidLoad j =>
    obtain ⟨loadable, free, rfl, rfl⟩ := act_viewDidLoad acted
    refine ⟨fun i bound => ?_, fun i => ?_⟩
    · by_cases own : i = j
      · exact own ▸ loadable
      · simp only [Function.update_of_ne own] at bound
        exact few.bound i bound
    · have before := few.few i
      rw [foldl_load_outstanding]
      by_cases own : i = j
      · subst own
        have count := @load_cast i (app.screen.screens i)
        simp only [Screen.most, free, Bool.false_eq_true, if_false] at before
        simp only [Function.update_self, Screen.most, bind, if_true]
        omega
      · have other : ∀ request ∈ load j (app.screen.screens j), request.completion.screen ≠ i :=
          fun request member => (load_screen request member).symm ▸ Ne.symm own
        have count := countP_zero_of_other other (.cast i) rfl
        simp only [count, Function.update_of_ne own, Nat.add_zero]
        exact before

theorem runBlock_few {app next : App client} {id : Nat} (few : Few app.screen app.service)
    (step : (machine client).step app (.runBlock id) = some next) :
    Few next.screen next.service := by
  obtain ⟨block, mainQueue, taken, rfl⟩ := step_runBlock step
  let j := block.completion.screen
  let value : Option tmdb.Any := some block.value
  obtain ⟨kept, more⟩ := complete_few (app.screen.screens j) block.completion value
  have own := complete_own app.screen block.completion value
  have other {i : Nat} (different : i ≠ j) :
      (complete app.screen block.completion value).screens i = app.screen.screens i :=
    complete_other different
  have bound : ∀ i, ((complete app.screen block.completion value).screens i).bound =
      (app.screen.screens i).bound := by
    intro i
    by_cases same : i = j
    · rw [same, own, kept]
    · rw [other same]
  refine ⟨fun i here => few.bound i ((bound i).symm.trans here), fun i => ?_⟩
  have before := few.few i
  let after := NetworkService.runBlock { app.service with mainQueue := mainQueue } block
  have left : after.outstanding (Completion.cast i) +
      (if block.completion = Completion.cast i then 1 else 0) =
        app.service.outstanding (Completion.cast i) := runBlock_outstanding (Completion.cast i) taken
  change ((complete app.screen block.completion value).screens i).uploads.length +
    after.outstanding (Completion.cast i) ≤ ((complete app.screen block.completion value).screens i).most _
  rw [Screen.most, bound]
  refine Nat.le_trans ?_ before
  by_cases same : i = j
  · rw [same, own]
    rw [same] at left
    simp only [j] at left more ⊢
    omega
  · rw [other same]
    omega

theorem step_few {app next : App client} {e : Event client} (few : Few app.screen app.service)
    (step : (machine client).step app e = some next) : Few next.screen next.service := by
  cases e with
  | act a => exact act_few few step
  | respond id response =>
    obtain ⟨task, tasks, taken, rfl⟩ := step_respond step
    rw [respond_screen]
    refine ⟨few.bound, fun i => Nat.le_trans ?_ (few.few i)⟩
    exact Nat.add_le_add_left (respond_outstanding_le (.cast i) taken) _
  | runBlock id => exact runBlock_few few step

theorem start_few : Few .start (NetworkService.State.empty : NetworkService.State tmdb Completion) :=
  ⟨fun _ bound => (nomatch bound), fun _ => Nat.zero_le _⟩

end MoviesApp.Details

namespace MoviesApp.UserHistory
open NetworkService Firestore

/-- All that the details screens have recorded. -/
def recordings (s : Details.State) : Multiset (String × String) :=
  ∑ i ∈ Finset.range s.opened, ((s.screens i).uploads : Multiset (String × String))

theorem recordings_congr {s t : Details.State} (opened : t.opened = s.opened)
    (uploads : ∀ i, (t.screens i).uploads = (s.screens i).uploads) :
    recordings t = recordings s := by
  simp only [recordings, opened, uploads]

/-- The screen whose observer has recorded, among the others. -/
theorem recordings_more {s t : Details.State} {j : Nat} {more : List (String × String)}
    (opened : t.opened = s.opened) (here : j < s.opened)
    (own : (t.screens j).uploads = (s.screens j).uploads ++ more)
    (other : ∀ i ≠ j, (t.screens i).uploads = (s.screens i).uploads) :
    recordings t = recordings s + more := by
  have member : j ∈ Finset.range s.opened := Finset.mem_range.mpr here
  have rest : ∑ i ∈ (Finset.range s.opened).erase j,
      ((t.screens i).uploads : Multiset (String × String)) =
        ∑ i ∈ (Finset.range s.opened).erase j, ((s.screens i).uploads : Multiset (String × String)) :=
    Finset.sum_congr rfl fun i left => congrArg _ (other i (Finset.ne_of_mem_erase left))
  rw [recordings, recordings, opened, ← Finset.add_sum_erase _ _ member,
    ← Finset.add_sum_erase _ _ member, rest, own, ← Multiset.coe_add]
  ac_rfl

/-- The calls that an event makes are what its screen then has recorded. -/
theorem step_recordings {app next : App Details.client} {e : Event Details.client}
    (few : Details.Few app.screen app.service)
    (step : (NetworkService.machine Details.client).step app e = some next) :
    recordings next.screen = recordings app.screen + (uploads app e : Multiset _) := by
  cases e with
  | act a =>
    obtain ⟨screen, requests, acted, rfl⟩ := step_act step
    have none : uploads app (.act a) = [] := rfl
    rw [none, Multiset.coe_nil, add_zero]
    cases a with
    | «open» movieId =>
      cases acted
      obtain ⟨fresh, -, -⟩ := few.unopened (Nat.le_refl _)
      simp only [recordings, Finset.sum_range_succ, fresh, Multiset.coe_nil, add_zero]
    | viewDidLoad j =>
      obtain ⟨-, -, rfl, rfl⟩ := Details.act_viewDidLoad acted
      refine recordings_congr rfl fun i => ?_
      by_cases same : i = j
      · simp only [same, Function.update_self, Details.bind]
      · simp only [Function.update_of_ne same]
  | respond id response =>
    obtain ⟨task, tasks, -, rfl⟩ := step_respond step
    have none : uploads app (.respond id response) = [] := rfl
    rw [Details.respond_screen, none, Multiset.coe_nil, add_zero]
  | runBlock id =>
    obtain ⟨block, mainQueue, taken, rfl⟩ := step_runBlock step
    let j := block.completion.screen
    let value : Option tmdb.Any := some block.value
    have other : ∀ i ≠ j, ((Details.complete app.screen block.completion value).screens i).uploads =
        (app.screen.screens i).uploads :=
      fun i different => congrArg Details.Screen.uploads (Details.complete_other different)
    have own := congrArg Details.Screen.uploads
      (Details.complete_own app.screen block.completion value)
    have made : uploads app (.runBlock id) =
        ((app.screen.screens j).complete block.completion value).uploads.drop
          (app.screen.screens j).uploads.length := by
      simp only [uploads, Pool.take?_find taken, value, j]
    obtain same | ⟨i, movie, movieId, title, completion, bound, -, -, -, added⟩ :=
      complete_uploads (app.screen.screens j) block.completion value
    · rw [made, same, List.drop_length, Multiset.coe_nil, add_zero]
      refine recordings_congr rfl fun i => ?_
      by_cases mine : i = j
      · exact mine ▸ own.trans same
      · exact other i mine
    · rw [made, added, List.drop_left]
      exact recordings_more rfl (few.bound j bound) (own.trans added) other

/-- Each recording is one call at most; without a user it is none. -/
theorem foldl_upload_calls (history : History.State) (currentUser : Option Uid)
    (calls : List (String × String)) :
    (((calls.foldl (fun history call => History.upload history currentUser call.1 call.2)
      history).calls.map Prod.snd : List _) : Multiset (String × String)) ≤
        (history.calls.map Prod.snd : List _) + calls := by
  induction calls generalizing history with
  | nil => exact Multiset.le_add_right _ _
  | cons call rest ih =>
    refine le_trans (ih _) ?_
    cases currentUser with
    | none => exact add_le_add_right (Multiset.coe_le.mpr (List.sublist_cons_self ..).subperm) _
    | some uid =>
      have calls : ((History.upload history (some uid) call.1 call.2).calls.map Prod.snd) =
          history.calls.map Prod.snd ++ [call] := by
        simp only [History.upload, List.map_append, List.map_cons, List.map_nil]
      rw [calls, ← Multiset.coe_add, add_assoc, Multiset.coe_singleton, Multiset.singleton_add,
        Multiset.cons_coe]

/-- The history layer's bounds hold for the user, and its calls are recordings. -/
structure Recorded (uid : Uid) (s : State) : Prop where
  few : Details.Few s.details.screen s.details.service
  appending : History.Appending uid s.history
  bounded : ReadModifyWrite.AtMostOnce [] (History.view uid s.history)
  calls : ((s.history.calls.map Prod.snd : List _) : Multiset (String × String)) ≤
    recordings s.details.screen

theorem foldl_upload_bounded {uid : Uid} {history : History.State}
    (appending : History.Appending uid history)
    (bounded : ReadModifyWrite.AtMostOnce [] (History.view uid history)) (currentUser : Option Uid)
    (calls : List (String × String)) :
    let after := calls.foldl
      (fun history call => History.upload history currentUser call.1 call.2) history
    History.Appending uid after ∧ ReadModifyWrite.AtMostOnce [] (History.view uid after) := by
  induction calls generalizing history with
  | nil => exact ⟨appending, bounded⟩
  | cons call rest ih =>
    have lossy := History.upload_lossy appending currentUser call.1 call.2
    exact ih lossy.1 (lossy.bounded bounded)

theorem step_recorded {uid : Uid} {s t : State} {a : Action} (recorded : Recorded uid s)
    (step : machine.step s a = some t) : Recorded uid t := by
  obtain ⟨few, appending, bounded, calls⟩ := recorded
  cases a with
  | signIn | signOut =>
    cases Option.some.inj step
    exact ⟨few, appending, bounded, calls⟩
  | details e =>
    obtain ⟨details, stepped, rfl⟩ := Option.map_eq_some_iff.mp step
    obtain ⟨appending, bounded⟩ := foldl_upload_bounded appending bounded s.currentUser
      (uploads s.details e)
    refine ⟨Details.step_few few stepped, appending, bounded, ?_⟩
    rw [step_recordings few stepped]
    exact le_trans (foldl_upload_calls _ _ _) (add_le_add_left calls _)
  | backend a =>
    obtain ⟨history, stepped, same, rfl⟩ := step_backend step
    have lossy := History.step_lossy appending stepped
    exact ⟨few, lossy.1, lossy.bounded bounded, same.symm ▸ calls⟩

/-- In every run of the screens, the accounts and the backend, whatever the replies, the account
switches and the failures: a user's history stays readable; its entries, with those on their
way, are recordings of the details screens, each used once; and no screen records more
than twice, so there are at most two entries for each screen opened. -/
theorem history_of_recordings {acts : List Action} {s : State} (uid : Uid)
    (run : machine.run .start acts = some s) :
    let entries := History.entriesOf (s.history.users uid) ++ s.history.inFlight uid
    History.Legible (s.history.users uid) ∧
      (entries : Multiset (String × String)) ≤ recordings s.details.screen ∧
      (∀ i, (s.details.screen.screens i).uploads.length ≤ 2) ∧
      entries.length ≤ 2 * s.details.screen.opened := by
  have start : Recorded uid .start := by
    refine ⟨Details.start_few, ⟨nofun, List.forall_mem_nil _⟩, ⟨le_refl _, ?_⟩, le_refl _⟩
    exact fun p member => absurd member (Multiset.notMem_zero p)
  obtain ⟨few, appending, bounded, calls⟩ :=
    Transition.Machine.run_invariant step_recorded run start
  have recorded : ((History.entriesOf (s.history.users uid) ++ s.history.inFlight uid : List _) :
      Multiset (String × String)) ≤ recordings s.details.screen := by
    have held := bounded.list
    rw [History.underway_view, Multiset.coe_nil, zero_add] at held
    rw [← Multiset.coe_add]
    refine le_trans held (le_trans (Multiset.coe_le.mpr ?_) calls)
    exact (List.filter_sublist.map Prod.snd).subperm
  refine ⟨appending.legible, recorded, few.at_most_two, ?_⟩
  have total : (recordings s.details.screen).card ≤ 2 * s.details.screen.opened := by
    unfold recordings
    rw [Multiset.card_sum]
    refine le_trans (Finset.sum_le_card_nsmul _ _ 2 fun i _ => few.at_most_two i) ?_
    rw [Finset.card_range, smul_eq_mul, mul_comm]
  exact le_trans (Multiset.card_le_card recorded) total

/-- Ann opens one film and records it. -/
theorem history_of_recordings_watching : ∃ s, machine.run .start (watching "u") = some s ∧
    s.details.screen.opened = 1 ∧ History.entriesOf (s.history.users "u") = [("949", "Heat")] ∧
    (History.entriesOf (s.history.users "u") ++ s.history.inFlight "u").length ≤ 2 * 1 := by
  have observed : ((machine.run .start (watching "u")).map fun s =>
      (s.details.screen.opened, History.entriesOf (s.history.users "u"))) =
        some (1, [("949", "Heat")]) := by
    decide +kernel
  obtain ⟨s, run, seen⟩ := Option.map_eq_some_iff.mp observed
  obtain ⟨opened, entries⟩ := Prod.mk.inj seen
  obtain ⟨-, -, -, most⟩ := history_of_recordings "u" run
  exact ⟨s, run, opened, entries, opened ▸ most⟩

end MoviesApp.UserHistory
