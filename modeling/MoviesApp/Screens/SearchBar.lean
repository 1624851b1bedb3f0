import MoviesApp.Debounce
import MoviesApp.RunLoop
import MoviesApp.Screens.Search
import Mathlib.Algebra.Order.Ring.Rat

/-! The search bar with its timer, in time. Every change of the text invalidates the timer
of the change before and schedules another, whose block searches for the text it captured. -/
namespace MoviesApp.SearchVC
open Debounce RunLoop

/-- In seconds. -/
def timeInterval : ℚ := 1 / 2

/-- The run loop and the controller's `timer`, which stays when it has fired; every change
of the text and every argument of `findMovie` so far. -/
structure State where
  loop : Loop ℚ String
  timer : Option Nat
  changes : List (Change ℚ String)
  searches : List String

def State.start (now : ℚ) : State := ⟨.start now, none, [], []⟩

inductive Action where
  | textDidChange (searchText : String)
  | wait (time : ℚ)
  | fire (serial : Nat)

/-- The call `timer?.invalidate()`. -/
def invalidated (s : State) : Loop ℚ String :=
  match s.timer with
  | none => s.loop
  | some serial => s.loop.invalidate serial

def textDidChange (s : State) (searchText : String) : State := { s with
  loop := (invalidated s).scheduledTimer timeInterval searchText
  timer := some (invalidated s).scheduled
  changes := s.changes ++ [⟨s.loop.now, searchText⟩] }

/-- A timer that fires calls `findMovie`. Its reference to the controller is weak, but the
observer installed by `bind()` keeps the controller. -/
def step (s : State) : Action → Option State
  | .textDidChange searchText => some (textDidChange s searchText)
  | .wait time => (s.loop.wait time).map fun loop => { s with loop := loop }
  | .fire serial => (s.loop.fire serial).map fun (searchText, loop) => { s with
      loop := loop
      searches := s.searches ++ [searchText] }

def machine : Transition.Machine State Action := ⟨step⟩

/-- The one timer that is valid is the controller's, for the latest change. -/
structure Pending (s : State) (timer : RunLoop.Timer ℚ String) : Prop where
  only : s.loop.timers = [timer]
  own : s.timer = some timer.serial
  latest : ∃ change, s.changes.getLast? = some change ∧ timer.block = change.value ∧
    timer.fireDate = change.time + timeInterval

/-- At most one timer is valid, and the calls are those of a debouncer. -/
structure Inv (s : State) : Prop where
  punctual : Punctual s.loop
  pending : s.loop.timers = [] ∨ ∃ timer, Pending s timer
  calls : ∃ positions,
    Calls timeInterval s.loop.now s.changes s.loop.timers.isEmpty positions s.searches

variable {s t : State} {a : Action} {acts : List Action}

theorem start_inv (now : ℚ) : Inv (.start now) :=
  ⟨start_punctual now, Or.inl rfl, [], start_calls⟩

/-- No timer is left of the changes before. -/
theorem Inv.invalidated (inv : Inv s) : (invalidated s).timers = [] := by
  unfold SearchVC.invalidated
  rcases inv.pending with none | ⟨timer, pending⟩
  · cases s.timer with
    | none => exact none
    | some serial => simp only [Loop.invalidate, none, List.filter_nil]
  · rw [pending.own]
    simp only [Loop.invalidate, pending.only, List.filter_cons, bne_self_eq_false,
      Bool.false_eq_true, if_false, List.filter_nil]

theorem invalidated_now (s : State) : (invalidated s).now = s.loop.now := by
  unfold invalidated
  cases s.timer <;> rfl

/-- Until the latest change's interval is over its timer is valid. -/
theorem Inv.deadline (inv : Inv s) (waiting : s.loop.timers.isEmpty = false) :
    ∀ last ∈ s.changes.getLast?, s.loop.now ≤ last.time + timeInterval := by
  intro last found
  rcases inv.pending with none | ⟨timer, pending⟩
  · rw [none] at waiting
    contradiction
  · obtain ⟨change, latest, -, date⟩ := pending.latest
    cases Option.some.inj (latest.symm.trans found)
    rw [← date]
    exact inv.punctual timer (pending.only ▸ List.mem_cons_self)

theorem Inv.textDidChange (inv : Inv s) (searchText : String) : Inv (textDidChange s searchText) := by
  have timers : (SearchVC.textDidChange s searchText).loop.timers =
      [⟨(SearchVC.invalidated s).scheduled, s.loop.now + timeInterval, searchText⟩] := by
    simp only [SearchVC.textDidChange, Loop.scheduledTimer, inv.invalidated, invalidated_now,
      List.nil_append]
  refine ⟨?_, Or.inr ⟨_, timers, rfl, _, List.getLast?_concat, rfl, rfl⟩, ?_⟩
  · have before : Punctual (SearchVC.invalidated s) := by
      intro timer member
      rw [inv.invalidated] at member
      contradiction
    exact before.scheduledTimer (by decide +kernel) searchText
  · obtain ⟨positions, calls⟩ := inv.calls
    refine ⟨positions, ?_⟩
    have now : (SearchVC.textDidChange s searchText).loop.now = s.loop.now := invalidated_now s
    rw [timers, now]
    exact calls.changed inv.deadline searchText

theorem Inv.wait (inv : Inv s) {loop : Loop ℚ String} {time : ℚ}
    (waited : s.loop.wait time = some loop) : Inv { s with loop := loop } := by
  refine ⟨Punctual.wait waited, ?_, ?_⟩
  all_goals obtain ⟨later, -, rfl⟩ := wait_eq_some.mp waited
  · exact inv.pending.imp_right fun ⟨timer, pending⟩ =>
      ⟨timer, pending.only, pending.own, pending.latest⟩
  · obtain ⟨positions, calls⟩ := inv.calls
    exact ⟨positions, calls.waited later⟩

/-- Only the latest change's timer can fire, at the end of its interval. -/
theorem Inv.fire (inv : Inv s) {loop : Loop ℚ String} {serial : Nat} {searchText : String}
    (fired : s.loop.fire serial = some (searchText, loop)) :
    Inv { s with loop := loop, searches := s.searches ++ [searchText] } := by
  rcases inv.pending with none | ⟨timer, pending⟩
  · obtain ⟨timer, timers, taken, -⟩ := fire_cases fired
    rw [none] at taken
    contradiction
  · obtain ⟨change, latest, text, date⟩ := pending.latest
    obtain ⟨-, rfl, rfl⟩ := (fire_only pending.only).mp fired
    refine ⟨Punctual.fire fired, Or.inl rfl, ?_⟩
    obtain ⟨positions, calls⟩ := inv.calls
    have waiting : s.loop.timers.isEmpty = false := by rw [pending.only]; rfl
    rw [waiting] at calls
    refine ⟨positions ++ [s.changes.length - 1], ?_⟩
    rw [text, date]
    exact calls.fired latest (inv.deadline waiting change latest)

theorem step_inv (inv : Inv s) (step : machine.step s a = some t) : Inv t := by
  cases a with
  | textDidChange searchText =>
    cases Option.some.inj step
    exact inv.textDidChange searchText
  | wait time =>
    obtain ⟨loop, waited, rfl⟩ := Option.map_eq_some_iff.mp step
    exact inv.wait waited
  | fire serial =>
    obtain ⟨⟨searchText, loop⟩, fired, rfl⟩ := Option.map_eq_some_iff.mp step
    exact inv.fire fired

theorem run_inv {now : ℚ} (run : machine.run (.start now) acts = some s) : Inv s :=
  Transition.Machine.run_invariant step_inv run (start_inv now)

theorem Pending.fires {timer : RunLoop.Timer ℚ String} (pending : Pending s timer) :
    ∃ t, machine.run s [.fire timer.serial] = some t ∧ t.loop.timers = [] ∧
      t.loop.now = timer.fireDate ∧ t.changes = s.changes := by
  have fired : s.loop.fire timer.serial = some (timer.block,
      { s.loop with now := timer.fireDate, timers := [] }) :=
    (fire_only pending.only).mpr ⟨rfl, rfl, rfl⟩
  exact ⟨_, Transition.Machine.run_cons.mpr ⟨_, congrArg (Option.map _) fired, rfl⟩, rfl, rfl, rfl⟩

theorem run_wait {time : ℚ} (later : s.loop.now ≤ time)
    (before : ∀ timer ∈ s.loop.timers, time ≤ timer.fireDate) :
    machine.run s [.wait time] = some { s with loop := { s.loop with now := time } } := by
  have waited := wait_eq_some.mpr ⟨later, before, rfl⟩
  exact Transition.Machine.run_cons.mpr ⟨_, congrArg (Option.map _) waited, rfl⟩

/-- Time goes on to any later moment; the timer that is due before fires on the way. -/
theorem Inv.advance (inv : Inv s) {time : ℚ} (later : s.loop.now ≤ time) :
    ∃ acts t, machine.run s acts = some t ∧ t.loop.now = time ∧ t.changes = s.changes := by
  rcases inv.pending with none | ⟨timer, pending⟩
  · refine ⟨_, _, run_wait later ?_, rfl, rfl⟩
    rw [none]
    exact List.forall_mem_nil _
  · rcases le_total time timer.fireDate with before | after
    · refine ⟨_, _, run_wait later ?_, rfl, rfl⟩
      rw [pending.only]
      exact List.forall_mem_singleton.mpr before
    · obtain ⟨t, fires, none, date, changes⟩ := pending.fires
      rw [← date] at after
      refine ⟨[.fire timer.serial, .wait time], _,
        Transition.Machine.run_append.mpr ⟨t, fires, run_wait after ?_⟩, rfl, changes⟩
      rw [none]
      exact List.forall_mem_nil _

/-- However the changes are placed in time, the run with these changes exists, and settles. -/
theorem Inv.settles (inv : Inv s) {rest : List (Change ℚ String)}
    (ordered : rest.Pairwise fun earlier later => earlier.time ≤ later.time)
    (coming : ∀ change ∈ rest, s.loop.now ≤ change.time) :
    ∃ acts t, machine.run s acts = some t ∧ t.changes = s.changes ++ rest ∧ t.loop.timers = [] := by
  induction rest generalizing s with
  | nil =>
    rw [List.append_nil]
    rcases inv.pending with none | ⟨timer, pending⟩
    · exact ⟨[], s, rfl, rfl, none⟩
    · obtain ⟨t, fires, none, -, changes⟩ := pending.fires
      exact ⟨_, t, fires, changes, none⟩
  | cons change rest ih =>
    obtain ⟨following, ordered⟩ := List.pairwise_cons.mp ordered
    obtain ⟨first, -⟩ := List.forall_mem_cons.mp coming
    obtain ⟨before, t, reached, now, changes⟩ := inv.advance first
    have typed := (Transition.Machine.run_invariant step_inv reached inv).textDidChange change.value
    have sameTime : (SearchVC.textDidChange t change.value).loop.now = change.time :=
      (invalidated_now t).trans now
    obtain ⟨after, u, finished, recorded, none⟩ :=
      ih typed ordered fun later member => sameTime.le.trans (following later member)
    refine ⟨before ++ .textDidChange change.value :: after, u, ?_, ?_, none⟩
    · exact Transition.Machine.run_append.mpr
        ⟨t, reached, Transition.Machine.run_cons.mpr ⟨_, rfl, finished⟩⟩
    · rw [recorded, SearchVC.textDidChange, changes, now, List.append_assoc]
      rfl

/-- For every sequence of changes of the text in time there is a run that settles, and in
every run with these changes, at every moment, at most one timer is valid, for the latest
change, and the searches are those of a debouncer. -/
theorem debounced {now : ℚ} {changes : List (Change ℚ String)}
    (ordered : changes.Pairwise fun earlier later => earlier.time ≤ later.time)
    (coming : ∀ change ∈ changes, now ≤ change.time) :
    (∃ acts s, machine.run (.start now) acts = some s ∧ s.changes = changes ∧ s.loop.timers = []) ∧
    ∀ acts s, machine.run (.start now) acts = some s → s.changes = changes →
      (s.loop.timers = [] ∨ ∃ timer, Pending s timer) ∧
      ∃ positions, Calls timeInterval s.loop.now changes s.loop.timers.isEmpty positions s.searches := by
  refine ⟨(start_inv now).settles ordered coming, ?_⟩
  rintro acts s run rfl
  have inv := run_inv run
  exact ⟨inv.pending, inv.calls⟩

/-- Two letters in a quarter of a second, and the rest of the word after the first search. -/
def typed : List (Change ℚ String) := [⟨0, "h"⟩, ⟨1 / 4, "he"⟩, ⟨1, "heat"⟩]

def typing : List Action :=
  [.textDidChange "h", .wait (1 / 4), .textDidChange "he", .fire 1, .wait 1, .textDidChange "heat",
    .fire 2]

theorem debounced_typing : ∃ s, machine.run (.start 0) typing = some s ∧
    s.searches = ["he", "heat"] ∧ s.loop.timers = [] ∧
    ∃ positions, Calls timeInterval s.loop.now typed true positions s.searches := by
  have observed : (machine.run (.start 0) typing).map
      (fun s => (s.searches, s.loop.timers, s.changes)) = some (["he", "heat"], [], typed) := by
    decide +kernel
  obtain ⟨s, run, seen⟩ := Option.map_eq_some_iff.mp observed
  simp only [Prod.mk.injEq] at seen
  obtain ⟨searches, none, changes⟩ := seen
  refine ⟨s, run, searches, none, ?_⟩
  obtain ⟨-, each⟩ := @debounced 0 typed (by decide +kernel) (by decide +kernel)
  obtain ⟨-, positions, calls⟩ := each typing s run changes
  rw [none] at calls
  exact ⟨positions, calls⟩

/-! Without the time this is the search screen: it has the one timer's text, if it is valid. -/

def screen : Transition.Machine Search.State Search.Action :=
  ⟨fun s a => (Search.act s a).map Prod.fst⟩

structure Untimed (s : State) (u : Search.State) : Prop where
  inv : Inv s
  timer : u.timer = s.loop.timers.head?.map RunLoop.Timer.block
  searches : u.searches = s.searches

theorem findMovie_searches (s : Search.State) (searchPhrase : String) :
    (Search.findMovie s searchPhrase).1.timer = s.timer ∧
      (Search.findMovie s searchPhrase).1.searches = s.searches ++ [searchPhrase] := by
  unfold Search.findMovie
  split <;> exact ⟨rfl, rfl⟩

theorem step_untimed {u : Search.State} (related : Untimed s u) (step : machine.step s a = some t) :
    ∃ answer v, screen.run u answer = some v ∧ Untimed t v := by
  have inv := step_inv related.inv step
  cases a with
  | textDidChange searchText =>
    cases Option.some.inj step
    refine ⟨[.textDidChange searchText], _, rfl, inv, ?_, related.searches⟩
    rw [textDidChange, Loop.scheduledTimer, related.inv.invalidated]
    rfl
  | wait time =>
    obtain ⟨loop, waited, rfl⟩ := Option.map_eq_some_iff.mp step
    obtain ⟨-, -, rfl⟩ := wait_eq_some.mp waited
    exact ⟨[], u, rfl, inv, related.timer, related.searches⟩
  | fire serial =>
    obtain ⟨⟨searchText, loop⟩, fired, rfl⟩ := Option.map_eq_some_iff.mp step
    rcases related.inv.pending with none | ⟨timer, pending⟩
    · obtain ⟨timer, timers, taken, -⟩ := fire_cases fired
      rw [none] at taken
      contradiction
    · obtain ⟨-, rfl, rfl⟩ := (fire_only pending.only).mp fired
      have carried : u.timer = some timer.block := by
        rw [related.timer, pending.only]
        rfl
      obtain ⟨kept, added⟩ := findMovie_searches { u with timer := none } timer.block
      refine ⟨[.timerFires], (Search.findMovie { u with timer := none } timer.block).1, ?_, inv,
        kept, added.trans (congrArg (· ++ _) related.searches)⟩
      refine Transition.Machine.run_cons.mpr ⟨_, ?_, rfl⟩
      simp only [screen, Search.act, carried, Option.map_some]

/-- Every run in time is, without the time, a run of the search screen with the same searches. -/
theorem run_untimed {now : ℚ} (run : machine.run (.start now) acts = some s) :
    ∃ answer v, screen.run .start answer = some v ∧ Untimed s v := by
  have always : machine.Along (fun _ _ => True) (.start now) acts :=
    Transition.Machine.along_of_forall fun _ _ _ => trivial
  have initial : Untimed (.start now) .start := ⟨start_inv now, rfl, rfl⟩
  have simulated : ∃ answer v, screen.run .start answer = some v ∧
      screen.Along (fun _ _ => True) .start answer ∧ Untimed s v := by
    refine Transition.Machine.run_simulation ?_ run always initial
    intro s a t u related _ step
    obtain ⟨answer, v, reached, next⟩ := step_untimed related step
    exact ⟨answer, v, reached, Transition.Machine.along_of_forall fun _ _ _ => trivial, next⟩
  obtain ⟨answer, v, reached, -, related⟩ := simulated
  exact ⟨answer, v, reached, related⟩

end MoviesApp.SearchVC
