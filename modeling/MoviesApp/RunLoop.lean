import Mathlib.Algebra.Order.Monoid.Unbundled.Basic
import MoviesApp.Pool

/-! Timers of a run loop. A timer that is scheduled fires once, at its date, unless it is
invalidated before: time never passes the date of a valid timer. What happens at one
moment may happen in any order. -/
namespace RunLoop

structure Timer (Time Block : Type) where
  serial : Nat
  fireDate : Time
  block : Block
  deriving DecidableEq

/-- The valid timers, and the number of timers scheduled so far. -/
structure Loop (Time Block : Type) where
  now : Time
  timers : List (Timer Time Block)
  scheduled : Nat

variable {Time Block : Type}

def Loop.start (now : Time) : Loop Time Block := ⟨now, [], 0⟩

/-- The timer's identifier is `loop.scheduled`. -/
def Loop.scheduledTimer [Add Time] (loop : Loop Time Block) (interval : Time) (block : Block) :
    Loop Time Block :=
  { loop with
    timers := loop.timers ++ [⟨loop.scheduled, loop.now + interval, block⟩]
    scheduled := loop.scheduled + 1 }

/-- Nothing happens to a timer that has fired. -/
def Loop.invalidate (loop : Loop Time Block) (serial : Nat) : Loop Time Block :=
  { loop with timers := loop.timers.filter (·.serial != serial) }

section order
variable [LinearOrder Time]

/-- Time passes, but no timer's date. -/
def Loop.wait (loop : Loop Time Block) (time : Time) : Option (Loop Time Block) :=
  if loop.now ≤ time ∧ ∀ timer ∈ loop.timers, time ≤ timer.fireDate then
    some { loop with now := time }
  else none

/-- A timer fires at its date, and passes no other's. -/
def Loop.fire (loop : Loop Time Block) (serial : Nat) : Option (Block × Loop Time Block) :=
  (Pool.take? (·.serial == serial) loop.timers).bind fun (timer, timers) =>
    if ∀ other ∈ timers, timer.fireDate ≤ other.fireDate then
      some (timer.block, { loop with now := timer.fireDate, timers := timers })
    else none

variable {loop next : Loop Time Block} {timer : Timer Time Block} {time : Time} {serial : Nat}
  {block : Block}

theorem wait_eq_some : loop.wait time = some next ↔
    loop.now ≤ time ∧ (∀ timer ∈ loop.timers, time ≤ timer.fireDate) ∧
      next = { loop with now := time } := by
  rw [Loop.wait, Option.ite_none_right_eq_some, and_assoc, Option.some.injEq, eq_comm]

theorem fire_cases (fired : loop.fire serial = some (block, next)) :
    ∃ timer timers, Pool.take? (·.serial == serial) loop.timers = some (timer, timers) ∧
      (∀ other ∈ timers, timer.fireDate ≤ other.fireDate) ∧ block = timer.block ∧
      next = { loop with now := timer.fireDate, timers := timers } := by
  obtain ⟨⟨timer, timers⟩, taken, rest⟩ := Option.bind_eq_some_iff.mp fired
  obtain ⟨first, same⟩ := Option.ite_none_right_eq_some.mp rest
  cases same
  exact ⟨timer, timers, taken, first, rfl, rfl⟩

/-- The only timer can fire, and nothing else can. -/
theorem fire_only (only : loop.timers = [timer]) :
    loop.fire serial = some (block, next) ↔ timer.serial = serial ∧ block = timer.block ∧
      next = { loop with now := timer.fireDate, timers := [] } := by
  unfold Loop.fire
  rw [only, Pool.take?, Pool.take?, Option.map_none]
  by_cases same : timer.serial = serial
  · simp only [same, beq_self_eq_true, if_true, Option.bind_some, List.not_mem_nil, false_implies,
      implies_true, Option.some.injEq, Prod.mk.injEq, true_and, eq_comm]
  · simp only [beq_eq_false_iff_ne.mpr same, Bool.false_eq_true, if_false, Option.bind_none,
      reduceCtorEq, same, false_and]

/-- No valid timer is late. -/
def Punctual (loop : Loop Time Block) : Prop := ∀ timer ∈ loop.timers, loop.now ≤ timer.fireDate

theorem start_punctual (now : Time) : Punctual (.start now : Loop Time Block) := List.forall_mem_nil _

theorem Punctual.scheduledTimer [AddZeroClass Time] [AddLeftMono Time] (punctual : Punctual loop)
    {interval : Time} (nonneg : 0 ≤ interval) (block : Block) :
    Punctual (loop.scheduledTimer interval block) := by
  exact Pool.forall_snoc punctual (le_add_of_nonneg_right nonneg)

theorem Punctual.invalidate (punctual : Punctual loop) (serial : Nat) :
    Punctual (loop.invalidate serial) :=
  fun timer member => punctual timer (List.mem_of_mem_filter member)

theorem Punctual.wait (waited : loop.wait time = some next) : Punctual next := by
  obtain ⟨-, before, rfl⟩ := wait_eq_some.mp waited
  exact before

theorem Punctual.fire (fired : loop.fire serial = some (block, next)) : Punctual next := by
  obtain ⟨timer, timers, -, first, -, rfl⟩ := fire_cases fired
  exact first

/-- Firing takes time forward. -/
theorem Punctual.le_fire (punctual : Punctual loop) (fired : loop.fire serial = some (block, next)) :
    loop.now ≤ next.now := by
  obtain ⟨timer, timers, taken, -, -, rfl⟩ := fire_cases fired
  exact punctual timer (Pool.take?_mem taken)

end order
end RunLoop
