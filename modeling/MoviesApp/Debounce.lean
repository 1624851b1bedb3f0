import Mathlib.Data.List.Basic
import Mathlib.Order.Basic

/-! Which of a sequence of timed changes a debouncer answers. A change that another one
follows within less than the interval gets no call, a change that none follows within the
interval gets one, and one that is followed exactly at its end may get one. -/
namespace Debounce

structure Change (Time Value : Type) where
  time : Time
  value : Value
  deriving DecidableEq

variable {Time Value : Type} [Preorder Time] [Add Time]

/-- The calls made by `now` are those for the changes at `positions`. Unless all is settled
the last change may still get its call. -/
structure Calls (interval now : Time) (changes : List (Change Time Value)) (settled : Bool)
    (positions : List Nat) (calls : List Value) : Prop where
  increasing : positions.Pairwise (· < ·)
  values : positions.map (fun i => changes[i]?.map Change.value) = calls.map some
  placed : ∀ i ∈ positions, i < changes.length ∧ (settled = false → i + 1 < changes.length)
  called : ∀ i ∈ positions, ∀ change, changes[i]? = some change → change.time + interval ≤ now ∧
    ∀ later ∈ changes.drop (i + 1), change.time + interval ≤ later.time
  skipped : ∀ i change, changes[i]? = some change → i ∉ positions →
    (settled = false ∧ i + 1 = changes.length) ∨
      ∃ later ∈ changes.drop (i + 1), later.time ≤ change.time + interval

variable {interval now time : Time} {changes : List (Change Time Value)} {settled : Bool}
  {positions : List Nat} {calls : List Value} {change : Change Time Value}

theorem start_calls : Calls interval now ([] : List (Change Time Value)) true [] [] where
  increasing := List.Pairwise.nil
  values := rfl
  placed := List.forall_mem_nil _
  called := List.forall_mem_nil _
  skipped _ _ found := nomatch found

theorem Calls.waited (made : Calls interval now changes settled positions calls) (later : now ≤ time) :
    Calls interval time changes settled positions calls := by
  refine { made with called := ?_ }
  intro i member change found
  obtain ⟨ended, quiet⟩ := made.called i member change found
  exact ⟨ended.trans later, quiet⟩

/-- Another change: the last one before is followed, and gets no call any more. -/
theorem Calls.changed (made : Calls interval now changes settled positions calls)
    (pending : settled = false → ∀ last ∈ changes.getLast?, now ≤ last.time + interval)
    (value : Value) :
    Calls interval now (changes ++ [⟨now, value⟩]) false positions calls := by
  have kept : ∀ {i : Nat}, i < changes.length →
      (changes ++ [Change.mk now value])[i]? = changes[i]? := List.getElem?_append_left
  have following : ∀ {i : Nat}, i < changes.length →
      (changes ++ [Change.mk now value]).drop (i + 1) = changes.drop (i + 1) ++ [Change.mk now value] :=
    fun inside => List.drop_append_of_le_length inside
  refine ⟨made.increasing, ?_, ?_, ?_, ?_⟩
  · rw [← made.values]
    apply List.map_congr_left
    intro i member
    rw [kept (made.placed i member).1]
  · intro i member
    have inside := (made.placed i member).1
    rw [List.length_append, List.length_singleton]
    omega
  · intro i member change found
    have inside := (made.placed i member).1
    rw [kept inside] at found
    obtain ⟨ended, quiet⟩ := made.called i member change found
    refine ⟨ended, ?_⟩
    rw [following inside]
    exact List.forall_mem_append.mpr ⟨quiet, List.forall_mem_singleton.mpr ended⟩
  · intro i change found absent
    rw [List.length_append, List.length_singleton]
    rcases Nat.lt_or_ge i changes.length with inside | outside
    · right
      rw [kept inside] at found
      rw [following inside]
      rcases made.skipped i change found absent with ⟨unsettled, last⟩ | ⟨later, member, soon⟩
      · refine ⟨_, List.mem_append_right _ List.mem_cons_self, pending unsettled change ?_⟩
        rw [Option.mem_def, List.getLast?_eq_getElem?, ← last, Nat.add_sub_cancel]
        exact found
      · exact ⟨later, List.mem_append_left _ member, soon⟩
    · left
      have bound := (List.getElem?_eq_some_iff.mp found).1
      rw [List.length_append, List.length_singleton] at bound
      exact ⟨rfl, by omega⟩

/-- The interval after the last change is over, and its call is made. -/
theorem Calls.fired (made : Calls interval now changes false positions calls)
    (last : changes.getLast? = some change) (later : now ≤ change.time + interval) :
    Calls interval (change.time + interval) changes true (positions ++ [changes.length - 1])
      (calls ++ [change.value]) := by
  rw [List.getLast?_eq_getElem?] at last
  have bound := (List.getElem?_eq_some_iff.mp last).1
  refine ⟨?_, ?_, ?_, ?_, ?_⟩
  · refine List.pairwise_append.mpr ⟨made.increasing, List.pairwise_singleton _ _, ?_⟩
    intro i member j new
    have inside := (made.placed i member).2 rfl
    rw [List.mem_singleton.mp new]
    omega
  · rw [List.map_append, List.map_append, made.values, List.map_singleton, last]
    rfl
  · refine List.forall_mem_append.mpr ⟨?_, List.forall_mem_singleton.mpr ⟨bound, nofun⟩⟩
    intro i member
    exact ⟨(made.placed i member).1, nofun⟩
  · refine List.forall_mem_append.mpr ⟨(made.waited later).called, List.forall_mem_singleton.mpr ?_⟩
    intro other found
    cases Option.some.inj (last.symm.trans found)
    refine ⟨le_rfl, ?_⟩
    rw [List.drop_eq_nil_of_le (by omega)]
    exact List.forall_mem_nil _
  · intro i other found absent
    obtain ⟨absent, notLast⟩ := not_or.mp (List.mem_append.not.mp absent)
    rcases made.skipped i other found absent with ⟨-, position⟩ | followed
    · exact absurd (List.mem_singleton.mpr (by omega)) notLast
    · exact Or.inr followed

end Debounce
