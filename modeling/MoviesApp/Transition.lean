import Mathlib.Data.List.Basic

/-! Executable labelled machines. A run is a list of actions, each of which the
machine may refuse. The rules carry an invariant, a guarded invariant and a trap
along every run; callers supply one obligation per step and no induction. -/
namespace Transition

structure Machine (S A : Type) where
  step : S → A → Option S

namespace Machine
variable {S A : Type} (m : Machine S A)

/-- The state after all actions, unless one of them is refused on the way. -/
def run : S → List A → Option S
  | s, [] => some s
  | s, a :: rest => (m.step s a).bind fun t => run t rest

/-- Every step taken from `s` along the actions meets the condition in the
state before it. A refused action ends the run, and the obligation with it. -/
def Along (cond : S → A → Prop) : S → List A → Prop
  | _, [] => True
  | s, a :: rest => cond s a ∧ match m.step s a with
    | some t => Along cond t rest
    | none => True

variable {m} {cond : S → A → Prop} {s t : S} {a : A} {acts rest : List A}

theorem run_cons : m.run s (a :: rest) = some t ↔
    ∃ u, m.step s a = some u ∧ m.run u rest = some t := by
  simp only [run, Option.bind_eq_some_iff]

theorem run_append : m.run s (acts ++ rest) = some t ↔
    ∃ u, m.run s acts = some u ∧ m.run u rest = some t := by
  induction acts generalizing s with
  | nil => simp [run]
  | cons a tail ih =>
    simp only [List.cons_append, run_cons, ih]
    constructor
    · rintro ⟨u, head, v, middle, last⟩
      exact ⟨v, ⟨u, head, middle⟩, last⟩
    · rintro ⟨v, ⟨u, head, middle⟩, last⟩
      exact ⟨u, head, v, middle, last⟩

theorem along_cons (step : m.step s a = some t) :
    m.Along cond s (a :: rest) ↔ cond s a ∧ m.Along cond t rest := by
  simp only [Along, step]

theorem along_append (run : m.run s acts = some t) :
    m.Along cond s (acts ++ rest) ↔ m.Along cond s acts ∧ m.Along cond t rest := by
  induction acts generalizing s with
  | nil =>
    cases run
    simp only [List.nil_append, Along, true_and]
  | cons a tail ih =>
    obtain ⟨u, step, later⟩ := run_cons.mp run
    rw [List.cons_append, along_cons step, along_cons step, ih later, and_assoc]

instance decidableAlong [∀ s a, Decidable (cond s a)] :
    (s : S) → (acts : List A) → Decidable (m.Along cond s acts)
  | _, [] => .isTrue trivial
  | s, a :: rest =>
    have : Decidable (match m.step s a with
        | some t => m.Along cond t rest
        | none => True) :=
      match m.step s a with
      | some t => decidableAlong t rest
      | none => .isTrue trivial
    inferInstanceAs (Decidable (cond s a ∧ _))

theorem run_invariant {P : S → Prop}
    (keeps : ∀ {s a t}, P s → m.step s a = some t → P t)
    (run : m.run s acts = some t) (initial : P s) : P t := by
  induction acts generalizing s with
  | nil => cases run; exact initial
  | cons a rest ih =>
    obtain ⟨u, step, tail⟩ := run_cons.mp run
    exact ih tail (keeps initial step)

/-- The guarded rule: the invariant is kept by the steps that meet the condition. -/
theorem run_invariant_along {P : S → Prop}
    (keeps : ∀ {s a t}, P s → cond s a → m.step s a = some t → P t)
    (run : m.run s acts = some t) (along : m.Along cond s acts) (initial : P s) : P t := by
  induction acts generalizing s with
  | nil => cases run; exact initial
  | cons a rest ih =>
    obtain ⟨u, step, tail⟩ := run_cons.mp run
    obtain ⟨met, later⟩ := (along_cons step).mp along
    exact ih tail later (keeps initial met step)

/-- A relation between the states before and after that every step extends. -/
theorem run_monotone {R : S → S → Prop} (refl : ∀ s, R s s)
    (trans : ∀ {x y z}, R x y → R y z → R x z)
    (steps : ∀ {s a t}, m.step s a = some t → R s t)
    (run : m.run s acts = some t) : R s t := by
  induction acts generalizing s with
  | nil => cases run; exact refl _
  | cons a rest ih =>
    obtain ⟨u, step, tail⟩ := run_cons.mp run
    exact trans (steps step) (ih tail)

theorem along_of_forall (holds : ∀ s, ∀ a ∈ acts, cond s a) : m.Along cond s acts := by
  induction acts generalizing s with
  | nil => trivial
  | cons a rest ih =>
    refine ⟨holds s a List.mem_cons_self, ?_⟩
    cases m.step s a with
    | none => trivial
    | some t => exact ih (fun s b member => holds s b (List.mem_cons_of_mem _ member))

theorem along_mono {other : S → A → Prop} (along : m.Along cond s acts)
    (implies : ∀ s, ∀ a ∈ acts, cond s a → other s a) : m.Along other s acts := by
  induction acts generalizing s with
  | nil => trivial
  | cons a rest ih =>
    refine ⟨implies s a List.mem_cons_self along.1, ?_⟩
    have later := along.2
    cases step : m.step s a with
    | none => trivial
    | some t =>
      rw [step] at later
      exact ih later (fun s b member => implies s b (List.mem_cons_of_mem _ member))

/-- A trap: as long as the condition is met the state stays good, the first step
that breaks it makes the state bad, and a bad state never recovers. The condition
along the whole run can then be read off the last state. -/
theorem along_trap {allowed : S → A → Prop} (cond : S → A → Prop) (Good Bad : S → Prop)
    (keeps : ∀ {s a t}, Good s → allowed s a → cond s a → m.step s a = some t → Good t)
    (slips : ∀ {s a t}, Good s → allowed s a → ¬ cond s a → m.step s a = some t → Bad t)
    (stays : ∀ {s a t}, Bad s → allowed s a → m.step s a = some t → Bad t)
    (run : m.run s acts = some t) (within : m.Along allowed s acts) (initial : Good s) :
    (m.Along cond s acts ∧ Good t) ∨ (¬ m.Along cond s acts ∧ Bad t) := by
  induction acts generalizing s with
  | nil => cases run; exact Or.inl ⟨trivial, initial⟩
  | cons a rest ih =>
    obtain ⟨u, step, tail⟩ := run_cons.mp run
    obtain ⟨permitted, within⟩ := (along_cons step).mp within
    rw [along_cons step]
    by_cases met : cond s a
    · rcases ih tail within (keeps initial permitted met step) with ⟨along, good⟩ | ⟨broken, bad⟩
      · exact Or.inl ⟨⟨met, along⟩, good⟩
      · exact Or.inr ⟨fun h => broken h.2, bad⟩
    · exact Or.inr ⟨fun h => met h.1, run_invariant_along stays tail within
        (slips initial permitted met step)⟩

/-- A property that every step from a good state decides: it holds in every state
reached exactly when every step meets the condition. -/
theorem forall_reached_iff {P I : S → Prop}
    (invariant : ∀ {s a t}, I s → m.step s a = some t → I t)
    (decides : ∀ {s a t}, I s → P s → m.step s a = some t → (P t ↔ cond s a))
    (run : m.run s acts = some t) (initial : I s) (holds : P s) :
    (∀ before after u, acts = before ++ after → m.run s before = some u → P u) ↔
      m.Along cond s acts := by
  induction acts generalizing s with
  | nil =>
    refine iff_of_true ?_ trivial
    intro before after u split reached
    obtain ⟨rfl, -⟩ := List.append_eq_nil_iff.mp split.symm
    cases reached
    exact holds
  | cons a rest ih =>
    obtain ⟨v, step, tail⟩ := run_cons.mp run
    rw [along_cons step]
    constructor
    · intro reached
      have next : P v := reached [a] rest v rfl (run_cons.mpr ⟨v, step, rfl⟩)
      refine ⟨(decides initial holds step).mp next, (ih tail (invariant initial step) next).mp ?_⟩
      intro before after u split later
      exact reached (a :: before) after u (by rw [split, List.cons_append])
        (run_cons.mpr ⟨v, step, later⟩)
    · rintro ⟨met, later⟩ before after u split reached
      have next : P v := (decides initial holds step).mpr met
      cases before with
      | nil => cases reached; exact holds
      | cons b tail' =>
        obtain ⟨rfl, rests⟩ := List.cons.inj split
        obtain ⟨w, step', reached⟩ := run_cons.mp reached
        obtain rfl := Option.some.inj (step.symm.trans step')
        exact (ih tail (invariant initial step) next).mpr later tail' after u rests reached

/-- Weak simulation: where each step is matched by a run of the other machine that
keeps to its own condition, so is every run. -/
theorem run_simulation {S' A' : Type} {n : Machine S' A'} {R : S → S' → Prop}
    {kept : S' → A' → Prop} {u : S'}
    (steps : ∀ {s a t u}, R s u → cond s a → m.step s a = some t →
      ∃ answer v, n.run u answer = some v ∧ n.Along kept u answer ∧ R t v)
    (run : m.run s acts = some t) (along : m.Along cond s acts) (related : R s u) :
    ∃ answer v, n.run u answer = some v ∧ n.Along kept u answer ∧ R t v := by
  induction acts generalizing s u with
  | nil =>
    cases run
    exact ⟨[], u, rfl, trivial, related⟩
  | cons a rest ih =>
    obtain ⟨middle, step, tail⟩ := run_cons.mp run
    obtain ⟨met, later⟩ := (along_cons step).mp along
    obtain ⟨first, v, firstRun, firstKept, matched⟩ := steps related met step
    obtain ⟨second, w, secondRun, secondKept, final⟩ := ih tail later matched
    exact ⟨first ++ second, w, run_append.mpr ⟨v, firstRun, secondRun⟩,
      (along_append firstRun).mpr ⟨firstKept, secondKept⟩, final⟩

/-- A homomorphism: where the image of each good step is a step, the image of a run is a run. -/
theorem run_map {S' : Type} {n : Machine S' A} {f : S → S'} {P : S → Prop}
    (steps : ∀ {s a t}, P s → cond s a → m.step s a = some t → P t ∧ n.step (f s) a = some (f t))
    (run : m.run s acts = some t) (along : m.Along cond s acts) (initial : P s) :
    n.run (f s) acts = some (f t) := by
  induction acts generalizing s with
  | nil =>
    cases run
    rfl
  | cons a rest ih =>
    obtain ⟨u, step, tail⟩ := run_cons.mp run
    obtain ⟨met, later⟩ := (along_cons step).mp along
    obtain ⟨good, image⟩ := steps initial met step
    exact run_cons.mpr ⟨f u, image, ih tail later good⟩

/-- Erasure: where each step is either taken by the other machine too or changes nothing there,
the other machine's run is what is left of the actions. -/
theorem run_erasure {S' : Type} {n : Machine S' A} {R : S → S' → Prop} {kept : S' → A → Prop} {u : S'}
    (steps : ∀ {s a t u}, R s u → m.step s a = some t →
      R t u ∨ ∃ v, n.step u a = some v ∧ kept u a ∧ R t v)
    (run : m.run s acts = some t) (related : R s u) :
    ∃ left v, left.Sublist acts ∧ n.run u left = some v ∧ n.Along kept u left ∧ R t v := by
  induction acts generalizing s u with
  | nil =>
    cases run
    exact ⟨[], u, .slnil, rfl, trivial, related⟩
  | cons a rest ih =>
    obtain ⟨middle, step, tail⟩ := run_cons.mp run
    rcases steps related step with unseen | ⟨v, taken, met, matched⟩
    · obtain ⟨left, w, fewer, reached, along, final⟩ := ih tail unseen
      exact ⟨left, w, fewer.cons a, reached, along, final⟩
    · obtain ⟨left, w, fewer, reached, along, final⟩ := ih tail matched
      exact ⟨a :: left, w, fewer.cons_cons a, run_cons.mpr ⟨v, taken, reached⟩,
        (along_cons taken).mpr ⟨met, along⟩, final⟩

end Machine
end Transition
