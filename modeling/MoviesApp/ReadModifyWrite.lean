import Mathlib.Algebra.Order.Group.Multiset

/-! A shared list that clients extend by reading it and later writing the copy
they read with one element appended. Writes may overtake each other. Nothing is
lost exactly when every write finds the list as its own read left it. -/
namespace ReadModifyWrite
variable {α : Type}

structure State (α : Type) where
  current : List α
  /-- Calls that have not read yet. -/
  waiting : Multiset α
  /-- Calls that have read, each with the copy it read. -/
  pending : Multiset (α × List α)
  /-- Every call made. -/
  calls : Multiset α

inductive Event (α : Type) where
  | call (x : α)
  | read (x : α)
  | write (x : α) (seen : List α)

inductive Step : State α → Event α → State α → Prop where
  | call (s x) : Step s (.call x)
      { s with waiting := x ::ₘ s.waiting, calls := x ::ₘ s.calls }
  | read (s x rest) : s.waiting = x ::ₘ rest → Step s (.read x)
      { s with waiting := rest, pending := (x, s.current) ::ₘ s.pending }
  | write (s x seen rest) : s.pending = (x, seen) ::ₘ rest → Step s (.write x seen)
      { s with pending := rest, current := seen ++ [x] }

/-- A write is fresh when the list is still the copy it was computed from. -/
def Fresh (s : State α) : Event α → Prop
  | .write _ seen => s.current = seen
  | _ => True

/-- The initial list followed by every call's element exactly once. -/
def Complete (initial : List α) (s : State α) : Prop :=
  ∃ order : List α, (order : Multiset α) = s.calls ∧ s.current = initial ++ order

def outstanding (s : State α) : Nat := s.waiting.card + s.pending.card

/-- Nothing lost so far: each finished call is in the list once, and every copy
still held by a client is a prefix of it. -/
def Intact (initial : List α) (s : State α) : Prop :=
  ∃ order : List α, s.current = initial ++ order ∧
    s.calls = order + s.waiting + s.pending.map Prod.fst ∧
    ∀ p ∈ s.pending, p.2 <+: s.current

/-- Too short for good: neither the list nor any copy a client may still write
back has room for all finished calls. -/
def Short (initial : List α) (s : State α) : Prop :=
  s.current.length + outstanding s < initial.length + s.calls.card ∧
    ∀ p ∈ s.pending, p.2.length + outstanding s < initial.length + s.calls.card

variable {initial : List α} {s t : State α} {e : Event α}

theorem initial_intact (current : List α) : Intact current ⟨current, 0, 0, 0⟩ :=
  ⟨[], by simp⟩

theorem Intact.step (intact : Intact initial s) (fresh : Fresh s e) (step : Step s e t) :
    Intact initial t := by
  obtain ⟨order, content, balance, copies⟩ := intact
  cases step with
  | call x =>
    refine ⟨order, content, ?_, copies⟩
    simp only [balance, Multiset.add_cons, Multiset.cons_add]
  | read x rest chosen =>
    refine ⟨order, content, ?_, ?_⟩
    · simp only [balance, chosen, Multiset.map_cons, Multiset.add_cons, Multiset.cons_add]
    · intro p member
      rcases Multiset.mem_cons.mp member with rfl | held
      · exact List.prefix_rfl
      · exact copies p held
  | write x seen rest chosen =>
    change s.current = seen at fresh
    subst fresh
    refine ⟨order ++ [x], ?_, ?_, ?_⟩
    · simp only [content, List.append_assoc]
    · calc s.calls = order + s.waiting + (x ::ₘ rest.map Prod.fst) := by
            simp only [balance, chosen, Multiset.map_cons]
        _ = order + {x} + s.waiting + rest.map Prod.fst := by
            rw [← Multiset.singleton_add]
            ac_rfl
        _ = ↑(order ++ [x]) + s.waiting + rest.map Prod.fst := by
            rw [← Multiset.coe_add, Multiset.coe_singleton]
    · intro p member
      exact (copies p (chosen ▸ Multiset.mem_cons_of_mem member)).trans (List.prefix_append _ _)

/-- A stale copy is a proper prefix of the list, hence strictly shorter. -/
theorem Intact.slip (intact : Intact initial s) (stale : ¬ Fresh s e) (step : Step s e t) :
    Short initial t := by
  obtain ⟨order, content, balance, copies⟩ := intact
  cases step with
  | call x => exact absurd trivial stale
  | read x rest chosen => exact absurd trivial stale
  | write x seen rest chosen =>
    have lengths := congrArg List.length content
    have cards := congrArg Multiset.card balance
    have held : seen <+: s.current := copies (x, seen) (chosen ▸ Multiset.mem_cons_self _ _)
    have shorter : seen.length < s.current.length := by
      refine Nat.lt_of_le_of_ne held.length_le fun same => ?_
      exact stale (held.eq_of_length same).symm
    simp only [List.length_append, Multiset.card_add, Multiset.coe_card, Multiset.card_map,
      chosen, Multiset.card_cons] at lengths cards
    refine ⟨?_, ?_⟩
    · simp only [outstanding, List.length_append, List.length_singleton]
      omega
    · intro p member
      have bound := (copies p (chosen ▸ Multiset.mem_cons_of_mem member)).length_le
      simp only [outstanding]
      omega

theorem Short.step (short : Short initial s) (step : Step s e t) : Short initial t := by
  obtain ⟨list, copies⟩ := short
  cases step with
  | call x =>
    simp only [outstanding] at list copies
    refine ⟨?_, fun p member => ?_⟩
    · simp only [outstanding, Multiset.card_cons]
      omega
    · have bound := copies p member
      simp only [outstanding, Multiset.card_cons]
      omega
  | read x rest chosen =>
    simp only [outstanding, chosen, Multiset.card_cons] at list copies
    refine ⟨?_, fun p member => ?_⟩
    · simp only [outstanding, Multiset.card_cons]
      omega
    · simp only [outstanding, Multiset.card_cons]
      rcases Multiset.mem_cons.mp member with rfl | held
      · simp only
        omega
      · have bound := copies p held
        omega
  | write x seen rest chosen =>
    simp only [outstanding, chosen, Multiset.card_cons] at list copies
    refine ⟨?_, fun p member => ?_⟩
    · have bound : seen.length + _ < _ := copies (x, seen) (Multiset.mem_cons_self _ _)
      simp only [outstanding, List.length_append, List.length_singleton]
      omega
    · have bound := copies p (Multiset.mem_cons_of_mem member)
      simp only [outstanding]
      omega

theorem Intact.complete (intact : Intact initial s) (waiting : s.waiting = 0)
    (pending : s.pending = 0) : Complete initial s := by
  obtain ⟨order, content, balance, -⟩ := intact
  refine ⟨order, ?_, content⟩
  simpa only [waiting, pending, Multiset.map_zero, add_zero] using balance.symm

theorem Short.incomplete (short : Short initial s) : ¬ Complete initial s := by
  rintro ⟨order, all, content⟩
  have cards := congrArg Multiset.card all
  have lengths := congrArg List.length content
  have list := short.1
  simp only [Multiset.coe_card, List.length_append] at cards lengths
  omega

/-! Clients that may fail. Such a client may read nothing, or give up its write, and the list may
be started afresh. Entries are lost then, but never doubled. -/

/-- A step of the protocol, or one that fails. -/
inductive LossyStep : State α → State α → Prop where
  | protocol {before after : State α} (event) : Step before event after → LossyStep before after
  | readNothing (before x rest) : before.waiting = x ::ₘ rest → LossyStep before
      { before with waiting := rest, pending := (x, []) ::ₘ before.pending }
  | giveUp (before p rest) : before.pending = p ::ₘ rest →
      LossyStep before { before with pending := rest }
  | reset (before) : LossyStep before { before with current := [] }

/-- The calls that have not finished. -/
def underway (s : State α) : Multiset α := s.waiting + s.pending.map Prod.fst

/-- Neither the list nor a copy of it holds anything but the initial elements and those of
finished calls, each as often as it was called. -/
structure AtMostOnce (initial : List α) (s : State α) : Prop where
  list : (s.current : Multiset α) + underway s ≤ initial + s.calls
  copies : ∀ p ∈ s.pending, (p.2 : Multiset α) + underway s ≤ initial + s.calls

theorem AtMostOnce.none (bounded : AtMostOnce initial s) :
    (([] : List α) : Multiset α) + underway s ≤ initial + s.calls := by
  rw [Multiset.coe_nil, zero_add]
  exact le_trans (Multiset.le_add_left _ _) bounded.list

/-- What a step that makes no call keeps. -/
theorem AtMostOnce.step_of_le (bounded : AtMostOnce initial s) (calls : t.calls = s.calls)
    (fewer : underway t ≤ underway s)
    (list : (t.current : Multiset α) + underway t ≤ initial + t.calls)
    (copies : ∀ p ∈ t.pending, p ∈ s.pending ∨ p.2 = s.current ∨ p.2 = []) :
    AtMostOnce initial t := by
  have bound {copy : List α} (old : (copy : Multiset α) + underway s ≤ initial + s.calls) :
      (copy : Multiset α) + underway t ≤ initial + t.calls :=
    calls ▸ le_trans (add_le_add_right fewer _) old
  refine ⟨list, fun p member => ?_⟩
  rcases copies p member with held | current | nothing
  · exact bound (bounded.copies p held)
  · exact current ▸ bound bounded.list
  · exact nothing ▸ bound bounded.none

theorem AtMostOnce.step (bounded : AtMostOnce initial s) (step : LossyStep s t) :
    AtMostOnce initial t := by
  cases step with
  | protocol event normal =>
    cases normal with
    | call x =>
      have more {copy : List α} (old : (copy : Multiset α) + underway s ≤ initial + s.calls) :
          (copy : Multiset α) + (x ::ₘ s.waiting + s.pending.map Prod.fst) ≤
            initial + (x ::ₘ s.calls) := by
        rw [Multiset.cons_add, Multiset.add_cons, Multiset.add_cons]
        exact Multiset.cons_le_cons x old
      exact ⟨more bounded.list, fun p member => more (bounded.copies p member)⟩
    | read x rest chosen =>
      have same : rest + ((x, s.current) ::ₘ s.pending).map Prod.fst = underway s := by
        rw [underway, chosen, Multiset.map_cons, Multiset.add_cons, Multiset.cons_add]
      refine bounded.step_of_le rfl (le_of_eq same) ?_ ?_
      · exact le_trans (le_of_eq (congrArg _ same)) bounded.list
      · intro p member
        rcases Multiset.mem_cons.mp member with rfl | held
        · exact Or.inr (Or.inl rfl)
        · exact Or.inl held
    | write x seen rest chosen =>
      have before : underway s = x ::ₘ (s.waiting + rest.map Prod.fst) := by
        rw [underway, chosen, Multiset.map_cons, Multiset.add_cons]
      refine bounded.step_of_le rfl (before ▸ Multiset.le_cons_self _ _) ?_ ?_
      · have held := bounded.copies (x, seen) (chosen ▸ Multiset.mem_cons_self _ _)
        calc ((seen ++ [x] : List α) : Multiset α) + (s.waiting + rest.map Prod.fst)
            = (seen : Multiset α) + underway s := by
              rw [before, ← Multiset.coe_add, Multiset.coe_singleton, add_assoc,
                Multiset.singleton_add]
          _ ≤ initial + s.calls := held
      · exact fun p member => Or.inl (chosen ▸ Multiset.mem_cons_of_mem member)
  | readNothing x rest chosen =>
    have same : rest + ((x, ([] : List α)) ::ₘ s.pending).map Prod.fst = underway s := by
      rw [underway, chosen, Multiset.map_cons, Multiset.add_cons, Multiset.cons_add]
    refine bounded.step_of_le rfl (le_of_eq same) ?_ ?_
    · exact le_trans (le_of_eq (congrArg _ same)) bounded.list
    · intro p member
      rcases Multiset.mem_cons.mp member with rfl | held
      · exact Or.inr (Or.inr rfl)
      · exact Or.inl held
  | giveUp p rest chosen =>
    have fewer : s.waiting + rest.map Prod.fst ≤ underway s := by
      rw [underway, chosen, Multiset.map_cons, Multiset.add_cons]
      exact Multiset.le_cons_self _ _
    refine bounded.step_of_le rfl fewer ?_ ?_
    · exact le_trans (add_le_add_right fewer _) bounded.list
    · exact fun q member => Or.inl (chosen ▸ Multiset.mem_cons_of_mem member)
  | reset => exact ⟨bounded.none, bounded.copies⟩

/-- The initial elements stay in front, and once a call has finished there is more. -/
structure Growing (initial : List α) (s : State α) : Prop where
  list : initial <+: s.current
  copies : ∀ p ∈ s.pending, initial <+: p.2
  more : s.calls = underway s ∨ initial.length < s.current.length

theorem Growing.step (growing : Growing initial s) (step : Step s e t) : Growing initial t := by
  obtain ⟨list, copies, more⟩ := growing
  cases step with
  | call x =>
    refine ⟨list, copies, more.imp_left fun same => ?_⟩
    simp only [same, underway, Multiset.cons_add]
  | read x rest chosen =>
    refine ⟨list, ?_, more.imp_left fun same => ?_⟩
    · intro p member
      rcases Multiset.mem_cons.mp member with rfl | held
      · exact list
      · exact copies p held
    · simp only [same, underway, chosen, Multiset.map_cons, Multiset.add_cons, Multiset.cons_add]
  | write x seen rest chosen =>
    have held : initial <+: seen := copies (x, seen) (chosen ▸ Multiset.mem_cons_self _ _)
    refine ⟨held.trans (List.prefix_append _ _), ?_, Or.inr ?_⟩
    · exact fun p member => copies p (chosen ▸ Multiset.mem_cons_of_mem member)
    · have bound := held.length_le
      simp only [List.length_append, List.length_singleton]
      omega

end ReadModifyWrite
