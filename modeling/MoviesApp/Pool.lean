import Mathlib.Data.List.Perm.Basic
import Mathlib.Data.List.Count
import Mathlib.Data.List.Nodup

/-! Pools of operations in flight. An operation leaves the pool by its
identifier; what remains is the pool without exactly that operation. -/
namespace Pool
variable {α : Type}

/-- The first element that meets `p`, and the list without it. -/
def take? (p : α → Bool) : List α → Option (α × List α)
  | [] => none
  | a :: rest => if p a then some (a, rest)
    else (take? p rest).map fun (found, left) => (found, a :: left)

variable {p : α → Bool} {pool left : List α} {a : α}

theorem take?_spec (taken : take? p pool = some (a, left)) : p a = true ∧ pool.Perm (a :: left) := by
  induction pool generalizing left with
  | nil => contradiction
  | cons b rest ih =>
    unfold take? at taken
    split at taken
    · rename_i holds
      cases taken
      exact ⟨holds, .refl _⟩
    · obtain ⟨⟨found, remaining⟩, inner, outer⟩ := Option.map_eq_some_iff.mp taken
      cases outer
      obtain ⟨holds, perm⟩ := ih inner
      exact ⟨holds, (perm.cons b).trans (.swap _ _ _)⟩

theorem take?_key {key : α → Nat} {id : Nat}
    (taken : take? (fun a => key a == id) pool = some (a, left)) : key a = id :=
  beq_iff_eq.mp (take?_spec taken).1

theorem take?_perm (taken : take? p pool = some (a, left)) : pool.Perm (a :: left) :=
  (take?_spec taken).2

theorem take?_find (taken : take? p pool = some (a, left)) : pool.find? p = some a := by
  induction pool generalizing left with
  | nil => contradiction
  | cons b rest ih =>
    unfold take? at taken
    split at taken
    · rename_i holds
      cases taken
      rw [List.find?_cons_of_pos holds]
    · rename_i fails
      obtain ⟨⟨found, remaining⟩, inner, outer⟩ := Option.map_eq_some_iff.mp taken
      cases outer
      rw [List.find?_cons_of_neg fails, ih inner]

/-- The only match in the pool is the one that is taken. -/
theorem take?_of_filter (only : pool.filter p = [a]) :
    ∃ left, take? p pool = some (a, left) := by
  induction pool with
  | nil => contradiction
  | cons b rest ih =>
    unfold take?
    split
    · rename_i holds
      rw [List.filter_cons_of_pos holds] at only
      exact ⟨rest, by rw [(List.cons.inj only).1]⟩
    · rename_i fails
      rw [List.filter_cons_of_neg fails] at only
      obtain ⟨left, taken⟩ := ih only
      exact ⟨b :: left, by rw [taken]; rfl⟩

theorem take?_mem (taken : take? p pool = some (a, left)) : a ∈ pool :=
  (take?_perm taken).mem_iff.mpr List.mem_cons_self

theorem take?_left (taken : take? p pool = some (a, left)) (member : b ∈ left) : b ∈ pool :=
  (take?_perm taken).mem_iff.mpr (List.mem_cons_of_mem _ member)

theorem take?_cases (taken : take? p pool = some (a, left)) (member : b ∈ pool) :
    b = a ∨ b ∈ left :=
  List.mem_cons.mp ((take?_perm taken).mem_iff.mp member)

theorem take?_countP (taken : take? p pool = some (a, left)) (q : α → Bool) :
    pool.countP q = left.countP q + if q a then 1 else 0 := by
  rw [(take?_perm taken).countP_eq, List.countP_cons]

theorem take?_filter (taken : take? p pool = some (a, left)) (q : α → Bool) :
    (pool.filter q).Perm (if q a then a :: left.filter q else left.filter q) := by
  have perm := (take?_perm taken).filter q
  rwa [List.filter_cons] at perm

/-- Taking the first match out leaves the later matches in order. -/
theorem take?_filter_self (taken : take? p pool = some (a, left)) :
    pool.filter p = a :: left.filter p := by
  induction pool generalizing left with
  | nil => contradiction
  | cons b rest ih =>
    unfold take? at taken
    split at taken
    · rename_i holds
      cases taken
      rw [List.filter_cons_of_pos holds]
    · rename_i fails
      obtain ⟨⟨found, remaining⟩, inner, outer⟩ := Option.map_eq_some_iff.mp taken
      cases outer
      rw [List.filter_cons_of_neg fails, List.filter_cons_of_neg fails, ih inner]

theorem take?_filter_of_neg (taken : take? p pool = some (a, left)) {q : α → Bool}
    (other : q a = false) : pool.filter q = left.filter q := by
  induction pool generalizing left with
  | nil => contradiction
  | cons b rest ih =>
    unfold take? at taken
    split at taken
    · cases taken
      rw [List.filter_cons_of_neg (by simp [other])]
    · obtain ⟨⟨found, remaining⟩, inner, outer⟩ := Option.map_eq_some_iff.mp taken
      cases outer
      rw [List.filter_cons, List.filter_cons, ih inner]

/-- Identifiers stay distinct, and the one taken out is gone. -/
theorem take?_nodup {key : α → β} (taken : take? p pool = some (a, left))
    (nodup : (pool.map key).Nodup) : (left.map key).Nodup ∧ key a ∉ left.map key := by
  have split := ((take?_perm taken).map key).nodup_iff.mp nodup
  rw [List.map_cons, List.nodup_cons] at split
  exact ⟨split.2, split.1⟩

/-- Another pool holds what a view shows of this one: a visible operation that is taken out
here has a counterpart there, and without the two the same holds of the rest. -/
theorem take?_counterpart {γ : Type} {view : α → Option γ} {content : β → γ} {other : List β} {c : γ}
    (same : (other.map content).Perm (pool.filterMap view)) (taken : take? p pool = some (a, left))
    (visible : view a = some c) :
    ∃ b ∈ other, content b = c ∧ ∀ rest, other.Perm (b :: rest) →
      (rest.map content).Perm (left.filterMap view) := by
  have shown : (pool.filterMap view).Perm (c :: left.filterMap view) := by
    have perm := (take?_perm taken).filterMap view
    rwa [List.filterMap_cons_some visible] at perm
  obtain ⟨b, member, equal⟩ := List.mem_map.mp ((same.trans shown).mem_iff.mpr List.mem_cons_self)
  refine ⟨b, member, equal, ?_⟩
  intro rest split
  have contents := split.map content
  rw [List.map_cons, equal] at contents
  exact List.Perm.cons_inv (contents.symm.trans (same.trans shown))

theorem take?_invisible {γ : Type} {view : α → Option γ}
    (taken : take? p pool = some (a, left)) (hidden : view a = none) :
    (pool.filterMap view).Perm (left.filterMap view) := by
  have perm := (take?_perm taken).filterMap view
  rwa [List.filterMap_cons_none hidden] at perm

/-- What holds of the operations in flight and of a new one. -/
theorem forall_snoc {P : α → Prop} (held : ∀ b ∈ pool, P b) (new : P a) : ∀ b ∈ pool ++ [a], P b :=
  List.forall_mem_append.mpr ⟨held, List.forall_mem_singleton.mpr new⟩

/-- An operation with a new identifier joins the pool. -/
theorem nodup_snoc {key : α → β} (nodup : (pool.map key).Nodup) (new : ∀ b ∈ pool, key b ≠ key a) :
    ((pool ++ [a]).map key).Nodup := by
  rw [List.map_append, List.nodup_append]
  refine ⟨nodup, List.nodup_singleton _, ?_⟩
  intro old earlier last latest
  obtain ⟨b, member, rfl⟩ := List.mem_map.mp earlier
  obtain rfl := List.mem_singleton.mp latest
  exact new b member

end Pool
