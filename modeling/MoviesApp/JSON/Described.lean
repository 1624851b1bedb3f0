import Mathlib.Data.List.Forall2
import MoviesApp.JSON

/-! What a document says, as relations between JSON and Swift values that mention no
decoding call: a value or null, a key that is present, a list entry by entry. Each
comes with what the decoding calls answer on such a document. -/
namespace MoviesApp.JSON
variable {α : Type} {decode : JSON → Option α} {json : JSON} {fields : List (String × JSON)}
  {key : String}

/-- A value of the type, or null for nil. -/
inductive Nullable (describes : JSON → α → Prop) : JSON → Option α → Prop
  | null : Nullable describes .null none
  | value {json : JSON} {x : α} : describes json x → Nullable describes json (some x)

/-- The key is present, and its value is described. -/
def Present (fields : List (String × JSON)) (key : String) (describes : JSON → α → Prop)
    (x : α) : Prop :=
  ∃ json, fields.lookup key = some json ∧ describes json x

/-- One value for each list entry, in the same order. -/
def Listed (describes : JSON → α → Prop) (json : JSON) (values : List α) : Prop :=
  ∃ items, json = .array items ∧ List.Forall₂ describes items values

/-- An object whose entries describe the value. -/
def Keyed (describes : List (String × JSON) → α → Prop) (json : JSON) (x : α) : Prop :=
  ∃ fields, json = .object fields ∧ describes fields x

/-- The document holds no null at any of the keys. -/
def NullFree (keys : List String) (json : JSON) : Prop :=
  ∀ fields, json = .object fields → ∀ key ∈ keys, fields.lookup key ≠ some .null

/-- The decoding call answers with the value the document describes. -/
def Decodes (decode : JSON → Option α) (describes : JSON → α → Prop) : Prop :=
  ∀ json x, describes json x → decode json = some x

/-- A type whose values are never null. -/
structure Plain (decode : JSON → Option α) (describes : JSON → α → Prop) : Prop where
  decodes : Decodes decode describes
  notNull : decode .null = none

def IsString (json : JSON) (s : String) : Prop :=
  json = .string s

/-- An integer that fits Swift's `Int`. -/
def IsInt (json : JSON) (n : Int) : Prop :=
  json = .number n ∧ -2 ^ 63 ≤ n ∧ n < 2 ^ 63

def IsDouble (json : JSON) (value : ℚ) : Prop :=
  json = .number value

theorem plain_string : Plain decodeString IsString where
  decodes := by rintro _ _ rfl; rfl
  notNull := rfl

theorem plain_double : Plain decodeDouble IsDouble where
  decodes := by rintro _ _ rfl; rfl
  notNull := rfl

theorem plain_int : Plain decodeInt IsInt where
  decodes := by
    rintro _ n ⟨rfl, low, high⟩
    simp only [decodeInt, Rat.den_intCast, Rat.num_intCast, low, high, and_self, if_true]
  notNull := rfl

theorem decodeKey_present {describes : JSON → α → Prop} {x : α}
    (decodes : Decodes decode describes)
    (present : Present fields key describes x) : decodeKey decode fields key = some x := by
  obtain ⟨json, found, described⟩ := present
  simp only [decodeKey, found, Option.bind_some, decodes _ _ described]

/-- The plain decoding call has no answer for null, so its answer, if any, is the field's value. -/
theorem decodeKey_nullable {describes : JSON → α → Prop} {x : Option α}
    (type : Plain decode describes)
    (present : Present fields key (Nullable describes) x) : decodeKey decode fields key = x := by
  obtain ⟨json, found, held⟩ := present
  cases held with
  | null => simp only [decodeKey, found, Option.bind_some, type.notNull]
  | value described => simp only [decodeKey, found, Option.bind_some, type.decodes _ _ described]

theorem decodeOptional_nullable {describes : JSON → α → Prop} (type : Plain decode describes) :
    Decodes (decodeOptional decode) (Nullable describes) := by
  intro json x held
  cases held with
  | null => rfl
  | value described =>
    have decoded := type.decodes _ _ described
    -- A described value is no null, for null decodes as nothing.
    cases json with
    | null => rw [type.notNull] at decoded; exact nomatch decoded
    | _ => simp only [decodeOptional, decoded, Option.map_some]

theorem decodeKey_optional {describes : JSON → α → Prop} {x : Option α}
    (type : Plain decode describes)
    (present : Present fields key (Nullable describes) x) :
    decodeKey (decodeOptional decode) fields key = some x :=
  decodeKey_present (decodeOptional_nullable type) present

theorem decodeIfPresent_nullable {describes : JSON → α → Prop} {x : Option α}
    (type : Plain decode describes)
    (present : Present fields key (Nullable describes) x) :
    decodeIfPresent decode fields key = some x := by
  obtain ⟨json, found, held⟩ := present
  simp only [decodeIfPresent, found, decodeOptional_nullable type _ _ held]

/-- A field is nil exactly where the document holds null. -/
theorem present_nullable_isSome {describes : JSON → α → Prop} {x : Option α}
    (type : Plain decode describes)
    (present : Present fields key (Nullable describes) x) :
    x.isSome ↔ fields.lookup key ≠ some .null := by
  obtain ⟨json, found, held⟩ := present
  rw [found]
  cases held with
  | null => simp
  | value described =>
    refine ⟨fun _ null => ?_, fun _ => rfl⟩
    have decoded := type.decodes _ _ described
    rw [Option.some.inj null, type.notNull] at decoded
    exact nomatch decoded

/-- Entries that each decode under a condition of their own: the list decodes when
every entry meets it. -/
theorem mapM_eq_some_iff {describes : JSON → α → Prop} {met : JSON → Prop} {items : List JSON}
    {values : List α} (listed : List.Forall₂ describes items values)
    (each : ∀ {json x}, describes json x → (decode json = some x ↔ met json)) :
    items.mapM decode = some values ↔ ∀ item ∈ items, met item := by
  induction listed with
  | nil => simp
  | cons described _ ih =>
    simp only [List.mapM_cons, Option.bind_eq_bind, Option.bind_eq_some_iff, Option.pure_def,
      Option.some.injEq, List.cons.injEq, List.forall_mem_cons, ← each described, ← ih]
    constructor
    · rintro ⟨_, head, _, tail, rfl, rfl⟩
      exact ⟨head, tail⟩
    · rintro ⟨head, tail⟩
      exact ⟨_, head, _, tail, rfl, rfl⟩

theorem plain_array {describes : JSON → α → Prop} (decodes : Decodes decode describes) :
    Plain (decodeArray decode) (Listed describes) where
  decodes := by
    rintro _ values ⟨items, rfl, entries⟩
    have each : ∀ {json x}, describes json x → (decode json = some x ↔ True) :=
      fun described => iff_true_intro (decodes _ _ described)
    exact (mapM_eq_some_iff entries each).mpr fun _ _ => trivial
  notNull := rfl

end MoviesApp.JSON
