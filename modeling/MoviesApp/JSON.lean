import Mathlib.Algebra.Group.Int.Defs
import Mathlib.Data.Rat.Defs

/-! JSON documents and the decoding calls the Swift models make. A decoder that
throws is `none`; the text of a decoding error reaches no caller. -/
namespace MoviesApp

inductive JSON where
  | null
  | bool (b : Bool)
  | number (value : ℚ)
  | string (s : String)
  | array (items : List JSON)
  | object (fields : List (String × JSON))

namespace JSON
variable {α : Type}

def decodeString : JSON → Option String
  | string s => some s
  | _ => none

/-- Swift's `Int` is 64 bits wide; a number that is no such integer throws. -/
def decodeInt : JSON → Option Int
  | number value =>
    if value.den = 1 ∧ -2 ^ 63 ≤ value.num ∧ value.num < 2 ^ 63 then some value.num else none
  | _ => none

/-- A `Double`, kept exact: rounding is not modelled. -/
def decodeDouble : JSON → Option ℚ
  | number value => some value
  | _ => none

/-- One throwing element fails the whole array. -/
def decodeArray (decode : JSON → Option α) : JSON → Option (List α)
  | array items => items.mapM decode
  | _ => none

/-- The call `decoder.container(keyedBy:)`. -/
def container : JSON → Option (List (String × JSON))
  | object fields => some fields
  | _ => none

/-- The call `decode(T.self, forKey:)`: a missing key throws, and so does a null unless `T` takes it. -/
def decodeKey (decode : JSON → Option α) (fields : List (String × JSON)) (key : String) : Option α :=
  (fields.lookup key).bind decode

/-- An `Optional<T>` takes null as nil. -/
def decodeOptional (decode : JSON → Option α) : JSON → Option (Option α)
  | null => some none
  | json => (decode json).map some

/-- The call `decodeIfPresent(T.self, forKey:)`, which the compiler uses for Optional properties. -/
def decodeIfPresent (decode : JSON → Option α) (fields : List (String × JSON)) (key : String) :
    Option (Option α) :=
  match fields.lookup key with
  | none => some none
  | some json => decodeOptional decode json

/-- Every element of a decoded list was decoded itself. -/
theorem decodeArray_mem {decode : JSON → Option α} {json : JSON} {values : List α} {x : α}
    (decoded : decodeArray decode json = some values) (member : x ∈ values) :
    ∃ item, decode item = some x := by
  cases json with
  | array items =>
    have listed : items.mapM decode = some values := decoded
    clear decoded
    induction items generalizing values with
    | nil =>
      cases listed
      contradiction
    | cons item rest ih =>
      simp only [List.mapM_cons, Option.bind_eq_bind, Option.bind_eq_some_iff] at listed
      obtain ⟨first, head, later, tail, built⟩ := listed
      cases Option.some.inj built
      rcases List.mem_cons.mp member with rfl | further
      · exact ⟨item, head⟩
      · exact ih further tail
  | _ => contradiction

end JSON
end MoviesApp
