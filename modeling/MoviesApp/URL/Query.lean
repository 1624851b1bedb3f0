import MoviesApp.URL

/-! Reading a URL's query: the fragment is cut off at the first `#`, the query starts
after the first `?`, `&` separates parameters and the first `=` a name from its value.
Percent escapes are bytes of UTF-8; `+` stands for itself. -/
namespace MoviesApp.URL

def hexValue (c : Char) : Nat :=
  if c.isDigit then c.toNat - '0'.toNat
  else if 'a' ≤ c ∧ c ≤ 'f' then c.toNat - 'a'.toNat + 10
  else c.toNat - 'A'.toNat + 10

/-- The bytes a component stands for. -/
def percentDecode : List Char → List UInt8
  | [] => []
  | '%' :: a :: b :: rest => UInt8.ofNat (16 * hexValue a + hexValue b) :: percentDecode rest
  | c :: rest => String.utf8EncodeChar c ++ percentDecode rest

/-- A component's text, nil when its bytes are no UTF-8. -/
def removingPercentEncoding (component : List Char) : Option String :=
  String.fromUTF8? (percentDecode component).toByteArray

/-- A parameter's name, and its value where there is an equals sign. -/
def queryItem (parameter : List Char) : Option (String × Option String) := do
  let name ← removingPercentEncoding (parameter.takeWhile (· != '='))
  match parameter.dropWhile (· != '=') with
  | [] => return (name, none)
  | _ :: value =>
    let value ← removingPercentEncoding value
    return (name, some value)

/-- What stands between the first question mark and the fragment. -/
def query (text : List Char) : List Char :=
  ((text.takeWhile (· != '#')).dropWhile (· != '?')).drop 1

def queryItems (url : URL) : Option (List (String × Option String)) :=
  ((query url.absoluteString.toList).splitOn '&').mapM queryItem

variable {component start rest : List Char} {text : String}

theorem fromUTF8?_eq_some {bytes : ByteArray} :
    String.fromUTF8? bytes = some text ↔ text.toByteArray = bytes := by
  unfold String.fromUTF8?
  constructor
  · intro decoded
    split at decoded
    · cases decoded
      rfl
    · exact nomatch decoded
  · rintro rfl
    rw [dif_pos text.isValidUTF8]
    rfl

/-- A component reads as itself exactly when its bytes are its own encoding. -/
theorem removingPercentEncoding_self_iff :
    removingPercentEncoding component = some (String.ofList component) ↔
      percentDecode component = component.flatMap String.utf8EncodeChar := by
  rw [removingPercentEncoding, fromUTF8?_eq_some, String.toByteArray_ofList, List.utf8Encode,
    List.toByteArray_inj]
  exact eq_comm

theorem escaped_cons {c : Char} (plain : c ≠ '%') : escaped (c :: rest) = escaped rest := by
  rw [escaped]
  · intro _ _ _ escape _
    exact plain escape
  · intro escape
    exact plain escape

theorem percentDecode_cons {c : Char} (plain : c ≠ '%') :
    percentDecode (c :: rest) = String.utf8EncodeChar c ++ percentDecode rest := by
  rw [percentDecode]
  intro _ _ _ escape _
  exact plain escape

theorem percentDecode_plain (plain : '%' ∉ component) :
    percentDecode component = component.flatMap String.utf8EncodeChar := by
  induction component with
  | nil => rfl
  | cons c rest ih =>
    obtain ⟨head, tail⟩ := not_or.mp (List.mem_cons.not.mp plain)
    rw [percentDecode_cons (Ne.symm head), ih tail, List.flatMap_cons]

theorem encoded_pos (c : Char) : 0 < (String.utf8EncodeChar c).length :=
  List.length_pos_iff.mpr String.utf8EncodeChar_ne_nil

/-- Decoding never makes bytes: an escape is three characters for one byte. -/
theorem percentDecode_length_le (component : List Char) :
    (percentDecode component).length ≤ (component.flatMap String.utf8EncodeChar).length := by
  induction component using percentDecode.induct with
  | case1 => exact Nat.le_refl _
  | case2 a b rest ih =>
    have escape := encoded_pos '%'
    simp only [percentDecode, List.flatMap_cons, List.length_append, List.length_cons]
    omega
  | case3 c rest plain ih =>
    rw [percentDecode]
    · simp only [List.flatMap_cons, List.length_append]
      omega
    · exact plain

theorem percentDecode_length_lt (valid : escaped component = true) (escape : '%' ∈ component) :
    (percentDecode component).length < (component.flatMap String.utf8EncodeChar).length := by
  induction component using percentDecode.induct with
  | case1 => exact nomatch escape
  | case2 a b rest ih =>
    have first := encoded_pos a
    have second := encoded_pos b
    have third := encoded_pos '%'
    have rest := percentDecode_length_le rest
    simp only [percentDecode, List.flatMap_cons, List.length_append, List.length_cons]
    omega
  | case3 c rest plain ih =>
    by_cases percent : c = '%'
    · -- An escape cut short is not valid.
      subst percent
      rcases rest with _ | ⟨a, _ | ⟨b, rest⟩⟩
      · exact nomatch valid
      · exact nomatch valid
      · exact (plain a b rest rfl rfl).elim
    · rw [escaped_cons percent] at valid
      have later := ih valid ((List.mem_cons.mp escape).resolve_left (Ne.symm percent))
      rw [percentDecode_cons percent]
      simp only [List.flatMap_cons, List.length_append]
      omega

/-- A valid component reads as itself exactly when nothing in it is escaped. -/
theorem removingPercentEncoding_iff (valid : escaped component = true) :
    removingPercentEncoding component = some (String.ofList component) ↔ '%' ∉ component := by
  rw [removingPercentEncoding_self_iff]
  constructor
  · intro same escape
    have shorter := percentDecode_length_lt valid escape
    rw [same] at shorter
    exact Nat.lt_irrefl _ shorter
  · exact percentDecode_plain

theorem escaped_append (plain : '%' ∉ start) : escaped (start ++ rest) = escaped rest := by
  induction start with
  | nil => rfl
  | cons c tail ih =>
    obtain ⟨head, later⟩ := not_or.mp (List.mem_cons.not.mp plain)
    rw [List.cons_append, escaped_cons (Ne.symm head), ih later]

theorem escaped_plain (plain : '%' ∉ component) : escaped component = true := by
  rw [← List.append_nil component, escaped_append plain]
  rfl

theorem ofString?_eq_some {url : URL} :
    URL.ofString? text = some url ↔ ∃ valid, url = ⟨text, valid⟩ := by
  unfold URL.ofString?
  constructor
  · intro made
    split at made
    · rename_i valid
      cases made
      exact ⟨valid, rfl⟩
    · exact nomatch made
  · rintro ⟨valid, rfl⟩
    rw [dif_pos valid]

theorem takeWhile_ne_append {stop : Char} (absent : stop ∉ start) :
    (start ++ rest).takeWhile (· != stop) = start ++ rest.takeWhile (· != stop) :=
  List.takeWhile_append_of_pos fun _ member =>
    bne_iff_ne.mpr fun same => absent (same ▸ member)

theorem takeWhile_ne_self {stop : Char} (absent : stop ∉ component) :
    component.takeWhile (· != stop) = component := by
  have all := @takeWhile_ne_append component [] stop absent
  rwa [List.takeWhile_nil, List.append_nil] at all

theorem dropWhile_ne_append {stop : Char} (absent : stop ∉ start) :
    (start ++ rest).dropWhile (· != stop) = rest.dropWhile (· != stop) :=
  List.dropWhile_append_of_pos fun _ member =>
    bne_iff_ne.mpr fun same => absent (same ▸ member)

theorem query_append (noFragment : '#' ∉ start) (noQuery : '?' ∉ start) :
    query (start ++ '?' :: rest) = rest.takeWhile (· != '#') := by
  rw [query, takeWhile_ne_append noFragment, dropWhile_ne_append noQuery]
  rfl

/-- A name without escapes, and the value after the first equals sign. -/
theorem queryItem_append (noValue : '=' ∉ start) (plain : '%' ∉ start) :
    queryItem (start ++ '=' :: rest) =
      (removingPercentEncoding rest).map fun value => (String.ofList start, some value) := by
  have name : removingPercentEncoding start = some (String.ofList start) :=
    removingPercentEncoding_self_iff.mpr (percentDecode_plain plain)
  have found : ('=' :: rest).takeWhile (· != '=') = [] := rfl
  have value : ('=' :: rest).dropWhile (· != '=') = '=' :: rest := rfl
  rw [queryItem, takeWhile_ne_append noValue, dropWhile_ne_append noValue, found, value,
    List.append_nil, name]
  simp only [Option.bind_eq_bind, Option.bind_some]
  cases removingPercentEncoding rest <;> rfl

theorem mapM_length {α β : Type} {f : α → Option β} {parts : List α} {items : List β}
    (read : parts.mapM f = some items) :
    items.length = parts.length := by
  induction parts generalizing items with
  | nil => cases Option.some.inj read; rfl
  | cons part rest ih =>
    simp only [List.mapM_cons, Option.bind_eq_bind, Option.bind_eq_some_iff, Option.pure_def,
      Option.some.injEq] at read
    obtain ⟨item, _, later, tail, rfl⟩ := read
    rw [List.length_cons, List.length_cons, ih tail]

theorem two_le_splitOn_length (member : '&' ∈ component) :
    2 ≤ (component.splitOn '&').length := by
  obtain ⟨before, after, rfl⟩ := List.append_of_mem member
  have first := List.length_pos_iff.mpr (List.splitOn_ne_nil '&' before)
  have second := List.length_pos_iff.mpr (List.splitOn_ne_nil '&' after)
  rw [List.splitOn_append_cons_self, List.length_append]
  omega

theorem takeWhile_length_lt {stop : Char} (member : stop ∈ component) :
    ((component.takeWhile (· != stop)).flatMap String.utf8EncodeChar).length <
      (component.flatMap String.utf8EncodeChar).length := by
  induction component with
  | nil => exact nomatch member
  | cons c rest ih =>
    have head := encoded_pos c
    by_cases here : c = stop
    · subst here
      have cut : (c :: rest).takeWhile (· != c) = [] := by
        rw [List.takeWhile_cons, bne_self_eq_false, if_neg Bool.false_ne_true]
      rw [cut]
      simp only [List.flatMap_nil, List.flatMap_cons, List.length_append, List.length_nil]
      omega
    · have later := ih ((List.mem_cons.mp member).resolve_left (Ne.symm here))
      rw [List.takeWhile_cons, if_pos (bne_iff_ne.mpr here)]
      simp only [List.flatMap_cons, List.length_append]
      omega

end MoviesApp.URL
