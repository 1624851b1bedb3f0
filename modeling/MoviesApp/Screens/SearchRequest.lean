import MoviesApp.Screens.Search
import MoviesApp.URL.Query

/-! The search request's URL. The phrase is spliced into the query as typed, so the
request asks for it exactly when no character of it means anything to a URL. -/
namespace MoviesApp.Search
open URL NetworkService

def apiKey : String := "83224e1665f2c91754d1c03ad23dd491"

/-- The request's URL exists, and its query asks for the phrase and nothing else. -/
def AsksFor (request : Request tmdb Nat) (searchPhrase : String) : Prop :=
  ∃ url, request.url = some url ∧
    url.queryItems = some [("api_key", some apiKey), ("query", some searchPhrase)]

/-- Every character is one a URL allows and stands for itself in a query. -/
def Verbatim (searchPhrase : String) : Prop :=
  ∀ c ∈ searchPhrase.toList, legal c = true ∧ c ≠ '#' ∧ c ≠ '&' ∧ c ≠ '%'

/-! The URL around the phrase -/

def searchStart : String :=
  "https://api.themoviedb.org/3/search/movie?api_key=83224e1665f2c91754d1c03ad23dd491&query="

def path : List Char := "https://api.themoviedb.org/3/search/movie".toList

def keyName : List Char := "api_key".toList

def queryName : List Char := "query".toList

/-- The query up to the phrase. -/
def queryStart : List Char := keyName ++ '=' :: (apiKey.toList ++ '&' :: (queryName ++ ['=']))

theorem searchStart_toList : searchStart.toList = path ++ '?' :: queryStart := by
  decide +kernel

theorem searchURL_toList (searchPhrase : String) :
    (searchURL searchPhrase).toList = searchStart.toList ++ searchPhrase.toList :=
  String.toList_append

theorem searchURL_wellFormed (searchPhrase : String) :
    wellFormed (searchURL searchPhrase) = true ↔
      (∀ c ∈ searchPhrase.toList, legal c = true) ∧ escaped searchPhrase.toList = true := by
  have plain : '%' ∉ searchStart.toList := by decide +kernel
  have allowed : searchStart.toList.all legal = true := by decide +kernel
  have typed : (searchStart.toList ++ searchPhrase.toList).isEmpty = false := by
    rw [searchStart_toList]
    rfl
  rw [wellFormed, searchURL_toList, typed, escaped_append plain, List.all_append, allowed]
  simp only [Bool.not_false, Bool.true_and, Bool.and_eq_true, List.all_eq_true]

/-- The request's query, up to the first fragment sign of the phrase. -/
theorem searchURL_query (searchPhrase : String) :
    query (searchURL searchPhrase).toList =
      queryStart ++ searchPhrase.toList.takeWhile (· != '#') := by
  have outside : '#' ∉ path ∧ '?' ∉ path := by decide +kernel
  have inside : '#' ∉ queryStart := by decide +kernel
  rw [searchURL_toList, searchStart_toList, List.append_assoc, List.cons_append,
    query_append outside.1 outside.2, takeWhile_ne_append inside]

/-- What the parser makes of the part of the phrase before a fragment sign. -/
theorem queryItems_start (visible : List Char) :
    ((queryStart ++ visible).splitOn '&').mapM queryItem =
      (((queryName ++ '=' :: visible).splitOn '&').mapM queryItem).map
        fun items => ("api_key", some apiKey) :: items := by
  have start : queryStart ++ visible =
      (keyName ++ '=' :: apiKey.toList) ++ '&' :: (queryName ++ '=' :: visible) := by
    simp only [queryStart, List.append_assoc, List.cons_append, List.nil_append]
  have noSeparator : '&' ∉ keyName ++ '=' :: apiKey.toList := by decide +kernel
  have key : queryItem (keyName ++ '=' :: apiKey.toList) = some ("api_key", some apiKey) := by
    decide +kernel
  rw [start, List.splitOn_append_cons_self_of_not_mem noSeparator, List.mapM_cons, key]
  cases ((queryName ++ '=' :: visible).splitOn '&').mapM queryItem <;> rfl

theorem queryItems_alone {visible : List Char} (alone : '&' ∉ visible) :
    ((queryName ++ '=' :: visible).splitOn '&').mapM queryItem =
      (removingPercentEncoding visible).map fun value => [("query", some value)] := by
  have plain : '=' ∉ queryName ∧ '%' ∉ queryName := by decide +kernel
  have name : String.ofList queryName = "query" := by decide +kernel
  have single : '&' ∉ queryName ++ '=' :: visible := by
    have start : '&' ∉ queryName ++ ['='] := by decide +kernel
    rw [List.append_cons, List.mem_append]
    exact not_or.mpr ⟨start, alone⟩
  rw [List.splitOn_eq_singleton single, List.mapM_cons, List.mapM_nil,
    queryItem_append plain.1 plain.2, name]
  cases removingPercentEncoding visible <;> rfl

/-- One parameter is left when nothing separates, and its value is what is read of the phrase. -/
theorem queryItems_phrase {visible : List Char} {searchPhrase : String} :
    ((queryName ++ '=' :: visible).splitOn '&').mapM queryItem =
        some [("query", some searchPhrase)] ↔
      '&' ∉ visible ∧ removingPercentEncoding visible = some searchPhrase := by
  constructor
  · intro read
    have alone : '&' ∉ visible := by
      intro separated
      have parts := two_le_splitOn_length (List.mem_append_right queryName
        (List.mem_cons_of_mem '=' separated))
      rw [← mapM_length read, List.length_singleton] at parts
      exact Nat.not_succ_le_self 1 parts
    rw [queryItems_alone alone] at read
    obtain ⟨value, decoded, same⟩ := Option.map_eq_some_iff.mp read
    cases same
    exact ⟨alone, decoded⟩
  · rintro ⟨alone, decoded⟩
    rw [queryItems_alone alone, decoded, Option.map_some]

/-- The phrase comes back when it has no fragment sign and no escape. The bytes decide:
what a fragment sign cuts off, and what an escape abbreviates, is missing. -/
theorem decoded_iff {searchPhrase : String} (valid : escaped searchPhrase.toList = true) :
    removingPercentEncoding (searchPhrase.toList.takeWhile (· != '#')) = some searchPhrase ↔
      '#' ∉ searchPhrase.toList ∧ '%' ∉ searchPhrase.toList := by
  constructor
  · intro decoded
    have whole : '#' ∉ searchPhrase.toList := by
      intro fragment
      rw [removingPercentEncoding, fromUTF8?_eq_some, ← String.utf8Encode_toList, List.utf8Encode,
        List.toByteArray_inj] at decoded
      have cut := takeWhile_length_lt fragment
      have short := percentDecode_length_le (searchPhrase.toList.takeWhile (· != '#'))
      rw [← decoded] at short
      omega
    rw [takeWhile_ne_self whole] at decoded
    exact ⟨whole, (removingPercentEncoding_iff valid).mp (by rwa [String.ofList_toList])⟩
  · rintro ⟨whole, plain⟩
    have read := (removingPercentEncoding_iff valid).mpr plain
    rwa [String.ofList_toList, ← takeWhile_ne_self whole] at read

/-- What the parser finds in the request's URL. -/
theorem queryItems_iff {searchPhrase : String} (valid : wellFormed (searchURL searchPhrase) = true) :
    queryItems ⟨searchURL searchPhrase, valid⟩ =
        some [("api_key", some apiKey), ("query", some searchPhrase)] ↔
      '#' ∉ searchPhrase.toList ∧ '&' ∉ searchPhrase.toList ∧ '%' ∉ searchPhrase.toList := by
  have complete := ((searchURL_wellFormed searchPhrase).mp valid).2
  simp only [queryItems, searchURL_query, queryItems_start, Option.map_eq_some_iff,
    List.cons.injEq, true_and, exists_eq_right, queryItems_phrase, decoded_iff complete]
  constructor
  · rintro ⟨alone, whole, plain⟩
    rw [takeWhile_ne_self whole] at alone
    exact ⟨whole, alone, plain⟩
  · rintro ⟨whole, alone, plain⟩
    rw [takeWhile_ne_self whole]
    exact ⟨alone, whole, plain⟩

/-- For every phrase: the search makes one request, and it asks for exactly the phrase
if and only if the phrase reads as itself in a URL. -/
theorem asks_for_phrase_iff (s : State) (searchPhrase : String) (typed : searchPhrase ≠ "") :
    ∃ request, (findMovie s searchPhrase).2 = [request] ∧
      (AsksFor request searchPhrase ↔ Verbatim searchPhrase) := by
  refine ⟨⟨URL.ofString? (searchURL searchPhrase), .movies, s.searches.length⟩, ?_, ?_⟩
  · rw [findMovie, if_pos (length_pos_iff.mpr typed)]
  · constructor
    · rintro ⟨url, exists_, items⟩
      obtain ⟨valid, rfl⟩ := ofString?_eq_some.mp exists_
      obtain ⟨whole, alone, plain⟩ := (queryItems_iff valid).mp items
      have allowed := ((searchURL_wellFormed searchPhrase).mp valid).1
      exact fun c member => ⟨allowed c member, fun same => whole (same ▸ member),
        fun same => alone (same ▸ member), fun same => plain (same ▸ member)⟩
    · intro verbatim
      have plain : '%' ∉ searchPhrase.toList := fun member => (verbatim _ member).2.2.2 rfl
      have valid := (searchURL_wellFormed searchPhrase).mpr
        ⟨fun c member => (verbatim c member).1, escaped_plain plain⟩
      exact ⟨_, ofString?_eq_some.mpr ⟨valid, rfl⟩, (queryItems_iff valid).mpr
        ⟨fun member => (verbatim _ member).2.1 rfl, fun member => (verbatim _ member).2.2.1 rfl,
          plain⟩⟩

theorem asks_for_phrase_heat :
    ∃ request, (findMovie .start "Heat+1995").2 = [request] ∧ AsksFor request "Heat+1995" := by
  obtain ⟨request, made, asks⟩ := asks_for_phrase_iff .start "Heat+1995" (by decide)
  have plain : "Heat+1995".toList.all (fun c => legal c && c != '#' && c != '&' && c != '%') := by
    decide +kernel
  refine ⟨request, made, asks.mpr fun c member => ?_⟩
  simpa [and_assoc] using List.all_eq_true.mp plain c member

/-- A space ends the search: the string is no URL, and `load` returns at once. -/
theorem phrase_with_space_not_asked_for :
    (findMovie .start "Tom Hanks").2 = [⟨none, .movies, 0⟩] ∧
      ¬ ∃ request ∈ (findMovie .start "Tom Hanks").2, AsksFor request "Tom Hanks" := by
  have made : (findMovie .start "Tom Hanks").2 = [⟨none, .movies, 0⟩] := by
    have url : URL.ofString? (searchURL "Tom Hanks") = none := by decide +kernel
    rw [findMovie, if_pos (by decide), url]
    rfl
  refine ⟨made, ?_⟩
  rw [made]
  rintro ⟨request, member, url, exists_, _⟩
  cases List.mem_singleton.mp member
  exact nomatch exists_

end MoviesApp.Search
