import MoviesApp.Screens.Details
import MoviesApp.Screens.MainMenu
import MoviesApp.Screens.SearchRequest

/-! The addresses that the screens ask for. Each is a fixed path, a phrase at the end of one or
an id inside one; the path tells the model apart, and the address tells the id. -/
namespace MoviesApp.Addresses
open URL

/-- The characters of an id. -/
def numeral (c : Char) : Bool := c.isDigit || c == '-'

def base : List Char := "https://api.themoviedb.org/3/".toList

def moviePath : List Char := "movie/".toList

def apiStart : String := "https://api.themoviedb.org/3"

def movieStart : String := "https://api.themoviedb.org/3/movie/"

/-! What follows the id in the three addresses of a movie. -/

def keyEnd : String := "?api_key=83224e1665f2c91754d1c03ad23dd491"

def castEnd : String := "/credits?api_key=83224e1665f2c91754d1c03ad23dd491"

def reviewsEnd : String := "/reviews?api_key=83224e1665f2c91754d1c03ad23dd491"

/-- The model that is asked for at an address of the app, read off the path. -/
def modelAt (address : List Char) : Model :=
  match address.drop base.length with
  | 'g' :: _ => .genres
  | 's' :: _ => .movies
  | path =>
    match (path.drop moviePath.length).dropWhile numeral with
    | '?' :: _ => .movieDetails
    | '/' :: 'c' :: _ => .cast
    | '/' :: _ => .reviews
    | _ => .movies

theorem toString_numeral (id : Int) : ∀ c ∈ (toString id).toList, numeral c = true := by
  have digits (n : Nat) : ∀ c ∈ n.repr.toList, numeral c = true := by
    intro c member
    rw [Nat.toList_repr] at member
    rw [numeral, Nat.isDigit_of_mem_toDigits (by decide) (by decide) member, Bool.true_or]
  rw [Int.toString_eq_repr, Int.repr_eq_if]
  split
  · exact digits _
  · rw [String.toList_append]
    refine List.forall_mem_append.mpr ⟨?_, digits _⟩
    have sign : "-".toList = ['-'] := String.toList_ofList
    exact sign ▸ List.forall_mem_singleton.mpr rfl

/-- The id that a numeral stands for. -/
def idOf : List Char → Int
  | '-' :: digits => -(Nat.ofDigitChars 10 digits 0 : Int)
  | digits => Nat.ofDigitChars 10 digits 0

theorem idOf_toString (id : Int) : idOf (toString id).toList = id := by
  rw [Int.toString_eq_repr, Int.repr_eq_if]
  split
  · rename_i positive
    have unsigned : ∀ digits, Nat.toDigits 10 id.toNat ≠ '-' :: digits := by
      intro digits same
      have sign : '-'.isDigit = true := Nat.isDigit_of_mem_toDigits (by decide) (by decide)
        (same ▸ List.mem_cons_self)
      exact absurd sign (by decide)
    rw [Nat.toList_repr, idOf.eq_2 _ unsigned, Nat.ofDigitChars_ten_toDigits]
    exact Int.toNat_of_nonneg positive
  · rename_i negative
    have sign : "-".toList = ['-'] := String.toList_ofList
    rw [String.toList_append, sign, Nat.toList_repr, List.singleton_append, idOf,
      Nat.ofDigitChars_ten_toDigits]
    omega

theorem toString_ne_nil (id : Int) : (toString id).toList ≠ [] := by
  rw [Int.toString_eq_repr, Int.repr_eq_if]
  split
  · rw [Nat.toList_repr]
    exact Nat.toDigits_ne_nil
  · rw [String.toList_append]
    exact List.append_ne_nil_of_left_ne_nil (by decide) _

theorem movieStart_toList : movieStart.toList = base ++ moviePath := by
  have whole : movieStart.toList = _ := String.toList_ofList
  have start : base = _ := String.toList_ofList
  have path : moviePath = _ := String.toList_ofList
  rw [whole, start, path]
  rfl

theorem movieURL_eq (movieId : String) : Details.movieURL movieId = movieStart ++ movieId ++ keyEnd := rfl

theorem castURL_eq (id : String) : Details.castURL id = movieStart ++ id ++ castEnd := rfl

theorem reviewsURL_eq (id : String) : Details.reviewsURL id = movieStart ++ id ++ reviewsEnd := rfl

theorem moviesURL_eq (urlString : String) :
    MainMenu.moviesURL urlString = apiStart ++ urlString ++ keyEnd := rfl

theorem around_toList (movieId finish : String) : (movieStart ++ movieId ++ finish).toList =
    base ++ (moviePath ++ (movieId.toList ++ finish.toList)) := by
  rw [String.toList_append, String.toList_append, movieStart_toList, List.append_assoc,
    List.append_assoc]

/-- Below the path of the movies, what follows the digits decides. -/
theorem modelAt_movie (rest : List Char) : modelAt (base ++ (moviePath ++ rest)) =
    match rest.dropWhile numeral with
    | '?' :: _ => .movieDetails
    | '/' :: 'c' :: _ => .cast
    | '/' :: _ => .reviews
    | _ => .movies := by
  have path : (base ++ (moviePath ++ rest)).drop base.length = moviePath ++ rest := List.drop_left
  rw [modelAt, path]
  rfl

/-- After the digits of an id comes what tells its three addresses apart. -/
theorem dropWhile_id (id : Int) {c : Char} (rest : List Char) (other : numeral c = false) :
    ((toString id).toList ++ c :: rest).dropWhile numeral = c :: rest := by
  rw [List.dropWhile_append_of_pos (toString_numeral id), List.dropWhile_cons_of_neg (by simp [other])]

theorem modelAt_movieURL (id : Int) :
    modelAt (Details.movieURL (toString id)).toList = .movieDetails := by
  have finish : keyEnd.toList = '?' :: _ := String.toList_ofList
  rw [movieURL_eq, around_toList, modelAt_movie, finish, dropWhile_id id _ (by decide)]
  rfl

theorem modelAt_castURL (id : Int) : modelAt (Details.castURL (toString id)).toList = .cast := by
  have finish : castEnd.toList = '/' :: 'c' :: _ := String.toList_ofList
  rw [castURL_eq, around_toList, modelAt_movie, finish, dropWhile_id id _ (by decide)]
  rfl

theorem modelAt_reviewsURL (id : Int) :
    modelAt (Details.reviewsURL (toString id)).toList = .reviews := by
  have finish : reviewsEnd.toList = '/' :: 'r' :: _ := String.toList_ofList
  rw [reviewsURL_eq, around_toList, modelAt_movie, finish, dropWhile_id id _ (by decide)]
  rfl

theorem searchURL_path (searchPhrase : String) :
    ∃ rest, (Search.searchURL searchPhrase).toList = base ++ 's' :: rest := by
  have start : Search.searchStart.toList = _ := String.toList_ofList
  have common : base = _ := String.toList_ofList
  rw [Search.searchURL_toList, start, common]
  exact ⟨_, rfl⟩

theorem rawValue_toList (path : MainMenu.MoviePath) :
    ∃ c name, path.rawValue.toList = '/' :: (moviePath ++ c :: name) ∧ numeral c = false ∧
      c ≠ '?' ∧ c ≠ '/' := by
  have movie : moviePath = _ := String.toList_ofList
  rw [movie]
  cases path with
  | popular => exact ⟨'p', _, String.toList_ofList, by decide⟩
  | topRated => exact ⟨'t', _, String.toList_ofList, by decide⟩
  | upcoming => exact ⟨'u', _, String.toList_ofList, by decide⟩

theorem moviesURL_toList (path : MainMenu.MoviePath) :
    ∃ c name, (MainMenu.moviesURL path.rawValue).toList = base ++ (moviePath ++ c :: name) ∧
      numeral c = false ∧ c ≠ '?' ∧ c ≠ '/' := by
  obtain ⟨c, name, raw, letter⟩ := rawValue_toList path
  have start : base = apiStart.toList ++ ['/'] := by
    have whole : base = _ := String.toList_ofList
    have first : apiStart.toList = _ := String.toList_ofList
    rw [whole, first]
    rfl
  refine ⟨c, name ++ keyEnd.toList, ?_, letter⟩
  rw [moviesURL_eq, String.toList_append, String.toList_append, start, raw]
  simp only [List.cons_append, List.nil_append, List.append_assoc]

theorem modelAt_searchURL (searchPhrase : String) :
    modelAt (Search.searchURL searchPhrase).toList = .movies := by
  obtain ⟨rest, shape⟩ := searchURL_path searchPhrase
  have path : (base ++ 's' :: rest).drop base.length = 's' :: rest := List.drop_left
  rw [shape, modelAt, path]
  rfl

theorem modelAt_moviesURL (path : MainMenu.MoviePath) :
    modelAt (MainMenu.moviesURL path.rawValue).toList = .movies := by
  obtain ⟨c, name, shape, letter, query, slash⟩ := moviesURL_toList path
  rw [shape, modelAt_movie, List.dropWhile_cons_of_neg (by simp [letter])]
  split
  · rename_i same
    exact absurd (List.cons.inj same).1 query
  · rename_i same
    exact absurd (List.cons.inj same).1 slash
  · rename_i same
    exact absurd (List.cons.inj same).1 slash
  · rfl

theorem modelAt_genresURL : modelAt MainMenu.genresURL.toList = .genres := by
  have whole : MainMenu.genresURL.toList = _ := String.toList_ofList
  have common : base = _ := String.toList_ofList
  rw [modelAt, whole, common]
  rfl

/-- All that the app ever asks the server for. -/
inductive Address where
  | genres
  | category (path : MainMenu.MoviePath)
  | search (searchPhrase : String)
  | movie (id : Int)
  | cast (id : Int)
  | reviews (id : Int)

def Address.string : Address → String
  | genres => MainMenu.genresURL
  | category path => MainMenu.moviesURL path.rawValue
  | search searchPhrase => Search.searchURL searchPhrase
  | movie id => Details.movieURL (toString id)
  | cast id => Details.castURL (toString id)
  | reviews id => Details.reviewsURL (toString id)

def Address.model : Address → Model
  | genres => .genres
  | category _ | search _ => .movies
  | movie _ => .movieDetails
  | cast _ => .cast
  | reviews _ => .reviews

theorem Address.modelAt_string (address : Address) :
    modelAt address.string.toList = address.model := by
  cases address with
  | genres => exact modelAt_genresURL
  | category path => exact modelAt_moviesURL path
  | search searchPhrase => exact modelAt_searchURL searchPhrase
  | movie id => exact modelAt_movieURL id
  | cast id => exact modelAt_castURL id
  | reviews id => exact modelAt_reviewsURL id

theorem around_inj {first second : Int} {finish : String}
    (same : movieStart ++ toString first ++ finish = movieStart ++ toString second ++ finish) :
    first = second := by
  have lists := congrArg String.toList same
  rw [around_toList, around_toList] at lists
  have ids := List.append_cancel_right (List.append_cancel_left (List.append_cancel_left lists))
  rw [← idOf_toString first, ids, idOf_toString]

theorem moviesURL_inj {first second : MainMenu.MoviePath}
    (same : MainMenu.moviesURL first.rawValue = MainMenu.moviesURL second.rawValue) :
    first = second := by
  revert same
  cases first <;> cases second
  case popular.popular | topRated.topRated | upcoming.upcoming => exact fun _ => rfl
  all_goals exact fun same => absurd same (by decide +kernel)

theorem searchURL_inj {first second : String}
    (same : Search.searchURL first = Search.searchURL second) : first = second := by
  have lists := congrArg String.toList same
  rw [Search.searchURL_toList, Search.searchURL_toList] at lists
  exact String.toList_inj.mp (List.append_cancel_left lists)

/-- A category and a search differ where their paths begin. -/
theorem moviesURL_ne_searchURL (path : MainMenu.MoviePath) (searchPhrase : String) :
    MainMenu.moviesURL path.rawValue ≠ Search.searchURL searchPhrase := by
  intro same
  obtain ⟨_, _, category, -⟩ := moviesURL_toList path
  obtain ⟨_, search⟩ := searchURL_path searchPhrase
  have start : moviePath = 'm' :: _ := String.toList_ofList
  rw [same, search, start] at category
  exact absurd (List.cons.inj (List.append_cancel_left category)).1 (by decide)

/-- No two things the app asks for have one address. -/
theorem Address.string_injective : Function.Injective Address.string := by
  intro first second same
  have models : first.model = second.model := by
    rw [← first.modelAt_string, ← second.modelAt_string, same]
  cases first with
  | genres =>
    cases second with
    | genres => rfl
    | _ => cases models
  | category path =>
    cases second with
    | category other => exact congrArg category (moviesURL_inj same)
    | search searchPhrase => exact absurd same (moviesURL_ne_searchURL path searchPhrase)
    | _ => cases models
  | search searchPhrase =>
    cases second with
    | category path => exact absurd same.symm (moviesURL_ne_searchURL path searchPhrase)
    | search other => exact congrArg search (searchURL_inj same)
    | _ => cases models
  | movie id =>
    cases second with
    | movie other => exact congrArg movie (around_inj same)
    | _ => cases models
  | cast id =>
    cases second with
    | cast other => exact congrArg cast (around_inj same)
    | _ => cases models
  | reviews id =>
    cases second with
    | reviews other => exact congrArg reviews (around_inj same)
    | _ => cases models

theorem numeral_legal {c : Char} (digit : numeral c = true) : legal c = true ∧ c ≠ '%' := by
  rcases Bool.or_eq_true .. |>.mp digit with number | sign
  · constructor
    · rw [legal, Char.isAlphanum, number, Bool.or_true, Bool.true_or]
    · rintro rfl
      exact nomatch number
  · obtain rfl := beq_iff_eq.mp sign
    decide

/-- The character stands for itself in a URL. -/
def plain (c : Char) : Bool := legal c && c != '%'

theorem wellFormed_of_plain {s : String} (start : s.toList ≠ [])
    (each : s.toList.all plain = true) : wellFormed s = true := by
  have allowed : s.toList.all legal = true := by
    refine List.all_eq_true.mpr fun c member => ?_
    exact (Bool.and_eq_true_iff.mp (List.all_eq_true.mp each c member)).1
  have percent : '%' ∉ s.toList := fun member =>
    nomatch List.all_eq_true.mp each '%' member
  rw [wellFormed, allowed, escaped_plain percent, List.isEmpty_eq_false_iff.mpr start]
  rfl

theorem id_plain (id : Int) : (toString id).toList.all plain = true := by
  refine List.all_eq_true.mpr fun c member => ?_
  obtain ⟨allowed, other⟩ := numeral_legal (toString_numeral id c member)
  rw [plain, allowed, Bool.true_and, bne_iff_ne]
  exact other

theorem literal_plain {s : String} {chars : List Char} (same : s = String.ofList chars)
    (each : chars.all plain = true) : s.toList.all plain = true := by
  rw [same, String.toList_ofList]
  exact each

theorem apiStart_plain : apiStart.toList.all plain = true := literal_plain rfl rfl

theorem movieStart_plain : movieStart.toList.all plain = true := literal_plain rfl rfl

theorem keyEnd_plain : keyEnd.toList.all plain = true := literal_plain rfl rfl

theorem castEnd_plain : castEnd.toList.all plain = true := literal_plain rfl rfl

theorem reviewsEnd_plain : reviewsEnd.toList.all plain = true := literal_plain rfl rfl

theorem rawValue_plain (path : MainMenu.MoviePath) : path.rawValue.toList.all plain = true := by
  cases path with
  | popular | topRated | upcoming => exact literal_plain rfl rfl

theorem wellFormed_around {start middle finish : String} (first : start.toList.all plain = true)
    (second : middle.toList.all plain = true) (third : finish.toList.all plain = true)
    (nonempty : middle.toList ≠ []) : wellFormed (start ++ middle ++ finish) = true := by
  apply wellFormed_of_plain
  · rw [String.toList_append, String.toList_append]
    exact List.append_ne_nil_of_left_ne_nil (List.append_ne_nil_of_right_ne_nil _ nonempty) _
  · rw [String.toList_append, String.toList_append, List.all_append, List.all_append, first, second,
      third]
    rfl

theorem moviesURL_wellFormed (path : MainMenu.MoviePath) :
    wellFormed (MainMenu.moviesURL path.rawValue) = true := by
  obtain ⟨_, _, name, -⟩ := rawValue_toList path
  exact wellFormed_around apiStart_plain (rawValue_plain path) keyEnd_plain (by rw [name]; nofun)

theorem genresURL_wellFormed : wellFormed MainMenu.genresURL = true := by
  have whole : MainMenu.genresURL.toList = 'h' :: _ := String.toList_ofList
  exact wellFormed_of_plain (by rw [whole]; nofun) (literal_plain rfl rfl)

/-- Whatever the app asks for has an address of its own, which names the model; and the
address is a URL, unless it ends in a search phrase. -/
theorem addresses_distinct (first second : Address) :
    (first.string = second.string ↔ first = second) ∧
      modelAt first.string.toList = first.model ∧
      ((∀ searchPhrase, first ≠ .search searchPhrase) → (URL.ofString? first.string).isSome) := by
  refine ⟨Address.string_injective.eq_iff, first.modelAt_string, fun fixed => ?_⟩
  have made {s : String} (valid : wellFormed s = true) : (URL.ofString? s).isSome :=
    Option.isSome_of_eq_some (ofString?_eq_some.mpr ⟨valid, rfl⟩)
  have around {id : Int} {finish : String} (ends : finish.toList.all plain = true) :
      wellFormed (movieStart ++ toString id ++ finish) = true :=
    wellFormed_around movieStart_plain (id_plain id) ends (toString_ne_nil id)
  cases first with
  | genres => exact made genresURL_wellFormed
  | category path => exact made (moviesURL_wellFormed path)
  | search searchPhrase => exact absurd rfl (fixed searchPhrase)
  | movie id => exact made (around keyEnd_plain)
  | cast id => exact made (around castEnd_plain)
  | reviews id => exact made (around reviewsEnd_plain)

end MoviesApp.Addresses
