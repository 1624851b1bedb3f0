import MoviesApp.Models.NullFields

/-! Encoding the response models. The hand-written decoders read over an enum named
`CodingKays`, which the compiler does not take for the type's `CodingKeys`: it
synthesises `encode(to:)` over the property names. Nil properties are left out. -/
namespace MoviesApp

namespace JSON
variable {α : Type} {decode : JSON → Option α} {encode : α → JSON} {values : List α}
  {fields : List (String × JSON)} {key : String} {properties : List (String × Option JSON)}

/-- A synthesised `encode(to:)`: one key a property, and `encodeIfPresent` for nil. -/
def encodeProperties (properties : List (String × Option JSON)) : List (String × JSON) :=
  properties.filterMap fun (key, value) => value.map (key, ·)

def encodeInt (n : Int) : JSON := .number n

def encodeArray (encode : α → JSON) (values : List α) : JSON := .array (values.map encode)

theorem lookup_encodeProperties_none (absent : key ∉ properties.map Prod.fst) :
    (encodeProperties properties).lookup key = none := by
  induction properties with
  | nil => rfl
  | cons property rest ih =>
    obtain ⟨name, value⟩ := property
    simp only [List.map_cons, List.mem_cons, not_or] at absent
    have later := ih absent.2
    cases value with
    | none => exact later
    | some json =>
      have other : (key == name) = false := beq_eq_false_iff_ne.mpr absent.1
      rw [← later]
      simp only [encodeProperties, List.filterMap_cons, Option.map_some, List.lookup_cons, other]

theorem decodeKey_absent (absent : key ∉ properties.map Prod.fst) :
    decodeKey decode (encodeProperties properties) key = none := by
  simp only [decodeKey, lookup_encodeProperties_none absent, Option.bind_none]

theorem decodeInt_encodeInt {json : JSON} {n : Int} (decoded : decodeInt json = some n) :
    decodeInt (encodeInt n) = some n := by
  cases json with
  | number value =>
    simp only [decodeInt, Option.ite_none_right_eq_some, Option.some.injEq] at decoded
    obtain ⟨⟨_, low, high⟩, rfl⟩ := decoded
    simp only [encodeInt, decodeInt, Rat.den_intCast, Rat.num_intCast, low, high, and_self, if_true]
  | _ => cases decoded

theorem decodeInt_encodeInt_present {n : Int}
    (decoded : decodeIfPresent decodeInt fields key = some (some n)) :
    decodeInt (encodeInt n) = some n := by
  simp only [decodeIfPresent] at decoded
  split at decoded
  · cases decoded
  · rename_i json _
    cases json with
    | number value =>
      simp only [decodeOptional, Option.map_eq_some_iff, Option.some.injEq, exists_eq_right] at decoded
      exact decodeInt_encodeInt decoded
    | _ => cases decoded

/-- Where no entry survives the round trip, only the empty list does. -/
theorem decodeArray_lost (lost : ∀ value, decode (encode value) = none) :
    decodeArray decode (encodeArray encode values) = some values ↔ values = [] := by
  cases values with
  | nil => exact iff_of_true rfl rfl
  | cons value rest =>
    simp only [encodeArray, decodeArray, List.map_cons, List.mapM_cons, lost, Option.bind_eq_bind,
      Option.bind_none, reduceCtorEq]

theorem decodeArray_kept {json : JSON}
    (kept : ∀ {json value}, decode json = some value → decode (encode value) = some value)
    (decoded : decodeArray decode json = some values) :
    decodeArray decode (encodeArray encode values) = some values := by
  cases json with
  | array items =>
    simp only [encodeArray, decodeArray] at decoded ⊢
    induction items generalizing values with
    | nil =>
      cases Option.some.inj decoded
      rfl
    | cons item rest ih =>
      simp only [List.mapM_cons, Option.bind_eq_bind, Option.bind_eq_some_iff, Option.pure_def,
        Option.some.injEq] at decoded
      obtain ⟨value, head, tail, later, rfl⟩ := decoded
      simp only [List.map_cons, List.mapM_cons, kept head, ih later, Option.bind_eq_bind,
        Option.bind_some, Option.pure_def]
  | _ => cases decoded

end JSON

open JSON

def MovieInfo.properties (movie : MovieInfo) : List (String × Option JSON) :=
  [("poster", movie.poster.map .string), ("id", movie.id.map encodeInt),
    ("title", movie.title.map .string), ("backdropPath", movie.backdropPath.map .string),
    ("genre", movie.genre.map (encodeArray encodeInt)), ("overview", movie.overview.map .string),
    ("releaseDate", movie.releaseDate.map .string),
    ("originalLanguage", movie.originalLanguage.map .string),
    ("voteAverage", movie.voteAverage.map .number)]

def MovieInfo.encode (movie : MovieInfo) : JSON := .object (encodeProperties movie.properties)

def MoviesResponce.properties (movies : MoviesResponce) : List (String × Option JSON) :=
  [("results", some (encodeArray MovieInfo.encode movies.results))]

def MoviesResponce.encode (movies : MoviesResponce) : JSON :=
  .object (encodeProperties movies.properties)

def Genres.properties (genre : Genres) : List (String × Option JSON) :=
  [("id", genre.id.map encodeInt), ("name", genre.name.map .string)]

def Genres.encode (genre : Genres) : JSON := .object (encodeProperties genre.properties)

def MovieDetailsResponce.properties (movie : MovieDetailsResponce) : List (String × Option JSON) :=
  [("poster", movie.poster.map .string), ("id", movie.id.map encodeInt),
    ("title", movie.title.map .string), ("backdropPath", movie.backdropPath.map .string),
    ("genres", movie.genres.map (encodeArray Genres.encode)),
    ("overview", movie.overview.map .string), ("releaseDate", movie.releaseDate.map .string),
    ("originalLanguage", movie.originalLanguage.map .string),
    ("voteAverage", movie.voteAverage.map .number)]

def MovieDetailsResponce.encode (movie : MovieDetailsResponce) : JSON :=
  .object (encodeProperties movie.properties)

def ActorInfo.properties (actor : ActorInfo) : List (String × Option JSON) :=
  [("name", actor.name.map .string), ("profilePath", actor.profilePath.map .string)]

def ActorInfo.encode (actor : ActorInfo) : JSON := .object (encodeProperties actor.properties)

def CastResponce.properties (response : CastResponce) : List (String × Option JSON) :=
  [("id", response.id.map encodeInt),
    ("cast", some (encodeArray ActorInfo.encode response.cast))]

def CastResponce.encode (response : CastResponce) : JSON :=
  .object (encodeProperties response.properties)

def AuthorInfo.properties (author : AuthorInfo) : List (String × Option JSON) :=
  [("avatarPath", author.avatarPath.map .string)]

def AuthorInfo.encode (author : AuthorInfo) : JSON := .object (encodeProperties author.properties)

def Review.properties (review : Review) : List (String × Option JSON) :=
  [("author", review.author.map .string),
    ("authorDetails", some review.authorDetails.encode), ("content", review.content.map .string)]

def Review.encode (review : Review) : JSON := .object (encodeProperties review.properties)

def ReviewsResponce.properties (reviews : ReviewsResponce) : List (String × Option JSON) :=
  [("results", some (encodeArray Review.encode reviews.results))]

def ReviewsResponce.encode (reviews : ReviewsResponce) : JSON :=
  .object (encodeProperties reviews.properties)

def Genre.properties (genre : Genre) : List (String × Option JSON) :=
  [("id", some (encodeInt genre.id)), ("name", some (.string genre.name))]

def Genre.encode (genre : Genre) : JSON := .object (encodeProperties genre.properties)

def GenresOfMovie.properties (genres : GenresOfMovie) : List (String × Option JSON) :=
  [("genres", some (encodeArray Genre.encode genres.genres))]

def GenresOfMovie.encode (genres : GenresOfMovie) : JSON :=
  .object (encodeProperties genres.properties)

/-! Types with keys of their own: the key the decoder asks for is not the property's name -/

theorem MovieInfo.decode_encode (movie : MovieInfo) : decode movie.encode = none := by
  have lost : "poster_path" ∉ movie.properties.map Prod.fst := by simp [properties]
  simp only [decode, encode, container, Option.bind_eq_bind, Option.bind_some,
    decodeKey_absent lost, Option.bind_none]

theorem MovieDetailsResponce.decode_encode (movie : MovieDetailsResponce) :
    decode movie.encode = none := by
  have lost : "poster_path" ∉ movie.properties.map Prod.fst := by simp [properties]
  simp only [decode, encode, container, Option.bind_eq_bind, Option.bind_some,
    decodeKey_absent lost, Option.bind_none]

theorem ActorInfo.decode_encode (actor : ActorInfo) : decode actor.encode = none := by
  have lost : "profile_path" ∉ actor.properties.map Prod.fst := by simp [properties]
  simp only [decode, encode, container, Option.bind_eq_bind, Option.bind_some,
    decodeKey_absent lost, Option.bind_none, Option.bind_fun_none]

theorem Review.decode_encode (review : Review) : decode review.encode = none := by
  have lost : "author_details" ∉ review.properties.map Prod.fst := by simp [properties]
  simp only [decode, encode, container, Option.bind_eq_bind, Option.bind_some,
    decodeKey_absent lost, Option.bind_none, Option.bind_fun_none]

/-! Types whose keys are the property names both ways -/

theorem Genre.decode_encode {json : JSON} {genre : Genre} (decoded : decode json = some genre) :
    decode genre.encode = some genre := by
  simp only [decode, Option.bind_eq_bind, Option.bind_eq_some_iff] at decoded
  obtain ⟨_, _, id, idDecoded, name, _, built⟩ := decoded
  cases Option.some.inj built
  obtain ⟨_, _, idDecoded⟩ := Option.bind_eq_some_iff.mp idDecoded
  have kept : decodeKey decodeInt (encodeProperties (properties ⟨id, name⟩)) "id" = some id :=
    decodeInt_encodeInt idDecoded
  simp only [decode, encode, container, Option.bind_eq_bind, Option.bind_some, kept]
  rfl

theorem GenresOfMovie.decode_encode {json : JSON} {genres : GenresOfMovie}
    (decoded : decode json = some genres) : decode genres.encode = some genres := by
  simp only [decode, Option.bind_eq_bind, Option.bind_eq_some_iff] at decoded
  obtain ⟨_, _, list, listDecoded, built⟩ := decoded
  cases Option.some.inj built
  obtain ⟨_, _, listDecoded⟩ := Option.bind_eq_some_iff.mp listDecoded
  have kept : decodeKey (decodeArray Genre.decode) (encodeProperties (properties ⟨list⟩)) "genres" =
      some list :=
    decodeArray_kept Genre.decode_encode listDecoded
  simp only [decode, encode, container, Option.bind_eq_bind, Option.bind_some, kept, Option.pure_def]

/-! Responses over such lists -/

theorem MoviesResponce.decode_encode_iff (movies : MoviesResponce) :
    decode movies.encode = some movies ↔ movies.results = [] := by
  obtain ⟨results⟩ := movies
  have whole : decodeKey (decodeArray MovieInfo.decode) (encodeProperties (properties ⟨results⟩))
      "results" = decodeArray MovieInfo.decode (encodeArray MovieInfo.encode results) := rfl
  rw [← decodeArray_lost MovieInfo.decode_encode, ← whole]
  simp only [decode, encode, container, Option.bind_eq_bind, Option.bind_some,
    Option.bind_eq_some_iff, Option.pure_def, Option.some.injEq, MoviesResponce.mk.injEq,
    exists_eq_right]

theorem ReviewsResponce.decode_encode_iff (reviews : ReviewsResponce) :
    decode reviews.encode = some reviews ↔ reviews.results = [] := by
  obtain ⟨results⟩ := reviews
  have whole : decodeKey (decodeArray Review.decode) (encodeProperties (properties ⟨results⟩))
      "results" = decodeArray Review.decode (encodeArray Review.encode results) := rfl
  rw [← decodeArray_lost Review.decode_encode, ← whole]
  simp only [decode, encode, container, Option.bind_eq_bind, Option.bind_some,
    Option.bind_eq_some_iff, Option.pure_def, Option.some.injEq, ReviewsResponce.mk.injEq,
    exists_eq_right]

theorem CastResponce.decode_encode_iff {json : JSON} {response : CastResponce}
    (decoded : decode json = some response) :
    decode response.encode = some response ↔ response.cast = [] := by
  simp only [decode, Option.bind_eq_bind, Option.bind_eq_some_iff] at decoded
  obtain ⟨fields, _, id, idDecoded, cast, _, built⟩ := decoded
  cases Option.some.inj built
  have idKept : decodeIfPresent decodeInt (encodeProperties (properties ⟨id, cast⟩)) "id" =
      some id := by
    cases id with
    | none => rfl
    | some n =>
      have kept := decodeInt_encodeInt_present idDecoded
      exact congrArg (Option.map some) kept
  have whole : decodeKey (decodeArray ActorInfo.decode) (encodeProperties (properties ⟨id, cast⟩))
      "cast" = decodeArray ActorInfo.decode (encodeArray ActorInfo.encode cast) := by
    cases id <;> rfl
  rw [← decodeArray_lost ActorInfo.decode_encode, ← whole]
  simp only [decode, encode, container, Option.bind_eq_bind, Option.bind_some, idKept,
    Option.bind_eq_some_iff, Option.pure_def, Option.some.injEq, CastResponce.mk.injEq,
    exists_eq_right, true_and]

/-- What was decoded survives encoding and decoding when it holds no movie, actor or
review: a value of those types never does, and a list of genres always. -/
theorem codable_round_trip_iff (json : JSON) :
    (∀ movies, MoviesResponce.decode json = some movies →
      (MoviesResponce.decode movies.encode = some movies ↔ movies.results = [])) ∧
    (∀ movie, MovieDetailsResponce.decode json = some movie →
      MovieDetailsResponce.decode movie.encode ≠ some movie) ∧
    (∀ response, CastResponce.decode json = some response →
      (CastResponce.decode response.encode = some response ↔ response.cast = [])) ∧
    (∀ reviews, ReviewsResponce.decode json = some reviews →
      (ReviewsResponce.decode reviews.encode = some reviews ↔ reviews.results = [])) ∧
    (∀ genres, GenresOfMovie.decode json = some genres →
      GenresOfMovie.decode genres.encode = some genres) := by
  refine ⟨fun movies _ => movies.decode_encode_iff, fun movie _ => ?_,
    fun _ => CastResponce.decode_encode_iff, fun reviews _ => reviews.decode_encode_iff,
    fun _ => GenresOfMovie.decode_encode⟩
  rw [movie.decode_encode]
  exact nofun

/-- One actor, decoded and encoded: the profile's key has become `profilePath`. -/
theorem actor_lost_in_round_trip :
    CastResponce.decode (.object [("id", .number 949), ("cast", .array [.object
      [("name", .string "Al Pacino"), ("profile_path", .string "/a.jpg")]])]) =
      some ⟨some 949, [⟨some "Al Pacino", some "/a.jpg"⟩]⟩ ∧
    CastResponce.decode (CastResponce.encode ⟨some 949, [⟨some "Al Pacino", some "/a.jpg"⟩]⟩) =
      none :=
  ⟨rfl, rfl⟩

theorem codable_round_trip_crime :
    MoviesResponce.decode (MoviesResponce.encode ⟨[]⟩) = some ⟨[]⟩ ∧
    MovieDetailsResponce.decode heatDetails.encode ≠ some heatDetails ∧
    CastResponce.decode (CastResponce.encode ⟨none, []⟩) = some ⟨none, []⟩ ∧
    ReviewsResponce.decode (ReviewsResponce.encode ⟨[]⟩) = some ⟨[]⟩ ∧
    GenresOfMovie.decode (GenresOfMovie.encode ⟨[⟨80, "Crime"⟩]⟩) = some ⟨[⟨80, "Crime"⟩]⟩ := by
  refine ⟨?_, ?_, ?_, ?_, ?_⟩
  · have movies := (codable_round_trip_iff (.object [("results", .array [])])).1
    exact (movies ⟨[]⟩ rfl).mpr rfl
  · have details := (codable_round_trip_iff (.object (heatEntry (.string "/p.jpg")))).2.1
    exact details heatDetails rfl
  · have cast := (codable_round_trip_iff (.object [("id", .null), ("cast", .array [])])).2.2.1
    exact (cast ⟨none, []⟩ rfl).mpr rfl
  · have reviews := (codable_round_trip_iff (.object [("results", .array [])])).2.2.2.1
    exact (reviews ⟨[]⟩ rfl).mpr rfl
  · have genres := (codable_round_trip_iff (.object [("genres", .array [.object
      [("id", .number 80), ("name", .string "Crime")]])])).2.2.2.2
    exact genres ⟨[⟨80, "Crime"⟩]⟩ rfl

end MoviesApp
