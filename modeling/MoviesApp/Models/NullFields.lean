import MoviesApp.JSON.Described
import MoviesApp.Models.Responses

/-! Null in the fields the Swift types declare Optional. A document that has every key
and holds in each Optional field null or a value of its type describes one record.
The cast and reviews decoders ask for Optional types and read every such document; the
movie decoders ask for plain types, so one null loses the movie and the list around it. -/
namespace MoviesApp
open JSON

section describes
variable (fields : List (String × JSON))

structure MovieInfo.Describes (movie : MovieInfo) : Prop where
  poster : Present fields "poster_path" (Nullable IsString) movie.poster
  id : Present fields "id" (Nullable IsInt) movie.id
  title : Present fields "title" (Nullable IsString) movie.title
  backdropPath : Present fields "backdrop_path" (Nullable IsString) movie.backdropPath
  genre : Present fields "genre_ids" (Nullable (Listed IsInt)) movie.genre
  overview : Present fields "overview" (Nullable IsString) movie.overview
  releaseDate : Present fields "release_date" (Nullable IsString) movie.releaseDate
  originalLanguage : Present fields "original_language" (Nullable IsString) movie.originalLanguage
  voteAverage : Present fields "vote_average" (Nullable IsDouble) movie.voteAverage

def MoviesResponce.Describes (movies : MoviesResponce) : Prop :=
  Present fields "results" (Listed (Keyed MovieInfo.Describes)) movies.results

structure Genres.Describes (genre : Genres) : Prop where
  id : Present fields "id" (Nullable IsInt) genre.id
  name : Present fields "name" (Nullable IsString) genre.name

structure MovieDetailsResponce.Describes (movie : MovieDetailsResponce) : Prop where
  poster : Present fields "poster_path" (Nullable IsString) movie.poster
  id : Present fields "id" (Nullable IsInt) movie.id
  title : Present fields "title" (Nullable IsString) movie.title
  backdropPath : Present fields "backdrop_path" (Nullable IsString) movie.backdropPath
  genres : Present fields "genres" (Nullable (Listed (Keyed Genres.Describes))) movie.genres
  overview : Present fields "overview" (Nullable IsString) movie.overview
  releaseDate : Present fields "release_date" (Nullable IsString) movie.releaseDate
  originalLanguage : Present fields "original_language" (Nullable IsString) movie.originalLanguage
  voteAverage : Present fields "vote_average" (Nullable IsDouble) movie.voteAverage

structure ActorInfo.Describes (actor : ActorInfo) : Prop where
  name : Present fields "name" (Nullable IsString) actor.name
  profilePath : Present fields "profile_path" (Nullable IsString) actor.profilePath

structure CastResponce.Describes (response : CastResponce) : Prop where
  id : Present fields "id" (Nullable IsInt) response.id
  cast : Present fields "cast" (Listed (Keyed ActorInfo.Describes)) response.cast

def AuthorInfo.Describes (author : AuthorInfo) : Prop :=
  Present fields "avatar_path" (Nullable IsString) author.avatarPath

structure Review.Describes (review : Review) : Prop where
  author : Present fields "author" (Nullable IsString) review.author
  authorDetails : Present fields "author_details" (Keyed AuthorInfo.Describes) review.authorDetails
  content : Present fields "content" (Nullable IsString) review.content

def ReviewsResponce.Describes (reviews : ReviewsResponce) : Prop :=
  Present fields "results" (Listed (Keyed Review.Describes)) reviews.results

end describes

variable {json : JSON}

/-! The cast and reviews decoders -/

theorem ActorInfo.decodes : Decodes decode (Keyed Describes) := by
  rintro _ _ ⟨fields, rfl, entries⟩
  simp only [decode, container, Option.bind_eq_bind, Option.bind_some,
    decodeKey_optional plain_string entries.name,
    decodeKey_optional plain_string entries.profilePath, Option.pure_def]

theorem CastResponce.decodes : Decodes decode (Keyed Describes) := by
  rintro _ _ ⟨fields, rfl, entries⟩
  simp only [decode, container, Option.bind_eq_bind, Option.bind_some,
    decodeIfPresent_nullable plain_int entries.id,
    decodeKey_present (plain_array ActorInfo.decodes).decodes entries.cast, Option.pure_def]

theorem AuthorInfo.decodes : Decodes decode (Keyed Describes) := by
  rintro _ _ ⟨fields, rfl, avatarPath⟩
  simp only [decode, container, Option.bind_eq_bind, Option.bind_some,
    decodeKey_optional plain_string avatarPath, Option.pure_def]

theorem Review.decodes : Decodes decode (Keyed Describes) := by
  rintro _ _ ⟨fields, rfl, entries⟩
  simp only [decode, container, Option.bind_eq_bind, Option.bind_some,
    decodeKey_optional plain_string entries.author,
    decodeKey_present AuthorInfo.decodes entries.authorDetails,
    decodeKey_optional plain_string entries.content, Option.pure_def]

theorem ReviewsResponce.decodes : Decodes decode (Keyed Describes) := by
  rintro _ _ ⟨fields, rfl, results⟩
  simp only [decode, container, Option.bind_eq_bind, Option.bind_some,
    decodeKey_present (plain_array Review.decodes).decodes results, Option.pure_def]

theorem Genres.decodes : Decodes decode (Keyed Describes) := by
  rintro _ _ ⟨fields, rfl, entries⟩
  simp only [decode, container, Option.bind_eq_bind, Option.bind_some,
    decodeIfPresent_nullable plain_int entries.id,
    decodeIfPresent_nullable plain_string entries.name, Option.pure_def]

/-! The movie decoders -/

/-- The keys read with a plain type into an Optional property. -/
def MovieInfo.plainKeys : List String :=
  ["poster_path", "id", "title", "backdrop_path", "genre_ids", "overview", "release_date",
    "original_language", "vote_average"]

def MovieDetailsResponce.plainKeys : List String :=
  ["poster_path", "id", "title", "backdrop_path", "genres", "overview", "release_date",
    "original_language", "vote_average"]

/-- The plain calls answer nil for null, and the record is lost: what is left of the
decoder is the question whether all nine fields are there. -/
theorem MovieInfo.decode_iff (movie : MovieInfo) (described : Keyed Describes json movie) :
    decode json = some movie ↔ json.NullFree plainKeys := by
  obtain ⟨fields, rfl, entries⟩ := described
  have genre := plain_array plain_int.decodes
  simp only [NullFree, JSON.object.injEq, forall_eq', plainKeys, List.forall_mem_cons,
    ← present_nullable_isSome plain_string entries.poster,
    ← present_nullable_isSome plain_int entries.id,
    ← present_nullable_isSome plain_string entries.title,
    ← present_nullable_isSome plain_string entries.backdropPath,
    ← present_nullable_isSome genre entries.genre,
    ← present_nullable_isSome plain_string entries.overview,
    ← present_nullable_isSome plain_string entries.releaseDate,
    ← present_nullable_isSome plain_string entries.originalLanguage,
    ← present_nullable_isSome plain_double entries.voteAverage, Option.isSome_iff_exists]
  simp only [decode, container, Option.bind_eq_bind, Option.bind_some, Option.bind_eq_some_iff,
    decodeKey_nullable plain_string entries.poster,
    decodeKey_nullable plain_int entries.id,
    decodeKey_nullable plain_string entries.title,
    decodeKey_nullable plain_string entries.backdropPath,
    decodeKey_nullable genre entries.genre,
    decodeKey_nullable plain_string entries.overview,
    decodeKey_nullable plain_string entries.releaseDate,
    decodeKey_nullable plain_string entries.originalLanguage,
    decodeKey_nullable plain_double entries.voteAverage]
  constructor
  · rintro ⟨_, poster, _, id, _, title, _, backdropPath, _, genre, _, overview, _, releaseDate, _,
      originalLanguage, _, voteAverage, _⟩
    exact ⟨⟨_, poster⟩, ⟨_, id⟩, ⟨_, title⟩, ⟨_, backdropPath⟩, ⟨_, genre⟩, ⟨_, overview⟩,
      ⟨_, releaseDate⟩, ⟨_, originalLanguage⟩, ⟨_, voteAverage⟩, List.forall_mem_nil _⟩
  · rintro ⟨⟨_, poster⟩, ⟨_, id⟩, ⟨_, title⟩, ⟨_, backdropPath⟩, ⟨_, genre⟩, ⟨_, overview⟩,
      ⟨_, releaseDate⟩, ⟨_, originalLanguage⟩, ⟨_, voteAverage⟩, _⟩
    refine ⟨_, poster, _, id, _, title, _, backdropPath, _, genre, _, overview, _, releaseDate, _,
      originalLanguage, _, voteAverage, ?_⟩
    rw [← poster, ← id, ← title, ← backdropPath, ← genre, ← overview, ← releaseDate,
      ← originalLanguage, ← voteAverage]
    rfl

theorem MovieDetailsResponce.decode_iff (movie : MovieDetailsResponce) (described : Keyed Describes json movie) :
    decode json = some movie ↔ json.NullFree plainKeys := by
  obtain ⟨fields, rfl, entries⟩ := described
  have genres := plain_array Genres.decodes
  simp only [NullFree, JSON.object.injEq, forall_eq', plainKeys, List.forall_mem_cons,
    ← present_nullable_isSome plain_string entries.poster,
    ← present_nullable_isSome plain_int entries.id,
    ← present_nullable_isSome plain_string entries.title,
    ← present_nullable_isSome plain_string entries.backdropPath,
    ← present_nullable_isSome genres entries.genres,
    ← present_nullable_isSome plain_string entries.overview,
    ← present_nullable_isSome plain_string entries.releaseDate,
    ← present_nullable_isSome plain_string entries.originalLanguage,
    ← present_nullable_isSome plain_double entries.voteAverage, Option.isSome_iff_exists]
  simp only [decode, container, Option.bind_eq_bind, Option.bind_some, Option.bind_eq_some_iff,
    decodeKey_nullable plain_string entries.poster,
    decodeKey_nullable plain_int entries.id,
    decodeKey_nullable plain_string entries.title,
    decodeKey_nullable plain_string entries.backdropPath,
    decodeKey_nullable genres entries.genres,
    decodeKey_nullable plain_string entries.overview,
    decodeKey_nullable plain_string entries.releaseDate,
    decodeKey_nullable plain_string entries.originalLanguage,
    decodeKey_nullable plain_double entries.voteAverage]
  constructor
  · rintro ⟨_, poster, _, id, _, title, _, backdropPath, _, genres, _, overview, _, releaseDate, _,
      originalLanguage, _, voteAverage, _⟩
    exact ⟨⟨_, poster⟩, ⟨_, id⟩, ⟨_, title⟩, ⟨_, backdropPath⟩, ⟨_, genres⟩, ⟨_, overview⟩,
      ⟨_, releaseDate⟩, ⟨_, originalLanguage⟩, ⟨_, voteAverage⟩, List.forall_mem_nil _⟩
  · rintro ⟨⟨_, poster⟩, ⟨_, id⟩, ⟨_, title⟩, ⟨_, backdropPath⟩, ⟨_, genres⟩, ⟨_, overview⟩,
      ⟨_, releaseDate⟩, ⟨_, originalLanguage⟩, ⟨_, voteAverage⟩, _⟩
    refine ⟨_, poster, _, id, _, title, _, backdropPath, _, genres, _, overview, _, releaseDate, _,
      originalLanguage, _, voteAverage, ?_⟩
    rw [← poster, ← id, ← title, ← backdropPath, ← genres, ← overview, ← releaseDate,
      ← originalLanguage, ← voteAverage]
    rfl

/-- No entry of the list holds a null at a key its decoder reads with a plain type. -/
def MoviesResponce.NullFree (json : JSON) : Prop :=
  ∀ fields, json = .object fields → ∀ items, fields.lookup "results" = some (.array items) →
    ∀ item ∈ items, item.NullFree MovieInfo.plainKeys

theorem MoviesResponce.decode_iff (movies : MoviesResponce)
    (described : Keyed Describes json movies) :
    decode json = some movies ↔ NullFree json := by
  obtain ⟨fields, rfl, _, found, items, rfl, entries⟩ := described
  have whole := mapM_eq_some_iff entries fun described => MovieInfo.decode_iff _ described
  simp only [NullFree, JSON.object.injEq, forall_eq', found, Option.some.injEq, JSON.array.injEq,
    ← whole]
  simp only [decode, container, decodeKey, found, decodeArray, Option.bind_eq_bind,
    Option.bind_some, Option.bind_eq_some_iff, Option.pure_def, Option.some.injEq]
  constructor
  · rintro ⟨_, decoded, rfl⟩
    exact decoded
  · intro decoded
    exact ⟨_, decoded, rfl⟩

/-- A response in which every key is present and every Optional field holds null or a value
of its type is read as the record it describes: always for cast and reviews, and for
movies exactly when no field of a movie is null. -/
theorem null_fields_kept_iff (json : JSON) :
    (∀ movies, Keyed MoviesResponce.Describes json movies →
      (MoviesResponce.decode json = some movies ↔ MoviesResponce.NullFree json)) ∧
    (∀ movie, Keyed MovieDetailsResponce.Describes json movie →
      (MovieDetailsResponce.decode json = some movie ↔
        json.NullFree MovieDetailsResponce.plainKeys)) ∧
    (∀ response, Keyed CastResponce.Describes json response →
      CastResponce.decode json = some response) ∧
    (∀ reviews, Keyed ReviewsResponce.Describes json reviews →
      ReviewsResponce.decode json = some reviews) :=
  ⟨MoviesResponce.decode_iff, MovieDetailsResponce.decode_iff, CastResponce.decodes json,
    ReviewsResponce.decodes json⟩

/-- A movie's entry as TMDB sends it, with any value under `poster_path`. -/
def heatEntry (poster : JSON) : List (String × JSON) :=
  [("poster_path", poster), ("id", .number 949), ("title", .string "Heat"),
    ("backdrop_path", .string "/b.jpg"), ("genre_ids", .array [.number 28]),
    ("genres", .array [.object [("id", .null), ("name", .string "Crime")]]),
    ("overview", .string "A heist."), ("release_date", .string "1995-12-15"),
    ("original_language", .string "en"), ("vote_average", .number 8)]

def heatInfo (poster : Option String) : MovieInfo :=
  ⟨poster, some 949, some "Heat", some "/b.jpg", some [28], some "A heist.", some "1995-12-15",
    some "en", some 8⟩

def heatDetails : MovieDetailsResponce :=
  ⟨some "/p.jpg", some 949, some "Heat", some "/b.jpg", some [⟨none, some "Crime"⟩],
    some "A heist.", some "1995-12-15", some "en", some 8⟩

theorem heatInfo_described {poster : JSON} {value : Option String}
    (held : Nullable IsString poster value) :
    Keyed MovieInfo.Describes (.object (heatEntry poster)) (heatInfo value) := by
  refine ⟨_, rfl, ⟨_, rfl, held⟩, ⟨_, rfl, .value ⟨rfl, by decide, by decide⟩⟩, ⟨_, rfl, .value rfl⟩,
    ⟨_, rfl, .value rfl⟩, ⟨_, rfl, .value ⟨_, rfl, .cons ⟨rfl, by decide, by decide⟩ .nil⟩⟩,
    ⟨_, rfl, .value rfl⟩, ⟨_, rfl, .value rfl⟩, ⟨_, rfl, .value rfl⟩, ⟨_, rfl, .value rfl⟩⟩

/-- One movie without a poster, and the whole list is lost. -/
theorem null_poster_loses_list :
    Keyed MoviesResponce.Describes (.object [("results", .array [.object (heatEntry .null)])])
      ⟨[heatInfo none]⟩ ∧
    MoviesResponce.decode (.object [("results", .array [.object (heatEntry .null)])]) = none :=
  ⟨⟨_, rfl, _, rfl, _, rfl, .cons (heatInfo_described .null) .nil⟩, rfl⟩

theorem null_fields_kept_heat :
    MoviesResponce.decode
      (.object [("results", .array [.object (heatEntry (.string "/p.jpg"))])]) =
      some ⟨[heatInfo (some "/p.jpg")]⟩ ∧
    MovieDetailsResponce.decode (.object (heatEntry (.string "/p.jpg"))) = some heatDetails ∧
    CastResponce.decode (.object [("id", .null), ("cast", .array [.object
      [("name", .string "Al Pacino"), ("profile_path", .null)]])]) =
      some ⟨none, [⟨some "Al Pacino", none⟩]⟩ ∧
    ReviewsResponce.decode (.object [("results", .array [.object [("author", .null),
      ("author_details", .object [("avatar_path", .null)]), ("content", .string "Fine")]])]) =
      some ⟨[⟨none, ⟨none⟩, some "Fine"⟩]⟩ := by
  refine ⟨((null_fields_kept_iff _).1 _ ?_).mpr ?_, ((null_fields_kept_iff _).2.1 _ ?_).mpr ?_,
    (null_fields_kept_iff _).2.2.1 _ ?_, (null_fields_kept_iff _).2.2.2 _ ?_⟩
  · exact ⟨_, rfl, _, rfl, _, rfl, .cons (heatInfo_described (.value rfl)) .nil⟩
  · rintro _ ⟨⟩ _ ⟨⟩ _ (_ | ⟨_, ⟨⟩⟩) _ ⟨⟩
    simp [MovieInfo.plainKeys, heatEntry, List.lookup_cons]
  · refine ⟨_, rfl, ⟨_, rfl, .value rfl⟩, ⟨_, rfl, .value ⟨rfl, by decide, by decide⟩⟩,
      ⟨_, rfl, .value rfl⟩, ⟨_, rfl, .value rfl⟩,
      ⟨_, rfl, .value ⟨_, rfl, .cons ⟨_, rfl, ⟨_, rfl, .null⟩, ⟨_, rfl, .value rfl⟩⟩ .nil⟩⟩,
      ⟨_, rfl, .value rfl⟩, ⟨_, rfl, .value rfl⟩, ⟨_, rfl, .value rfl⟩, ⟨_, rfl, .value rfl⟩⟩
  · rintro _ ⟨⟩
    simp [MovieDetailsResponce.plainKeys, heatEntry, List.lookup_cons]
  · exact ⟨_, rfl, ⟨_, rfl, .null⟩, _, rfl, _, rfl,
      .cons ⟨_, rfl, ⟨_, rfl, .value rfl⟩, _, rfl, .null⟩ .nil⟩
  · exact ⟨_, rfl, _, rfl, _, rfl, .cons ⟨_, rfl, ⟨_, rfl, .null⟩,
      ⟨_, rfl, _, rfl, _, rfl, .null⟩, _, rfl, .value rfl⟩ .nil⟩

end MoviesApp
