import MoviesApp.JSON

/-! The response models with their decoders, written by hand over `CodingKays` or
synthesised where the Swift type declares none. -/
namespace MoviesApp
open JSON

structure MovieInfo where
  poster : Option String
  id : Option Int
  title : Option String
  backdropPath : Option String
  genre : Option (List Int)
  overview : Option String
  releaseDate : Option String
  originalLanguage : Option String
  voteAverage : Option ℚ
  deriving DecidableEq

/-- Every property is Optional, yet every key is decoded with its plain type. -/
def MovieInfo.decode (json : JSON) : Option MovieInfo := do
  let container ← json.container
  let poster ← decodeKey decodeString container "poster_path"
  let id ← decodeKey decodeInt container "id"
  let title ← decodeKey decodeString container "title"
  let backdropPath ← decodeKey decodeString container "backdrop_path"
  let genre ← decodeKey (decodeArray decodeInt) container "genre_ids"
  let overview ← decodeKey decodeString container "overview"
  let releaseDate ← decodeKey decodeString container "release_date"
  let originalLanguage ← decodeKey decodeString container "original_language"
  let voteAverage ← decodeKey decodeDouble container "vote_average"
  return ⟨some poster, some id, some title, some backdropPath, some genre, some overview,
    some releaseDate, some originalLanguage, some voteAverage⟩

structure MoviesResponce where
  results : List MovieInfo
  deriving DecidableEq

def MoviesResponce.decode (json : JSON) : Option MoviesResponce := do
  let container ← json.container
  let results ← decodeKey (decodeArray MovieInfo.decode) container "results"
  return ⟨results⟩

structure Genres where
  id : Option Int
  name : Option String
  deriving DecidableEq

def Genres.decode (json : JSON) : Option Genres := do
  let container ← json.container
  let id ← decodeIfPresent decodeInt container "id"
  let name ← decodeIfPresent decodeString container "name"
  return ⟨id, name⟩

structure MovieDetailsResponce where
  poster : Option String
  id : Option Int
  title : Option String
  backdropPath : Option String
  genres : Option (List Genres)
  overview : Option String
  releaseDate : Option String
  originalLanguage : Option String
  voteAverage : Option ℚ
  deriving DecidableEq

def MovieDetailsResponce.decode (json : JSON) : Option MovieDetailsResponce := do
  let container ← json.container
  let poster ← decodeKey decodeString container "poster_path"
  let id ← decodeKey decodeInt container "id"
  let title ← decodeKey decodeString container "title"
  let backdropPath ← decodeKey decodeString container "backdrop_path"
  let genres ← decodeKey (decodeArray Genres.decode) container "genres"
  let overview ← decodeKey decodeString container "overview"
  let releaseDate ← decodeKey decodeString container "release_date"
  let originalLanguage ← decodeKey decodeString container "original_language"
  let voteAverage ← decodeKey decodeDouble container "vote_average"
  return ⟨some poster, some id, some title, some backdropPath, some genres, some overview,
    some releaseDate, some originalLanguage, some voteAverage⟩

structure ActorInfo where
  name : Option String
  profilePath : Option String
  deriving DecidableEq

def ActorInfo.decode (json : JSON) : Option ActorInfo := do
  let container ← json.container
  let name ← decodeKey (decodeOptional decodeString) container "name"
  let profilePath ← decodeKey (decodeOptional decodeString) container "profile_path"
  return ⟨name, profilePath⟩

structure CastResponce where
  id : Option Int
  cast : List ActorInfo
  deriving DecidableEq

def CastResponce.decode (json : JSON) : Option CastResponce := do
  let container ← json.container
  let id ← decodeIfPresent decodeInt container "id"
  let cast ← decodeKey (decodeArray ActorInfo.decode) container "cast"
  return ⟨id, cast⟩

structure AuthorInfo where
  avatarPath : Option String
  deriving DecidableEq

def AuthorInfo.decode (json : JSON) : Option AuthorInfo := do
  let container ← json.container
  let avatarPath ← decodeKey (decodeOptional decodeString) container "avatar_path"
  return ⟨avatarPath⟩

structure Review where
  author : Option String
  authorDetails : AuthorInfo
  content : Option String
  deriving DecidableEq

def Review.decode (json : JSON) : Option Review := do
  let container ← json.container
  let author ← decodeKey (decodeOptional decodeString) container "author"
  let authorDetails ← decodeKey AuthorInfo.decode container "author_details"
  let content ← decodeKey (decodeOptional decodeString) container "content"
  return ⟨author, authorDetails, content⟩

structure ReviewsResponce where
  results : List Review
  deriving DecidableEq

def ReviewsResponce.decode (json : JSON) : Option ReviewsResponce := do
  let container ← json.container
  let results ← decodeKey (decodeArray Review.decode) container "results"
  return ⟨results⟩

structure Genre where
  id : Int
  name : String
  deriving DecidableEq

def Genre.decode (json : JSON) : Option Genre := do
  let container ← json.container
  let id ← decodeKey decodeInt container "id"
  let name ← decodeKey decodeString container "name"
  return ⟨id, name⟩

structure GenresOfMovie where
  genres : List Genre
  deriving DecidableEq

def GenresOfMovie.decode (json : JSON) : Option GenresOfMovie := do
  let container ← json.container
  let genres ← decodeKey (decodeArray Genre.decode) container "genres"
  return ⟨genres⟩

/-- A movie that decoded has its list of genres, which may be empty. -/
theorem MovieInfo.decode_genre {json : JSON} {movie : MovieInfo}
    (decoded : MovieInfo.decode json = some movie) : ∃ genresId, movie.genre = some genresId := by
  simp only [MovieInfo.decode, Option.bind_eq_bind, Option.bind_eq_some_iff] at decoded
  obtain ⟨_, _, _, _, _, _, _, _, _, _, genresId, _, _, _, _, _, _, _, _, _, built⟩ := decoded
  cases Option.some.inj built
  exact ⟨genresId, rfl⟩

theorem MoviesResponce.decode_genre {json : JSON} {responce : MoviesResponce}
    (decoded : MoviesResponce.decode json = some responce) {movie : MovieInfo}
    (member : movie ∈ responce.results) : ∃ genresId, movie.genre = some genresId := by
  simp only [MoviesResponce.decode, decodeKey, Option.bind_eq_bind, Option.bind_eq_some_iff] at decoded
  obtain ⟨_, _, results, ⟨_, _, listed⟩, built⟩ := decoded
  cases Option.some.inj built
  obtain ⟨item, entry⟩ := decodeArray_mem listed member
  exact MovieInfo.decode_genre entry

/-- A movie that decoded has an id and a title, whatever the property types allow. -/
theorem MovieDetailsResponce.decode_identified {json : JSON} {movie : MovieDetailsResponce}
    (decoded : MovieDetailsResponce.decode json = some movie) :
    ∃ id title, movie.id = some id ∧ movie.title = some title := by
  simp only [MovieDetailsResponce.decode, Option.bind_eq_bind, Option.bind_eq_some_iff] at decoded
  obtain ⟨_, _, _, _, id, _, title, _, _, _, _, _, _, _, _, _, _, _, _, _, built⟩ := decoded
  cases Option.some.inj built
  exact ⟨id, title, rfl, rfl⟩

theorem MovieDetailsResponce.decode_voted {json : JSON} {movie : MovieDetailsResponce}
    (decoded : MovieDetailsResponce.decode json = some movie) : movie.voteAverage.isSome := by
  simp only [MovieDetailsResponce.decode, Option.bind_eq_bind, Option.bind_eq_some_iff] at decoded
  obtain ⟨_, _, _, _, _, _, _, _, _, _, _, _, _, _, _, _, _, _, _, _, built⟩ := decoded
  cases Option.some.inj built
  rfl

end MoviesApp
