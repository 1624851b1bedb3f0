import MoviesApp.Models.Responses
import MoviesApp.Services.NetworkService

/-! The models the app loads from the movie database, as `load` decodes them. -/
namespace MoviesApp

inductive Model where
  | movies
  | movieDetails
  | cast
  | reviews
  | genres
  deriving DecidableEq

@[reducible] def Model.Value : Model → Type
  | movies => MoviesResponce
  | movieDetails => MovieDetailsResponce
  | cast => CastResponce
  | reviews => ReviewsResponce
  | genres => GenresOfMovie

def Model.decode : (model : Model) → JSON → Option model.Value
  | movies => MoviesResponce.decode
  | movieDetails => MovieDetailsResponce.decode
  | cast => CastResponce.decode
  | reviews => ReviewsResponce.decode
  | genres => GenresOfMovie.decode

/-- A body that is no JSON document at all is `none`. -/
def tmdb : Codec where
  Body := Option JSON
  Model := Model
  Value := Model.Value
  decode model body := body.bind model.decode

/-- What a completion for the model receives as its first argument. -/
def received (model : Model) (value : Option tmdb.Any) : Option model.Value :=
  value.bind (tmdb.cast? model)

theorem received_value (model : Model) (value : model.Value) :
    received model (some ⟨model, value⟩) = some value :=
  Codec.cast?_eq_some.mpr rfl

/-- One entry of a list of movies, as the server sends it. -/
def movieJSON (id : Nat) (title : String) : JSON :=
  .object [("poster_path", .string "/p.jpg"), ("id", .number id), ("title", .string title),
    ("backdrop_path", .string "/b.jpg"), ("genre_ids", .array []), ("overview", .string ""),
    ("release_date", .string "1995-12-15"), ("original_language", .string "en"),
    ("vote_average", .number 8)]

end MoviesApp
