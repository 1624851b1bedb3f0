import MoviesApp.Transition
import MoviesApp.Pool
import MoviesApp.ReadModifyWrite
import MoviesApp.Firestore
import MoviesApp.JSON
import MoviesApp.URL
import MoviesApp.Models.Responses
import MoviesApp.Services.NetworkService
import MoviesApp.Services.Client
import MoviesApp.Services.Ledger
import MoviesApp.Services.TMDB
import MoviesApp.Services.Completions
import MoviesApp.Services.Cache
import MoviesApp.History.Upload
import MoviesApp.History.LostUpdates
import MoviesApp.History.Screen
import MoviesApp.History.WellFormed
import MoviesApp.Services.Uncached
import MoviesApp.Screens.Search
import MoviesApp.Screens.MainMenu
import MoviesApp.Services.Outstanding
import MoviesApp.Screens.Details
import MoviesApp.Screens.Recording
import MoviesApp.Screens.Registration
import MoviesApp.Extensions.UIImageView
import MoviesApp.Screens.Cells
import MoviesApp.Screens.Profile
import MoviesApp.JSON.Described
import MoviesApp.Models.NullFields
import MoviesApp.Models.RoundTrip
import MoviesApp.Screens.SearchRequest
import MoviesApp.Screens.Login
import MoviesApp.Screens.LastAccount
import MoviesApp.Screens.AvatarUpload
import MoviesApp.Screens.Registered
import MoviesApp.Screens.NewProfile
import MoviesApp.History.Owners
import MoviesApp.Screens.UserHistory
import MoviesApp.Reload
import MoviesApp.Screens.DetailsTable
import MoviesApp.Screens.MenuTable
import MoviesApp.Screens.CastCell
import MoviesApp.RunLoop
import MoviesApp.Debounce
import MoviesApp.Screens.SearchBar
import MoviesApp.Screens.CastStrip
import MoviesApp.History.Bounds
import MoviesApp.Services.Sharing
import MoviesApp.Services.Silent
import MoviesApp.Services.Keyed
import MoviesApp.Screens.Session
import MoviesApp.Screens.Addresses
import MoviesApp.Screens.SessionCache
import MoviesApp.Screens.Opened
import MoviesApp.Screens.Recordings
import MoviesApp.Screens.TimedSearch
import MoviesApp.Screens.Accounts
import MoviesApp.Screens.SignIn
import MoviesApp.Screens.LoginAlerts
import MoviesApp.Services.SecureStore
