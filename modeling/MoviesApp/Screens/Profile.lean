import MoviesApp.Extensions.UIImageView
import MoviesApp.Firestore
import MoviesApp.Transition

/-! The profile screen under sign-ins and sign-outs. Each change of the user is announced
on the main queue later on, and a reply is shown whoever is signed in by then. -/
namespace MoviesApp.Profile
open Firestore ImageView

structure UserProfile where
  fullname : Option String
  avatarURL : Option String
  deriving DecidableEq

/-- The profile in the document of a reply, if all three fields are strings. -/
def UserProfile.ofDocument? (document : Option Document) : Option UserProfile := do
  let documentData ← document
  let avatarUrl ← (documentData "avatarURL").bind Value.asString
  let name ← (documentData "firstName").bind Value.asString
  let lastName ← (documentData "lastName").bind Value.asString
  return ⟨some (name ++ " " ++ lastName), some avatarUrl⟩

/-- A read of a profile on its way. -/
structure Reading where
  ticket : Nat
  uid : Uid
  deriving DecidableEq

/-- The `isHidden` flags. -/
structure Hidden where
  changeButton : Bool
  logOutButton : Bool
  signInButton : Bool
  profileImageView : Bool
  fullNameLabel : Bool
  signInLastAccButton : Bool
  historyButton : Bool
  deriving DecidableEq

def Hidden.atFirst : Hidden := ⟨false, false, false, false, false, false, false⟩

def Hidden.signedIn : Hidden := ⟨false, false, true, false, false, true, false⟩

def Hidden.signedOut : Hidden := ⟨true, true, false, true, true, false, true⟩

/-- The user of `Auth.auth()`, the announcements waiting on the main queue, the user that
the listener was last called with, and the screen. `reads` and `handled` are the reads so
far and the tickets of those whose profile was shown. -/
structure State where
  currentUser : Option Uid
  notifications : Nat
  previousUserID : Option (Option Uid)
  userUid : Uid
  reading : List Reading
  reads : List Uid
  handled : List Nat
  fullNameLabel : Option String
  view : ImageView
  hidden : Hidden

inductive Action where
  | signIn (uid : Uid)
  | signOut
  | notify
  | getDocument (ticket : Nat) (failed : Bool)
  | respond (serial : Nat) (response : ImageResponse)
  | deliver (serial : Nat)

/-- The picture in the storyboard. -/
def person : Placeholder := .systemNamed "person.fill"

/-- The screen has loaded, and the listener's first call is on the main queue. -/
def State.start (currentUser : Option Uid) : State :=
  ⟨currentUser, 1, none, "", [], [], [], some "Label", .start person, .atFirst⟩

def getProfileFromFirebase (s : State) : State :=
  match s.currentUser with
  | some uid => { s with
      userUid := uid
      reading := s.reading ++ [⟨s.reads.length, uid⟩]
      reads := s.reads ++ [uid] }
  | none => s

/-- The listener that `handle` registers. -/
def handle (s : State) (user : Option Uid) : State :=
  match user with
  | some _ => { getProfileFromFirebase s with hidden := .signedIn }
  | none => { s with hidden := .signedOut }

/-- Announcements that find the same user as before do not reach the listener. -/
def notified (s : State) : State :=
  if s.previousUserID = some s.currentUser then s
  else handle { s with previousUserID := some s.currentUser } s.currentUser

/-- The closure passed to `getProfileFromFirebase`. -/
def profileClosure (s : State) (profile : UserProfile) : State :=
  { s with
    fullNameLabel := profile.fullname
    view := s.view.downloadedFromFirebase profile.avatarURL }

def replied (s : State) (ticket : Nat) (document : Option Document) : State :=
  match UserProfile.ofDocument? document with
  | some profile => { profileClosure s profile with handled := s.handled ++ [ticket] }
  | none => s

variable (users : Collection)

def step (s : State) : Action → Option State
  | .signIn uid => some { s with currentUser := some uid, notifications := s.notifications + 1 }
  | .signOut => match s.currentUser with
    | some _ => some { s with currentUser := none, notifications := s.notifications + 1 }
    | none => some s
  | .notify => match s.notifications with
    | waiting + 1 => some (notified { s with notifications := waiting })
    | 0 => none
  | .getDocument ticket failed =>
    (Pool.take? (·.ticket == ticket) s.reading).map fun (read, reading) =>
      replied { s with reading := reading } ticket (if failed then none else users read.uid)
  | .respond serial response =>
    (s.view.respond serial response).map fun view => { s with view := view }
  | .deliver serial => (s.view.deliver serial).map fun view => { s with view := view }

def machine : Transition.Machine State Action := ⟨step users⟩

def State.Settled (s : State) : Prop :=
  s.notifications = 0 ∧ s.reading = [] ∧ s.view.outstanding = []

instance (s : State) : Decidable s.Settled := inferInstanceAs (Decidable (_ ∧ _ ∧ _))

/-- The reply to the latest read has succeeded. -/
def State.Replied (s : State) : Prop := ∃ ticket ∈ s.handled, ticket + 1 = s.reads.length

/-- The screen shows the data of the user who is signed in, and no data while nobody is. -/
structure ShowsUser (s : State) : Prop where
  signedIn : ∀ uid, s.currentUser = some uid → s.Settled → s.Replied →
    ∃ document name lastName avatarURL, users uid = some document ∧
      (document "firstName").bind Value.asString = some name ∧
      (document "lastName").bind Value.asString = some lastName ∧
      (document "avatarURL").bind Value.asString = some avatarURL ∧
      s.hidden = .signedIn ∧ s.fullNameLabel = some (name ++ " " ++ lastName) ∧
      (avatarURL = " " → s.view.image = .placeholder person) ∧
      ∀ url, URL.ofString? avatarURL = some url → s.view.image = .downloaded url
  signedOut : s.currentUser = none → s.notifications = 0 → s.hidden = .signedOut

/-- The profile of the user whose read is the latest. -/
def latestProfile (s : State) : Option UserProfile :=
  s.reads.getLast?.bind fun uid => UserProfile.ofDocument? (users uid)

/-- The picture that belongs to a profile. -/
def UserProfile.picture (profile : UserProfile) : Picture :=
  match firebaseURL profile.avatarURL with
  | some url => .downloaded url
  | none => .placeholder person

/-- The picture is there, or a download of it under way. -/
def Coming (view : ImageView) (profile : UserProfile) : Prop :=
  view.image = profile.picture ∨
    ∃ download ∈ view.outstanding, .downloaded download.url = profile.picture

/-- Another download of the picture is under way. -/
def Remains (view : ImageView) (serial : Nat) (profile : UserProfile) : Prop :=
  ∃ download ∈ view.outstanding, download.serial ≠ serial ∧
    .downloaded download.url = profile.picture

/-- The latest read's reply finds the placeholder if its profile is without a URL. Once
it is in, no earlier read brings another name, no other picture is put into place unless
a download of the profile's own is to come, and not all of these downloads fail. -/
def Undisturbed (s : State) : Action → Prop
  | .getDocument ticket failed => ∀ read ∈ s.reading.find? (·.ticket == ticket),
      ∀ profile, UserProfile.ofDocument? (if failed then none else users read.uid) = some profile →
        if ticket + 1 = s.reads.length then
          firebaseURL profile.avatarURL = none → s.view.image = .placeholder person
        else s.Replied → ∀ latest ∈ latestProfile users s, profile.fullname = latest.fullname
  | .respond serial response => response.accepted = false → s.Replied →
      ∀ latest ∈ latestProfile users s, s.view.image = latest.picture ∨ Remains s.view serial latest
  | .deliver serial => s.Replied → ∀ latest ∈ latestProfile users s,
      (∀ download ∈ s.view.mainQueue.find? (·.serial == serial),
        .downloaded download.url = latest.picture) ∨ Remains s.view serial latest
  | .signIn _ | .signOut | .notify => True

instance (s : State) : Decidable s.Replied :=
  inferInstanceAs (Decidable (∃ ticket ∈ s.handled, _ = _))

instance (view : ImageView) (serial : Nat) (profile : UserProfile) :
    Decidable (Remains view serial profile) :=
  inferInstanceAs (Decidable (∃ download ∈ view.outstanding, _ ≠ _ ∧ _ = _))

instance (s : State) : (a : Action) → Decidable (Undisturbed users s a)
  | .getDocument ticket failed => inferInstanceAs (Decidable (∀ read ∈ s.reading.find? _,
      ∀ profile, UserProfile.ofDocument? (if failed then none else users read.uid) = some profile →
        if ticket + 1 = s.reads.length then _ else _))
  | .respond _ _ => inferInstanceAs (Decidable (_ → _ → ∀ latest ∈ latestProfile users s, _ ∨ _))
  | .deliver _ => inferInstanceAs (Decidable (_ → ∀ latest ∈ latestProfile users s,
      (∀ download ∈ s.view.mainQueue.find? _, _ = _) ∨ _))
  | .signIn _ | .signOut | .notify => .isTrue trivial

/-- What every run keeps: reads are on their way for their own users, and the screen is
as the listener left it. -/
structure Kept (s : State) : Prop where
  own : ∀ read ∈ s.reading, s.reads[read.ticket]? = some read.uid
  earlier : ∀ ticket ∈ s.handled, ticket < s.reads.length
  announced : s.notifications = 0 → s.previousUserID = some s.currentUser
  signedIn : ∀ uid, s.previousUserID = some (some uid) →
    s.reads.getLast? = some uid ∧ s.hidden = .signedIn
  signedOut : s.previousUserID = some none → s.hidden = .signedOut

/-- The latest profile is shown from its reply on. -/
def ShowsProfile (s : State) : Prop :=
  s.Replied → ∃ profile, latestProfile users s = some profile ∧
    s.fullNameLabel = profile.fullname ∧ Coming s.view profile

variable {users} {s next : State} {a : Action} {acts : List Action} {view after : ImageView}
  {profile : UserProfile} {serial : Nat}

theorem step_signOut (step : (machine users).step s .signOut = some next) :
    (s.currentUser = none ∧ next = s) ∨
      next = { s with currentUser := none, notifications := s.notifications + 1 } := by
  cases user : s.currentUser with
  | none =>
    simp only [machine, Profile.step, user] at step
    exact Or.inl ⟨rfl, (Option.some.inj step).symm⟩
  | some uid =>
    simp only [machine, Profile.step, user] at step
    exact Or.inr (Option.some.inj step).symm

/-- An announcement of the same user changes nothing, one of another user starts a read,
and one of nobody hides the data. -/
theorem step_notify (step : (machine users).step s .notify = some next) :
    ∃ waiting, s.notifications = waiting + 1 ∧
      ((s.previousUserID = some s.currentUser ∧ next = { s with notifications := waiting }) ∨
      (∃ uid, s.currentUser = some uid ∧ next = { s with
        notifications := waiting, previousUserID := some (some uid), userUid := uid
        reading := s.reading ++ [⟨s.reads.length, uid⟩], reads := s.reads ++ [uid]
        hidden := .signedIn }) ∨
      (s.currentUser = none ∧ next = { s with
        notifications := waiting, previousUserID := some none, hidden := .signedOut })) := by
  cases count : s.notifications with
  | zero =>
    simp only [machine, Profile.step, count] at step
    contradiction
  | succ waiting =>
    refine ⟨waiting, rfl, ?_⟩
    simp only [machine, Profile.step, count, notified] at step
    split at step
    · rename_i same
      exact Or.inl ⟨same, (Option.some.inj step).symm⟩
    · cases user : s.currentUser with
      | some uid =>
        simp only [user, handle, getProfileFromFirebase] at step
        exact Or.inr (Or.inl ⟨uid, rfl, (Option.some.inj step).symm⟩)
      | none =>
        simp only [user, handle] at step
        exact Or.inr (Or.inr ⟨rfl, (Option.some.inj step).symm⟩)

/-- A reply shows a profile, or nothing if it brings none. -/
theorem step_getDocument {ticket : Nat} {failed : Bool}
    (step : (machine users).step s (.getDocument ticket failed) = some next) :
    ∃ read reading, Pool.take? (·.ticket == ticket) s.reading = some (read, reading) ∧
      read.ticket = ticket ∧ (next = { s with reading := reading } ∨
      ∃ profile,
        UserProfile.ofDocument? (if failed then none else users read.uid) = some profile ∧
        next = { s with
          reading := reading, handled := s.handled ++ [ticket]
          fullNameLabel := profile.fullname
          view := s.view.downloadedFromFirebase profile.avatarURL }) := by
  obtain ⟨⟨read, reading⟩, taken, result⟩ := Option.map_eq_some_iff.mp step
  refine ⟨read, reading, taken, Pool.take?_key taken, ?_⟩
  cases found : UserProfile.ofDocument? (if failed then none else users read.uid) with
  | none =>
    simp only [replied, found] at result
    exact Or.inl result.symm
  | some profile =>
    simp only [replied, found, profileClosure] at result
    exact Or.inr ⟨profile, rfl, result.symm⟩

theorem Kept.ticket (kept : Kept s) {read : Reading} (member : read ∈ s.reading) :
    read.ticket < s.reads.length :=
  (List.getElem?_eq_some_iff.mp (kept.own read member)).1

theorem notify_kept (kept : Kept s) (step : (machine users).step s .notify = some next) :
    Kept next := by
  obtain ⟨waiting, -, ⟨same, rfl⟩ | ⟨uid, user, rfl⟩ | ⟨user, rfl⟩⟩ := step_notify step
  · exact ⟨kept.own, kept.earlier, fun _ => same, kept.signedIn, kept.signedOut⟩
  · refine ⟨?_, ?_, fun _ => congrArg some user.symm, ?_, fun none => (nomatch none)⟩
    · apply Pool.forall_snoc
      · intro read before
        exact (List.getElem?_append_left (kept.ticket before)).trans (kept.own read before)
      · exact List.getElem?_concat_length
    · intro ticket member
      have before := kept.earlier ticket member
      rw [List.length_append, List.length_singleton]
      omega
    · intro other same
      cases same
      exact ⟨List.getLast?_concat, rfl⟩
  · exact ⟨kept.own, kept.earlier, fun _ => congrArg some user.symm, fun _ none => (nomatch none),
      fun _ => rfl⟩

theorem getDocument_kept {ticket : Nat} {failed : Bool} (kept : Kept s)
    (step : (machine users).step s (.getDocument ticket failed) = some next) : Kept next := by
  obtain ⟨read, reading, taken, rfl, result⟩ := step_getDocument step
  have left : ∀ other ∈ reading, s.reads[other.ticket]? = some other.uid :=
    fun other member => kept.own other (Pool.take?_left taken member)
  rcases result with rfl | ⟨profile, -, rfl⟩
  · exact ⟨left, kept.earlier, kept.announced, kept.signedIn, kept.signedOut⟩
  · exact ⟨left, Pool.forall_snoc kept.earlier (kept.ticket (Pool.take?_mem taken)), kept.announced,
      kept.signedIn, kept.signedOut⟩

theorem step_kept (kept : Kept s) (step : (machine users).step s a = some next) : Kept next := by
  cases a with
  | signIn uid =>
    obtain rfl := Option.some.inj step
    exact ⟨kept.own, kept.earlier, fun none => (nomatch none), kept.signedIn, kept.signedOut⟩
  | signOut =>
    obtain ⟨-, rfl⟩ | rfl := step_signOut step
    · exact kept
    · exact ⟨kept.own, kept.earlier, fun none => (nomatch none), kept.signedIn, kept.signedOut⟩
  | notify => exact notify_kept kept step
  | getDocument ticket failed => exact getDocument_kept kept step
  | respond serial response =>
    obtain ⟨view, -, rfl⟩ := Option.map_eq_some_iff.mp step
    exact ⟨kept.own, kept.earlier, kept.announced, kept.signedIn, kept.signedOut⟩
  | deliver serial =>
    obtain ⟨view, -, rfl⟩ := Option.map_eq_some_iff.mp step
    exact ⟨kept.own, kept.earlier, kept.announced, kept.signedIn, kept.signedOut⟩

theorem picture_of_url {url : URL} (address : firebaseURL profile.avatarURL = some url) :
    profile.picture = .downloaded url := by
  simp only [UserProfile.picture, address]

theorem picture_of_none (without : firebaseURL profile.avatarURL = none) :
    profile.picture = .placeholder person := by
  simp only [UserProfile.picture, without]

/-- A further link leaves what is there and what is coming. -/
theorem Coming.request (coming : Coming view profile) (url : Option URL) :
    Coming (view.request url) profile := by
  rcases coming with there | ⟨download, member, same⟩
  · exact Or.inl there
  · refine Or.inr ⟨download, ?_, same⟩
    rcases List.mem_append.mp member with task | block
    · exact List.mem_append_left _ (List.mem_append_left _ task)
    · exact List.mem_append_right _ block

/-- A profile's own link. -/
theorem coming_own (plain : firebaseURL profile.avatarURL = none → view.image = .placeholder person) :
    Coming (view.downloadedFromFirebase profile.avatarURL) profile := by
  cases address : firebaseURL profile.avatarURL with
  | none =>
    exact Or.inl ((plain address).trans (picture_of_none address).symm)
  | some url =>
    refine Or.inr ⟨⟨view.requested.length, url⟩, ?_, (picture_of_url address).symm⟩
    simp [downloadedFromFirebase, address, request, outstanding]

theorem Remains.coming (remains : Remains view serial profile) {gone : Download}
    (named : gone.serial = serial)
    (left : ∀ download ∈ view.outstanding, download = gone ∨ download ∈ after.outstanding) :
    Coming after profile := by
  obtain ⟨download, member, other, same⟩ := remains
  rcases left download member with rfl | remaining
  · exact absurd named other
  · exact Or.inr ⟨download, remaining, same⟩

theorem Coming.respond {response : ImageResponse} (coming : Coming view profile)
    (spared : response.accepted = false →
      view.image = profile.picture ∨ Remains view serial profile)
    (stepped : view.respond serial response = some after) : Coming after profile := by
  obtain ⟨-, image, -⟩ := respond_requested stepped
  obtain ⟨gone, named, ⟨-, perm⟩ | ⟨rejected, perm⟩⟩ := respond_downloads stepped
  · rcases coming with there | ⟨download, member, same⟩
    · exact Or.inl (image.trans there)
    · exact Or.inr ⟨download, perm.mem_iff.mpr member, same⟩
  · rcases spared rejected with there | remains
    · exact Or.inl (image.trans there)
    · exact remains.coming named fun download member =>
        List.mem_cons.mp (perm.mem_iff.mp member)

theorem coming_deliver
    (own : (∀ download ∈ view.mainQueue.find? (·.serial == serial),
      .downloaded download.url = profile.picture) ∨ Remains view serial profile)
    (stepped : view.deliver serial = some after) : Coming after profile := by
  obtain ⟨late, mainQueue, taken, rfl⟩ := deliver_cases stepped
  rcases own with same | remains
  · exact Or.inl (same late (Pool.take?_find taken))
  · apply remains.coming (Pool.take?_key taken)
    intro download member
    rcases List.mem_append.mp member with task | block
    · exact Or.inr (List.mem_append_left _ task)
    · rcases Pool.take?_cases taken block with rfl | queued
      · exact Or.inl rfl
      · exact Or.inr (List.mem_append_right _ queued)

/-- The latest read's reply brings the profile of its user. -/
theorem Kept.latest (kept : Kept s) {read : Reading} (member : read ∈ s.reading)
    (latest : read.ticket + 1 = s.reads.length) :
    latestProfile users s = UserProfile.ofDocument? (users read.uid) := by
  have last : s.reads.getLast? = some read.uid := by
    rw [List.getLast?_eq_getElem?, ← latest, Nat.add_sub_cancel, kept.own read member]
  simp only [latestProfile, last, Option.bind_some]

theorem getDocument_shows {ticket : Nat} {failed : Bool} (kept : Kept s)
    (shows : ShowsProfile users s) (undisturbed : Undisturbed users s (.getDocument ticket failed))
    (step : (machine users).step s (.getDocument ticket failed) = some next) :
    ShowsProfile users next := by
  obtain ⟨read, reading, taken, rfl, rfl | ⟨profile, brought, rfl⟩⟩ := step_getDocument step
  · exact shows
  · intro replied
    have met := undisturbed read (Pool.take?_find taken) profile brought
    by_cases own : read.ticket + 1 = s.reads.length
    · rw [if_pos own] at met
      have document : UserProfile.ofDocument? (users read.uid) = some profile := by
        cases failed with
        | true => contradiction
        | false => exact brought
      exact ⟨profile, (kept.latest (Pool.take?_mem taken) own).trans document, rfl, coming_own met⟩
    · rw [if_neg own] at met
      obtain ⟨ticket, member, last⟩ := replied
      have before : s.Replied := by
        rcases List.mem_append.mp member with earlier | new
        · exact ⟨ticket, earlier, last⟩
        · obtain rfl := List.mem_singleton.mp new
          exact absurd last own
      obtain ⟨latest, found, -, coming⟩ := shows before
      exact ⟨latest, found, met before latest found, coming.request _⟩

theorem step_shows (kept : Kept s) (shows : ShowsProfile users s)
    (undisturbed : Undisturbed users s a) (step : (machine users).step s a = some next) :
    ShowsProfile users next := by
  cases a with
  | signIn uid =>
    obtain rfl := Option.some.inj step
    exact shows
  | signOut =>
    obtain ⟨-, rfl⟩ | rfl := step_signOut step
    · exact shows
    · exact shows
  | notify =>
    obtain ⟨waiting, -, ⟨-, rfl⟩ | ⟨uid, -, rfl⟩ | ⟨-, rfl⟩⟩ := step_notify step
    · exact shows
    · -- A new read waits for its own reply.
      rintro ⟨ticket, member, last⟩
      have before := kept.earlier ticket member
      rw [List.length_append, List.length_singleton] at last
      omega
    · exact shows
  | getDocument ticket failed => exact getDocument_shows kept shows undisturbed step
  | respond serial response =>
    obtain ⟨view, stepped, rfl⟩ := Option.map_eq_some_iff.mp step
    intro replied
    obtain ⟨latest, found, label, coming⟩ := shows replied
    exact ⟨latest, found, label,
      coming.respond (fun rejected => undisturbed rejected replied latest found) stepped⟩
  | deliver serial =>
    obtain ⟨view, stepped, rfl⟩ := Option.map_eq_some_iff.mp step
    intro replied
    obtain ⟨latest, found, label, -⟩ := shows replied
    exact ⟨latest, found, label, coming_deliver (undisturbed replied latest found) stepped⟩

theorem ofDocument?_eq_some {document : Option Document}
    (found : UserProfile.ofDocument? document = some profile) :
    ∃ documentData name lastName avatarURL, document = some documentData ∧
      (documentData "firstName").bind Value.asString = some name ∧
      (documentData "lastName").bind Value.asString = some lastName ∧
      (documentData "avatarURL").bind Value.asString = some avatarURL ∧
      profile = ⟨some (name ++ " " ++ lastName), some avatarURL⟩ := by
  simp only [UserProfile.ofDocument?, Option.bind_eq_bind, Option.bind_eq_some_iff] at found
  obtain ⟨documentData, exists', avatarURL, avatar, name, first, lastName, last, built⟩ := found
  exact ⟨documentData, name, lastName, avatarURL, exists',
    Option.bind_eq_some_iff.mpr first, Option.bind_eq_some_iff.mpr last,
    Option.bind_eq_some_iff.mpr avatar, (Option.some.inj built).symm⟩

theorem Kept.shows (kept : Kept s) (shows : ShowsProfile users s) : ShowsUser users s := by
  constructor
  · rintro uid user ⟨announced, -, settled⟩ replied
    obtain ⟨last, hidden⟩ := kept.signedIn uid ((kept.announced announced).trans (congrArg some user))
    obtain ⟨profile, found, label, coming⟩ := shows replied
    simp only [latestProfile, last, Option.bind_some] at found
    obtain ⟨document, name, lastName, avatarURL, exists', first, second, avatar, rfl⟩ :=
      ofDocument?_eq_some found
    have picture : s.view.image =
        UserProfile.picture ⟨some (name ++ " " ++ lastName), some avatarURL⟩ := by
      rcases coming with there | ⟨download, member, -⟩
      · exact there
      · rw [settled] at member
        exact absurd member List.not_mem_nil
    refine ⟨document, name, lastName, avatarURL, exists', first, second, avatar, hidden, label,
      ?_, ?_⟩
    · rintro rfl
      have without : URL.ofString? " " = none := by decide
      exact picture.trans (picture_of_none without)
    · intro url address
      exact picture.trans (picture_of_url address)
  · intro nobody announced
    exact kept.signedOut ((kept.announced announced).trans (congrArg some nobody))

theorem start_kept (currentUser : Option Uid) : Kept (.start currentUser) :=
  ⟨fun _ member => (nomatch member), fun _ member => (nomatch member), fun none => (nomatch none),
    fun _ none => (nomatch none), fun none => (nomatch none)⟩

/-- In every run whose steps are undisturbed, from any user signed in at the start, every
state reached shows the data of the user who is signed in. -/
theorem shows_user {currentUser : Option Uid}
    (run : (machine users).run (.start currentUser) acts = some s)
    (undisturbed : (machine users).Along (Undisturbed users) (.start currentUser) acts) :
    ShowsUser users s := by
  have initial : ShowsProfile users (.start currentUser) := fun ⟨_, member, _⟩ => (nomatch member)
  obtain ⟨kept, shows⟩ := Transition.Machine.run_invariant_along
    (P := fun s : State => Kept s ∧ ShowsProfile users s)
    (fun inv undisturbed step => ⟨step_kept inv.1 step, step_shows inv.1 inv.2 undisturbed step⟩)
    run undisturbed ⟨start_kept currentUser, initial⟩
  exact kept.shows shows

def avatar : String := "https://storage/v.jpg"

/-- Two accounts, one of which has uploaded a photo. -/
def accounts : Collection :=
  let registered := setData (setData (fun _ => none) "v" (newDocument "Ann" "Vance" "v")) "u"
    (newDocument "Bob" "Unger" "u")
  updateData registered "v" "avatarURL" (.string avatar)

/-- The account without a photo comes first. -/
def switched : List Action :=
  [.notify, .signIn "u", .notify, .getDocument 0 false, .signOut, .notify, .signIn "v", .notify,
    .getDocument 1 false, .respond 1 .jpeg, .deliver 1]

theorem shows_user_switched : ∃ s,
    (machine accounts).run (.start none) switched = some s ∧ s.currentUser = some "v" ∧
    s.Settled ∧ s.Replied ∧ s.view.image = .downloaded ⟨avatar, by decide +kernel⟩ ∧
    ShowsUser accounts s := by
  have observed : ((machine accounts).run (.start none) switched).map (fun s =>
      (s.currentUser, decide s.Settled, decide s.Replied, s.view.image)) =
        some (some "v", true, true, .downloaded ⟨avatar, by decide +kernel⟩) := by
    decide +kernel
  obtain ⟨s, run, seen⟩ := Option.map_eq_some_iff.mp observed
  simp only [Prod.mk.injEq, decide_eq_true_eq] at seen
  obtain ⟨user, settled, replied, image⟩ := seen
  exact ⟨s, run, user, settled, replied, image, shows_user run (by decide +kernel)⟩

/-- The account with the photo signs in and out, then the one with the blank `avatarURL`
signs in: its read and its link are through, and the photo is still there. -/
theorem former_photo_shown : ∃ s,
    (machine accounts).run (.start none) [.notify, .signIn "v", .notify, .getDocument 0 false,
      .respond 0 .jpeg, .deliver 0, .signOut, .notify, .signIn "u", .notify,
      .getDocument 1 false] = some s ∧
    s.currentUser = some "u" ∧ s.Settled ∧ s.Replied ∧ s.fullNameLabel = some "Bob Unger" ∧
    s.view.image = .downloaded ⟨avatar, by decide +kernel⟩ ∧ ¬ ShowsUser accounts s := by
  have observed : ((machine accounts).run (.start none) [.notify, .signIn "v", .notify,
      .getDocument 0 false, .respond 0 .jpeg, .deliver 0, .signOut, .notify, .signIn "u", .notify,
      .getDocument 1 false]).map (fun s =>
      (s.currentUser, decide s.Settled, decide s.Replied, s.fullNameLabel, s.view.image)) =
        some (some "u", true, true, some "Bob Unger",
          .downloaded ⟨avatar, by decide +kernel⟩) := by
    decide +kernel
  obtain ⟨s, run, seen⟩ := Option.map_eq_some_iff.mp observed
  simp only [Prod.mk.injEq, decide_eq_true_eq] at seen
  obtain ⟨user, settled, replied, label, image⟩ := seen
  refine ⟨s, run, user, settled, replied, label, image, ?_⟩
  intro shows
  obtain ⟨document, _, _, avatarURL, found, -, -, stored, -, -, blank, -⟩ :=
    shows.signedIn "u" user settled replied
  have written : ((accounts "u").bind fun document =>
      (document "avatarURL").bind Value.asString) = some " " := by decide +kernel
  rw [found, Option.bind_some, stored] at written
  have placeholder := blank (Option.some.inj written)
  rw [image] at placeholder
  contradiction

end MoviesApp.Profile
