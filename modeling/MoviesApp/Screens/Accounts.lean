import MoviesApp.History.WellFormed
import MoviesApp.Screens.AvatarUpload
import MoviesApp.Screens.NewProfile

/-! Registrations, avatars and histories over one collection. Each writes its own fields in
callbacks of its own, so every document stays one that the profile and the history screen can
read: the names of its registration, a photo its user picked, and the user's own history. -/
namespace MoviesApp.Accounts
open Firestore
open Registration (Names Extends Registered)

/-- The photos in the storage, and the uploads under way. -/
structure Photos where
  avatars : Uid → Option (AvatarUpload.Data × String)
  urls : List String
  uploads : List AvatarUpload.Upload
  picks : List (Uid × AvatarUpload.Data)
  log : Uid → List AvatarUpload.Entry

/-- The uploads of the history under way, and the calls so far. -/
structure Recordings where
  reads : List History.Read
  writes : List History.Write
  calls : List (Uid × String × String)

/-- The collection and the user are those of `account`. -/
structure State where
  account : NewProfile.State
  photos : Photos
  recordings : Recordings

def State.start : State := ⟨.start, ⟨fun _ => none, [], [], [], fun _ => []⟩, ⟨[], [], []⟩⟩

abbrev State.registration (s : State) : Registration.State := s.account.registration

abbrev State.users (s : State) : Collection := s.account.registration.users

abbrev State.currentUser (s : State) : Option Uid := s.account.profile.currentUser

/-- The photos and the history uploads, with the collection they write. -/
def State.avatars (s : State) : AvatarUpload.State :=
  ⟨s.currentUser, s.users, s.photos.avatars, s.photos.urls, s.photos.uploads, s.photos.picks,
    s.photos.log⟩

def State.history (s : State) : History.State :=
  ⟨s.users, s.recordings.reads, s.recordings.writes, s.recordings.calls⟩

def State.storing (s : State) (users : Collection) : NewProfile.State :=
  { s.account with registration := { s.account.registration with users := users } }

inductive Action where
  | account (a : NewProfile.Action)
  | didFinishPicking (imageData : Option AvatarUpload.Data)
  | putData (pick : Nat) (url : Option String)
  | downloadURL (pick : Nat) (failed : Bool)
  | updateAvatar (pick : Nat) (failed : Bool)
  | uploadHistoryToFirebase (id name : String)
  | getDocument (serial : Nat) (failed : Bool)
  | updateHistory (serial : Nat) (failed : Bool)

def photo (s : State) (a : AvatarUpload.Action) : Option State :=
  (AvatarUpload.step s.avatars a).map fun after =>
    { s with
      account := s.storing after.users
      photos := ⟨after.avatars, after.urls, after.uploads, after.picks, after.log⟩ }

def record (s : State) (a : History.Action) : Option State :=
  (History.step s.history a).map fun after =>
    { s with
      account := s.storing after.users
      recordings := ⟨after.reads, after.writes, after.calls⟩ }

/-- A read of the history sees a registration's write that is still in flight. -/
def read (s : State) (serial : Nat) (failed : Bool) : Option State :=
  (History.step { s.history with users := s.registration.localView } (.getDocument serial failed)).map
    fun after => { s with recordings := ⟨after.reads, after.writes, after.calls⟩ }

def step (s : State) : Action → Option State
  | .account a => (NewProfile.step s.account a).map fun account => { s with account := account }
  | .didFinishPicking imageData => photo s (.didFinishPicking imageData)
  | .putData pick url => photo s (.putData pick url)
  | .downloadURL pick failed => photo s (.downloadURL pick failed)
  | .updateAvatar pick failed => photo s (.updateData pick failed)
  | .uploadHistoryToFirebase id name => record s (.upload s.currentUser id name)
  | .getDocument serial failed => read s serial failed
  | .updateHistory serial failed => record s (.updateData serial failed)

def machine : Transition.Machine State Action := ⟨step⟩

/-- The URL of a photo that the user picked and that has been stored. -/
def Own (avatars : AvatarUpload.State) (uid : Uid) (url : String) : Prop :=
  ∃ imageData, (uid, imageData) ∈ avatars.picks ∧
    AvatarUpload.Entry.stored imageData url ∈ avatars.log uid

/-- The document of an account, but for what its history holds. -/
structure Profiled (registration : Registration.State) (avatars : AvatarUpload.State)
    (account : Registration.Account) (document : Document) : Prop where
  names : ∃ firstName lastName, Names registration account.attempt firstName lastName ∧
    document "firstName" = some (.string firstName) ∧ document "lastName" = some (.string lastName)
  uid : document "uid" = some (.string account.uid)
  avatar : ∃ url, document "avatarURL" = some (.string url) ∧ (url = " " ∨ Own avatars account.uid url)
  fields : ∀ field, (document field).isSome →
    field ∈ ["firstName", "lastName", "uid", "avatarURL", "history"]

/-- The full name on the form of one of the accounts. -/
def FullName (registration : Registration.State) (name : String) : Prop :=
  ∃ account ∈ registration.accounts, ∃ firstName lastName,
    Names registration account.attempt firstName lastName ∧ name = firstName ++ " " ++ lastName

variable {s t : State} {a : Action} {registration after : Registration.State}
  {avatars later : AvatarUpload.State} {users : Collection} {account : Registration.Account}
  {document : Document} {uid : Uid} {url : String}

theorem FullName.mono {name : String} (known : FullName registration name)
    (grown : Extends registration after) : FullName after name := by
  obtain ⟨account, member, firstName, lastName, names, same⟩ := known
  exact ⟨account, grown.accounts member, firstName, lastName, names.mono grown, same⟩

theorem Profiled.mono (profiled : Profiled registration avatars account document)
    (grown : Extends registration after) (kept : ∀ uid url, Own avatars uid url → Own later uid url) :
    Profiled after later account document := by
  obtain ⟨firstName, lastName, names, first, last⟩ := profiled.names
  obtain ⟨url, avatar, own⟩ := profiled.avatar
  exact ⟨⟨firstName, lastName, names.mono grown, first, last⟩, profiled.uid,
    ⟨url, avatar, own.imp_right (kept _ url)⟩, profiled.fields⟩

/-! One write at a time -/

/-- Every document is that of an account. -/
def Documented (registration : Registration.State) (avatars : AvatarUpload.State)
    (users : Collection) : Prop :=
  ∀ uid document, users uid = some document →
    ∃ account ∈ registration.accounts, account.uid = uid ∧
      Profiled registration avatars account document

theorem Documented.mono (documented : Documented registration avatars users)
    (grown : Extends registration after) (kept : ∀ uid url, Own avatars uid url → Own later uid url) :
    Documented after later users := by
  intro uid document found
  obtain ⟨account, member, same, profiled⟩ := documented uid document found
  exact ⟨account, grown.accounts member, same, profiled.mono grown kept⟩

theorem Documented.storing (documented : Documented registration avatars users) (other : Collection) :
    Documented { registration with users := other } avatars users :=
  documented.mono ⟨List.prefix_rfl, List.Subset.refl _⟩ fun _ _ own => own

theorem newDocument_profiled {attempt : Nat} {firstName lastName : String}
    (names : Names registration attempt firstName lastName) (uid : Uid) :
    Profiled registration avatars ⟨uid, attempt⟩ (newDocument firstName lastName uid) where
  names := ⟨firstName, lastName, names, rfl, rfl⟩
  uid := rfl
  avatar := ⟨" ", rfl, Or.inl rfl⟩
  fields field some := by
    obtain ⟨entry, member, same⟩ := List.lookup_isSome_iff.mp some
    obtain rfl : field = entry.1 := beq_iff_eq.mp same
    exact List.mem_append_left ["history"] (List.mem_map_of_mem (f := Prod.fst) member)

theorem Documented.setData {attempt : Nat} {firstName lastName : String}
    (documented : Documented registration avatars users) (owned : ⟨uid, attempt⟩ ∈ registration.accounts)
    (names : Names registration attempt firstName lastName) :
    Documented registration avatars (setData users uid (newDocument firstName lastName uid)) := by
  intro other document found
  by_cases same : other = uid
  · subst same
    cases Option.some.inj ((setData_same ..).symm.trans found)
    exact ⟨_, owned, rfl, newDocument_profiled names other⟩
  · exact documented other document ((setData_other same).symm.trans found)

/-- An update of one field, where the document stays that of its account. -/
theorem Documented.updateData {field : String} {value : Value}
    (documented : Documented registration avatars users)
    (keeps : ∀ account document, account.uid = uid → Profiled registration avatars account document →
      Profiled registration avatars account (document.setting field value)) :
    Documented registration avatars (updateData users uid field value) := by
  intro other document found
  rw [updateData_apply] at found
  split at found
  · rename_i same
    obtain ⟨before, stored, rfl⟩ := Option.map_eq_some_iff.mp found
    obtain ⟨account, member, named, profiled⟩ := documented uid before stored
    exact ⟨account, member, named.trans same.symm, keeps account before named profiled⟩
  · exact documented other document found

theorem Profiled.setting_fields {field : String} {value : Value}
    (profiled : Profiled registration avatars account document)
    (known : field ∈ ["firstName", "lastName", "uid", "avatarURL", "history"]) :
    ∀ other, (document.setting field value other).isSome →
      other ∈ ["firstName", "lastName", "uid", "avatarURL", "history"] := by
  intro other some
  by_cases same : other = field
  · exact same ▸ known
  · rw [setting_other same] at some
    exact profiled.fields other some

theorem Profiled.setAvatar (profiled : Profiled registration avatars account document)
    (own : Own avatars account.uid url) :
    Profiled registration avatars account (document.setting "avatarURL" (.string url)) := by
  obtain ⟨firstName, lastName, names, first, last⟩ := profiled.names
  refine ⟨⟨firstName, lastName, names, ?_, ?_⟩, ?_, ⟨url, setting_same .., Or.inr own⟩,
    profiled.setting_fields (by simp)⟩
  · rw [setting_other (by decide), first]
  · rw [setting_other (by decide), last]
  · rw [setting_other (by decide), profiled.uid]

theorem Profiled.setHistory (profiled : Profiled registration avatars account document)
    (value : Value) : Profiled registration avatars account (document.setting "history" value) := by
  obtain ⟨firstName, lastName, names, first, last⟩ := profiled.names
  obtain ⟨url, avatar, own⟩ := profiled.avatar
  refine ⟨⟨firstName, lastName, names, ?_, ?_⟩, ?_, ⟨url, ?_, own⟩,
    profiled.setting_fields (by simp)⟩
  · rw [setting_other (by decide), first]
  · rw [setting_other (by decide), last]
  · rw [setting_other (by decide), profiled.uid]
  · rw [setting_other (by decide), avatar]

/-- What the profile screen makes of such a document. -/
theorem Profiled.ofDocument (profiled : Profiled registration avatars account document) :
    ∃ firstName lastName url, Names registration account.attempt firstName lastName ∧
      (url = " " ∨ Own avatars account.uid url) ∧
      Profile.UserProfile.ofDocument? (some document) =
        some ⟨some (firstName ++ " " ++ lastName), some url⟩ := by
  obtain ⟨firstName, lastName, names, first, last⟩ := profiled.names
  obtain ⟨url, avatar, own⟩ := profiled.avatar
  refine ⟨firstName, lastName, url, names, own, ?_⟩
  simp only [Profile.UserProfile.ofDocument?, Option.bind_eq_bind, Option.bind_some, first, last,
    avatar, Value.asString]
  rfl

/-! What a step of each part does to the collection -/

/-- A collection in which the same users have a document. -/
theorem registered_storing (registered : Registered registration)
    (same : ∀ uid, (users uid).isSome = (registration.users uid).isSome) :
    Registered { registration with users := users } := by
  have inv := registered.inv
  refine ⟨{ inv with unwritten := ?_, documented := ?_, reported := ?_ }, registered.named⟩
  · intro write member
    rw [← Option.not_isSome_iff_eq_none, same, Option.not_isSome_iff_eq_none]
    exact inv.unwritten write member
  · exact fun uid some => inv.documented uid ((same uid).symm.trans some)
  · intro attempt listed
    obtain ⟨account, member, attempted, some⟩ := inv.reported attempt listed
    exact ⟨account, member, attempted, (same account.uid).trans some⟩

theorem updateData_isSome (users : Collection) (uid other : Uid) (field : String) (value : Value) :
    (updateData users uid field value other).isSome = (users other).isSome := by
  rw [updateData_apply]
  split
  · rename_i same
    rw [Option.isSome_map, same]
  · rfl

/-- Photos in flight and URLs on their way are those of picks. -/
structure Picked (avatars : AvatarUpload.State) : Prop where
  picked : ∀ upload ∈ avatars.uploads, ∀ imageData, upload.stage = .putData imageData →
    (upload.uid, imageData) ∈ avatars.picks
  object : ∀ uid imageData url, avatars.avatars uid = some (imageData, url) → Own avatars uid url
  asked : ∀ upload ∈ avatars.uploads, ∀ url, upload.stage = .updateData url →
    Own avatars upload.uid url

theorem Own.record (own : Own avatars uid url) (other : Uid) (entry : AvatarUpload.Entry) :
    Own (avatars.record other entry) uid url := by
  obtain ⟨imageData, picked, stored⟩ := own
  exact ⟨imageData, picked, AvatarUpload.record_cases (P := (.stored imageData url ∈ ·)) stored
    (List.mem_cons_of_mem _ stored)⟩

theorem Own.frame (own : Own avatars uid url) (picks : later.picks = avatars.picks)
    (log : later.log = avatars.log) : Own later uid url := by
  obtain ⟨imageData, picked, stored⟩ := own
  exact ⟨imageData, picks ▸ picked, log ▸ stored⟩

/-- What a step of the photos leaves: the photos as before, and in the collection at most the
URL of a photo of its own user. -/
structure Photographed (avatars later : AvatarUpload.State) : Prop where
  picked : Picked later
  kept : ∀ uid url, Own avatars uid url → Own later uid url
  users : later.users = avatars.users ∨ ∃ uid url, Own later uid url ∧
    later.users = updateData avatars.users uid "avatarURL" (.string url)

/-- A call that fails only ends its upload. -/
theorem Picked.ended {uploads : List AvatarUpload.Upload} (picked : Picked avatars)
    (fewer : ∀ upload ∈ uploads, upload ∈ avatars.uploads) :
    Photographed avatars { avatars with uploads := uploads } where
  picked := ⟨fun upload member => picked.picked upload (fewer upload member), picked.object,
    fun upload member => picked.asked upload (fewer upload member)⟩
  kept _ _ own := own
  users := Or.inl rfl

theorem Picked.pick (picked : Picked avatars) (imageData : Option AvatarUpload.Data) :
    Photographed avatars (AvatarUpload.uploadUserPhoto avatars imageData) := by
  unfold AvatarUpload.uploadUserPhoto
  split
  · rename_i user photo _
    have kept : ∀ uid url, Own avatars uid url → Own { avatars with
        uploads := avatars.uploads ++ [⟨avatars.picks.length, user, .putData photo⟩]
        picks := avatars.picks ++ [(user, photo)] } uid url := by
      rintro uid url ⟨imageData, member, stored⟩
      exact ⟨imageData, List.mem_append_left _ member, stored⟩
    refine ⟨⟨?_, ?_, ?_⟩, kept, Or.inl rfl⟩
    · apply Pool.forall_snoc
      · intro upload member imageData stage
        exact List.mem_append_left _ (picked.picked upload member imageData stage)
      · intro imageData stage
        cases stage
        exact List.mem_append_right _ (List.mem_singleton.mpr rfl)
    · exact fun uid imageData url found => kept uid url (picked.object uid imageData url found)
    · apply Pool.forall_snoc
      · exact fun upload member url stage => kept _ url (picked.asked upload member url stage)
      · intro url stage
        contradiction
  · exact ⟨picked, fun _ _ own => own, Or.inl rfl⟩

theorem Picked.stored {upload : AvatarUpload.Upload} {left : List AvatarUpload.Upload} {pick : Nat}
    {imageData : AvatarUpload.Data} (picked : Picked avatars)
    (taken : Pool.take? (·.pick == pick) avatars.uploads = some (upload, left))
    (stage : upload.stage = .putData imageData) (url : String) :
    Photographed avatars
      (AvatarUpload.stored { avatars with uploads := left } upload imageData url) := by
  have kept : ∀ uid other, Own avatars uid other →
      Own (AvatarUpload.stored { avatars with uploads := left } upload imageData url) uid other := by
    intro uid other own
    have framed := own.record upload.uid (.stored imageData url)
    exact framed.frame rfl rfl
  have own : Own (AvatarUpload.stored { avatars with uploads := left } upload imageData url)
      upload.uid url := by
    refine ⟨imageData, picked.picked upload (Pool.take?_mem taken) imageData stage, ?_⟩
    exact (AvatarUpload.record_same ..).symm ▸ List.mem_cons_self
  refine ⟨⟨?_, ?_, ?_⟩, kept, Or.inl rfl⟩
  · apply Pool.forall_snoc
    · exact fun other member => picked.picked other (Pool.take?_left taken member)
    · intro photo moved
      contradiction
  · intro uid photo other found
    change Function.update avatars.avatars upload.uid (some (imageData, url)) uid = _ at found
    by_cases same : uid = upload.uid
    · subst same
      rw [Function.update_self] at found
      cases found
      exact own
    · rw [Function.update_of_ne same] at found
      exact kept uid other (picked.object uid photo other found)
  · apply Pool.forall_snoc
    · exact fun other member next moved =>
        kept _ next (picked.asked other (Pool.take?_left taken member) next moved)
    · intro next moved
      contradiction

/-- The URL of the user's object is that of the user's own photo. -/
theorem Picked.asking {upload : AvatarUpload.Upload} {left : List AvatarUpload.Upload} {pick : Nat}
    {imageData : AvatarUpload.Data} (picked : Picked avatars)
    (taken : Pool.take? (·.pick == pick) avatars.uploads = some (upload, left))
    (found : avatars.avatars upload.uid = some (imageData, url)) :
    Photographed avatars (AvatarUpload.asked { avatars with uploads := left } upload url) := by
  have kept : ∀ uid other, Own avatars uid other →
      Own (AvatarUpload.asked { avatars with uploads := left } upload url) uid other := by
    intro uid other own
    have framed := own.record upload.uid (.asked upload.pick)
    exact framed.frame rfl rfl
  refine ⟨⟨?_, ?_, ?_⟩, kept, Or.inl rfl⟩
  · apply Pool.forall_snoc
    · exact fun other member => picked.picked other (Pool.take?_left taken member)
    · intro photo moved
      contradiction
  · exact fun uid photo other stored => kept uid other (picked.object uid photo other stored)
  · apply Pool.forall_snoc
    · exact fun other member next moved =>
        kept _ next (picked.asked other (Pool.take?_left taken member) next moved)
    · intro next moved
      cases moved
      exact kept _ url (picked.object _ imageData url found)

theorem Picked.written {upload : AvatarUpload.Upload} {left : List AvatarUpload.Upload} {pick : Nat}
    (picked : Picked avatars)
    (taken : Pool.take? (·.pick == pick) avatars.uploads = some (upload, left))
    (stage : upload.stage = .updateData url) :
    Photographed avatars (AvatarUpload.written { avatars with uploads := left } upload url) := by
  have kept : ∀ uid other, Own avatars uid other →
      Own (AvatarUpload.written { avatars with uploads := left } upload url) uid other := by
    intro uid other own
    have framed := own.record upload.uid (.written upload.pick)
    exact framed.frame rfl rfl
  refine ⟨⟨?_, ?_, ?_⟩, kept, Or.inr ⟨upload.uid, url, ?_, rfl⟩⟩
  · exact fun other member => picked.picked other (Pool.take?_left taken member)
  · exact fun uid photo other stored => kept uid other (picked.object uid photo other stored)
  · exact fun other member next moved =>
      kept _ next (picked.asked other (Pool.take?_left taken member) next moved)
  · exact kept _ url (picked.asked upload (Pool.take?_mem taken) url stage)

theorem Picked.step {b : AvatarUpload.Action} (picked : Picked avatars)
    (stepped : AvatarUpload.step avatars b = some later) : Photographed avatars later := by
  cases b with
  | signIn uid =>
    cases stepped
    exact ⟨⟨picked.picked, picked.object, picked.asked⟩, fun _ _ own => own, Or.inl rfl⟩
  | signOut =>
    cases stepped
    exact ⟨⟨picked.picked, picked.object, picked.asked⟩, fun _ _ own => own, Or.inl rfl⟩
  | didFinishPicking imageData =>
    cases stepped
    exact picked.pick imageData
  | putData pick result =>
    obtain ⟨⟨upload, left⟩, taken, step⟩ := Option.bind_eq_some_iff.mp stepped
    dsimp only at step
    split at step
    · rename_i stage
      obtain ⟨-, step⟩ := Option.ite_none_left_eq_some.mp step
      cases step
      exact picked.stored taken stage _
    · cases step
      exact picked.ended fun other member => Pool.take?_left taken member
    · contradiction
  | downloadURL pick failed =>
    obtain ⟨⟨upload, left⟩, taken, step⟩ := Option.bind_eq_some_iff.mp stepped
    dsimp only at step
    split at step
    · split at step
      · rename_i found
        cases step
        exact picked.asking taken found
      · cases step
        exact picked.ended fun other member => Pool.take?_left taken member
    · contradiction
  | updateData pick failed =>
    obtain ⟨⟨upload, left⟩, taken, step⟩ := Option.bind_eq_some_iff.mp stepped
    dsimp only at step
    split at step
    · rename_i stage
      split at step
      · cases step
        exact picked.written taken stage
      · cases step
        exact picked.ended fun other member => Pool.take?_left taken member
    · contradiction

/-- The label of the profile screen comes from a document that the device sees. -/
theorem profile_label {profile shown : Profile.State} {b : Profile.Action}
    (step : (Profile.machine users).step profile b = some shown) :
    shown.fullNameLabel = profile.fullNameLabel ∨ ∃ uid document read,
      users uid = some document ∧ Profile.UserProfile.ofDocument? (some document) = some read ∧
      shown.fullNameLabel = read.fullname := by
  cases b with
  | signIn uid =>
    cases step
    exact Or.inl rfl
  | signOut =>
    rcases Profile.step_signOut step with ⟨-, rfl⟩ | rfl <;> exact Or.inl rfl
  | notify =>
    obtain ⟨_, -, ⟨-, rfl⟩ | ⟨_, -, rfl⟩ | ⟨-, rfl⟩⟩ := Profile.step_notify step <;> exact Or.inl rfl
  | getDocument ticket failed =>
    obtain ⟨read, reading, -, -, rfl | ⟨found, brought, rfl⟩⟩ := Profile.step_getDocument step
    · exact Or.inl rfl
    · cases failed with
      | true => contradiction
      | false =>
        obtain ⟨document, _, _, _, stored, -⟩ := Profile.ofDocument?_eq_some brought
        exact Or.inr ⟨read.uid, document, found, stored, stored ▸ brought, rfl⟩
  | respond serial response =>
    obtain ⟨view, -, rfl⟩ := Option.map_eq_some_iff.mp step
    exact Or.inl rfl
  | deliver serial =>
    obtain ⟨view, -, rfl⟩ := Option.map_eq_some_iff.mp step
    exact Or.inl rfl

/-- A registration goes on and leaves the label, or the profile screen goes on over the documents
that the device sees. -/
theorem account_cases {before next : NewProfile.State} {b : NewProfile.Action}
    (step : NewProfile.machine.step before b = some next) :
    (next.profile.fullNameLabel = before.profile.fullNameLabel ∧
      (next.registration = before.registration ∨
        ∃ c, Registration.machine.step before.registration c = some next.registration)) ∨
    (next.registration = before.registration ∧ ∃ c,
      (Profile.machine before.registration.localView).step before.profile c = some next.profile) := by
  obtain ⟨attempt, uid, -, -, rfl⟩ | ⟨c, registration, signedUp, -, made, rfl, -⟩ |
    ⟨c, profile, -, made, rfl, -⟩ := NewProfile.step_cases step
  · exact Or.inl ⟨rfl, Or.inl rfl⟩
  · exact Or.inl ⟨rfl, Or.inr ⟨c, made⟩⟩
  · exact Or.inr ⟨rfl, c, made⟩

/-! All parts together -/

structure Inv (s : State) : Prop where
  registered : Registered s.registration
  picked : Picked s.avatars
  history : History.Invariant s.history
  documented : Documented s.registration s.avatars s.users
  label : ∀ name, s.account.profile.fullNameLabel = some name →
    name = "Label" ∨ FullName s.registration name

theorem start_inv : Inv .start where
  registered := Registration.start_registered
  picked := ⟨List.forall_mem_nil _, fun _ _ _ none => absurd none (Option.some_ne_none _).symm,
    List.forall_mem_nil _⟩
  history := History.start_invariant
  documented _ _ none := absurd none (Option.some_ne_none _).symm
  label _ shown := Or.inl (Option.some.inj shown).symm

/-- The photos do not depend on who is signed in, nor on the collection. -/
theorem Picked.frame (picked : Picked avatars) (currentUser : Option Uid) (users : Collection) :
    Picked { avatars with currentUser := currentUser, users := users } :=
  ⟨picked.picked, picked.object, picked.asked⟩

/-- The document that the device sees is that of an account, too. -/
theorem Inv.view (inv : Inv s) (seen : s.registration.localView uid = some document) :
    (∃ account ∈ s.registration.accounts, account.uid = uid ∧
      Profiled s.registration s.avatars account document) ∧
    History.WellFormed s.history.calls uid document := by
  obtain ⟨-, view⟩ | ⟨write, member, own, view⟩ := Registration.localView_cases s.registration uid
  · rw [view] at seen
    exact ⟨inv.documented uid document seen, inv.history.documents uid document seen⟩
  · obtain rfl := Option.some.inj (seen.symm.trans view)
    refine ⟨⟨_, inv.registered.inv.owned write member, own, ?_⟩, Or.inl rfl⟩
    exact newDocument_profiled (inv.registered.named write member) write.uid

/-- A registration goes on. -/
theorem Inv.registering {account : NewProfile.State} {c : Registration.Action} (inv : Inv s)
    (made : Registration.machine.step s.registration c = some account.registration)
    (label : account.profile.fullNameLabel = s.account.profile.fullNameLabel) :
    Inv { s with account := account } := by
  have change := Registration.step_change inv.registered.inv made
  have documented : Documented account.registration { s with account := account }.avatars s.users :=
    inv.documented.mono change.grown fun _ _ own => own
  refine ⟨inv.registered.step made, inv.picked.frame _ _, ?_, ?_, ?_⟩
  · change History.Invariant { s.history with users := account.registration.users }
    obtain users | ⟨write, member, users⟩ := change.users
    · rw [users]
      exact inv.history
    · rw [users]
      let action : History.Action := .register write.uid write.firstName write.lastName
      exact History.step_invariant (a := action) inv.history rfl
  · change Documented account.registration _ account.registration.users
    obtain users | ⟨write, member, users⟩ := change.users
    · rw [users]
      exact documented
    · rw [users]
      exact documented.setData (change.grown.accounts (inv.registered.inv.owned write member))
        ((inv.registered.named write member).mono change.grown)
  · intro name shown
    exact (inv.label name (label.symm.trans shown)).imp_right (·.mono change.grown)

/-- The account screens leave the registrations as they are. -/
theorem Inv.framed {account : NewProfile.State} (inv : Inv s)
    (same : account.registration = s.registration)
    (label : ∀ name, account.profile.fullNameLabel = some name →
      name = "Label" ∨ FullName s.registration name) : Inv { s with account := account } := by
  obtain ⟨registration, profile, signedUp⟩ := account
  obtain rfl := same
  exact ⟨inv.registered, inv.picked.frame _ _, inv.history,
    inv.documented.mono (.refl _) fun _ _ own => own, label⟩

theorem Inv.changed {account : NewProfile.State} {b : NewProfile.Action} (inv : Inv s)
    (step : NewProfile.machine.step s.account b = some account) :
    Inv { s with account := account } := by
  rcases account_cases step with ⟨label, same | ⟨c, made⟩⟩ | ⟨same, c, made⟩
  · exact inv.framed same fun name shown => inv.label name (label.symm.trans shown)
  · exact inv.registering made label
  · refine inv.framed same fun name shown => ?_
    rcases profile_label made with kept | ⟨uid, document, read, seen, brought, shows⟩
    · exact inv.label name (kept.symm.trans shown)
    · obtain ⟨account, member, -, profiled⟩ := (inv.view seen).1
      obtain ⟨firstName, lastName, url, names, -, found⟩ := profiled.ofDocument
      obtain rfl := Option.some.inj (brought.symm.trans found)
      cases Option.some.inj (shown.symm.trans shows)
      exact Or.inr ⟨account, member, firstName, lastName, names, rfl⟩

theorem Inv.photo {b : AvatarUpload.Action} (inv : Inv s) (step : photo s b = some t) : Inv t := by
  obtain ⟨avatars, moved, rfl⟩ := Option.map_eq_some_iff.mp step
  obtain ⟨picked, kept, users⟩ := inv.picked.step moved
  have documented : Documented s.registration avatars avatars.users := by
    obtain users | ⟨uid, url, own, users⟩ := users
    · rw [users]
      exact inv.documented.mono (.refl _) kept
    · rw [users]
      refine (inv.documented.mono (.refl _) kept).updateData ?_
      rintro account document rfl profiled
      exact profiled.setAvatar own
  refine ⟨registered_storing inv.registered ?_, picked.frame _ _, ?_,
    (documented.storing _).mono (.refl _) fun _ _ own => own, inv.label⟩
  · intro other
    obtain users | ⟨uid, url, -, users⟩ := users
    · rw [users]
      rfl
    · rw [users]
      exact updateData_isSome s.users uid other _ _
  · change History.Invariant { s.history with users := avatars.users }
    obtain users | ⟨uid, url, -, users⟩ := users
    · rw [users]
      exact inv.history
    · rw [users]
      let action : History.Action := .updateAvatar uid url
      exact History.step_invariant (a := action) inv.history rfl

/-- The steps of the uploads of histories. -/
def Uploads : History.Action → Prop
  | .register _ _ _ | .updateAvatar _ _ => False
  | .upload _ _ _ | .getDocument _ _ | .updateData _ _ => True

/-- They write nothing but histories. -/
theorem histories_users {before next : History.State} {b : History.Action} (uploads : Uploads b)
    (step : History.step before b = some next) :
    next.users = before.users ∨ ∃ uid payload,
      next.users = updateData before.users uid "history" payload := by
  cases b with
  | register | updateAvatar => exact uploads.elim
  | upload currentUser id name =>
    cases step
    cases currentUser <;> exact Or.inl rfl
  | getDocument serial failed =>
    obtain ⟨⟨call, reads⟩, -, delivered⟩ := Option.map_eq_some_iff.mp step
    obtain ⟨added, shape, -⟩ := History.delivered_cases before call reads failed
    dsimp only at delivered
    rw [← delivered, shape]
    exact Or.inl rfl
  | updateData serial failed =>
    obtain ⟨⟨write, writes⟩, -, rfl⟩ := Option.map_eq_some_iff.mp step
    cases failed with
    | true => exact Or.inl rfl
    | false => exact Or.inr ⟨write.uid, write.payload, rfl⟩

theorem Inv.record {b : History.Action} (inv : Inv s) (uploads : Uploads b)
    (step : record s b = some t) : Inv t := by
  obtain ⟨history, moved, rfl⟩ := Option.map_eq_some_iff.mp step
  have formed : History.Invariant history := History.step_invariant inv.history moved
  have documented : Documented s.registration s.avatars history.users := by
    obtain users | ⟨uid, payload, users⟩ := histories_users uploads moved
    · rw [users]
      exact inv.documented
    · rw [users]
      exact inv.documented.updateData fun account document _ profiled =>
        profiled.setHistory payload
  refine ⟨registered_storing inv.registered ?_, inv.picked.frame _ _, formed,
    (documented.storing _).mono (.refl _) fun _ _ own => own, inv.label⟩
  intro other
  obtain users | ⟨uid, payload, users⟩ := histories_users uploads moved
  · rw [users]
    rfl
  · rw [users]
    exact updateData_isSome s.users uid other _ _

/-- A read leaves the collection alone, whichever copy of a document it brings. -/
theorem Inv.read {serial : Nat} {failed : Bool} (inv : Inv s)
    (step : read s serial failed = some t) : Inv t := by
  obtain ⟨history, moved, rfl⟩ := Option.map_eq_some_iff.mp step
  have seen : History.Invariant { s.history with users := s.registration.localView } :=
    ⟨fun uid document found => (inv.view found).2, inv.history.reads, inv.history.writes⟩
  have formed := History.step_invariant seen moved
  have grown : s.history.calls ⊆ history.calls :=
    History.calls_grow (s := { s.history with users := s.registration.localView }) moved
  exact ⟨inv.registered, inv.picked, ⟨fun uid document found =>
    (inv.history.documents uid document found).mono grown, formed.reads, formed.writes⟩,
    inv.documented, inv.label⟩

theorem step_inv (inv : Inv s) (step : machine.step s a = some t) : Inv t := by
  cases a with
  | account b =>
    obtain ⟨account, moved, rfl⟩ := Option.map_eq_some_iff.mp step
    exact inv.changed moved
  | didFinishPicking imageData => exact inv.photo (b := .didFinishPicking imageData) step
  | putData pick url => exact inv.photo (b := .putData pick url) step
  | downloadURL pick failed => exact inv.photo (b := .downloadURL pick failed) step
  | updateAvatar pick failed => exact inv.photo (b := .updateData pick failed) step
  | uploadHistoryToFirebase id name => exact inv.record (b := .upload s.currentUser id name) trivial step
  | getDocument serial failed => exact inv.read step
  | updateHistory serial failed => exact inv.record (b := .updateData serial failed) trivial step

/-- In every state reached, each document is that of an account: the names on the form of its
registration, the URL of a photo its user picked or the blank one, and a history of the user's
own calls; so the profile screen reads it, and shows full names only. No registration that is
still writing finds a document there. -/
theorem documents_readable {acts : List Action} (run : machine.run .start acts = some s) :
    (∀ uid document, s.users uid = some document → ∃ account ∈ s.registration.accounts,
      account.uid = uid ∧ Profiled s.registration s.avatars account document ∧
      History.WellFormed s.history.calls uid document ∧
      ∃ firstName lastName url, Names s.registration account.attempt firstName lastName ∧
        Profile.UserProfile.ofDocument? (some document) =
          some ⟨some (firstName ++ " " ++ lastName), some url⟩) ∧
    (∀ name, s.account.profile.fullNameLabel = some name →
      name = "Label" ∨ FullName s.registration name) ∧
    ∀ write ∈ s.registration.writing, s.users write.uid = none := by
  have inv := Transition.Machine.run_invariant step_inv run start_inv
  refine ⟨?_, inv.label, inv.registered.inv.unwritten⟩
  intro uid document found
  obtain ⟨account, member, same, profiled⟩ := inv.documented uid document found
  obtain ⟨firstName, lastName, url, names, -, read⟩ := profiled.ofDocument
  exact ⟨account, member, same, profiled, inv.history.documents uid document found, firstName,
    lastName, url, names, read⟩

/-- Ann registers, picks a photo and opens a movie; the callbacks cross. -/
def annJoins : List Action :=
  [.account (.registration .open),
    .account (.registration (.signUpButtonDidTapped 0 Registration.ann)),
    .account (.accountCreated 0 "u"), .account (.registration (.createUser 0 (some "u"))),
    .didFinishPicking (some "photo"),
    .uploadHistoryToFirebase "949" "Heat", .account (.registration (.setData 0 false)),
    .putData 0 (some "https://storage/u"), .getDocument 0 false, .downloadURL 0 false,
    .account (.profile .notify), .updateHistory 0 false, .updateAvatar 0 false,
    .account (.profile (.getDocument 0 false))]

theorem documents_readable_ann_joins : ∃ s document, machine.run .start annJoins = some s ∧
    s.users "u" = some document ∧ s.account.profile.fullNameLabel = some "Ann Lee" ∧
    History.WellFormed [("u", "949", "Heat")] "u" document ∧ FullName s.registration "Ann Lee" := by
  obtain ⟨s, document, run, stored, calls⟩ : ∃ s document,
      machine.run .start annJoins = some s ∧ s.users "u" = some document ∧
      s.history.calls = [("u", "949", "Heat")] := ⟨_, _, rfl, rfl, rfl⟩
  have label : (machine.run .start annJoins).bind (·.account.profile.fullNameLabel) =
      some "Ann Lee" := by decide +kernel
  rw [run, Option.bind_some] at label
  obtain ⟨documents, shown, -⟩ := documents_readable run
  obtain ⟨account, -, -, -, formed, -⟩ := documents "u" document stored
  have fullName : FullName s.registration "Ann Lee" :=
    (shown "Ann Lee" label).resolve_left (by decide)
  exact ⟨s, document, run, stored, label, calls ▸ formed, fullName⟩

end MoviesApp.Accounts
