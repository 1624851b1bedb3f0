import MoviesApp.Screens.Login
import MoviesApp.Screens.Profile

/-! "Sign in your last account". The profile's view model remembers the uid it last loaded
a profile for, in memory; the login's view model saves credentials, in the keychain. A
restart keeps the keychain and the session and makes a new profile screen. -/
namespace MoviesApp.LastAccount
open Firestore Locksmith

/-- An account of Firebase, whose uid is never empty. -/
structure Account where
  uid : Uid
  issued : uid ≠ ""

/-- The two stores, with the ledger of the logins and the account that was signed in most
recently. The screen's own ledger tells which profiles were read since the app started. -/
structure State where
  profile : Profile.State
  keychain : Keychain
  logins : List Login.Call
  lastAccount : Option Uid

inductive Action where
  | login (account : Account) (email password : String)
  | register (account : Account)
  | quickSignIn (account : Account)
  | signOut
  | notify
  | restart

/-- The email and password that `ProfileViewModel.singIn` submits, if it finds them. -/
def singIn (profile : Profile.State) (keychain : Keychain) : Option (String × String) := do
  let dictData ← loadDataForUserAccount keychain profile.userUid
  let email ← dictData.lookup "email"
  let password ← dictData.lookup "password"
  return (email, password)

/-- An app just installed: nobody signed in and nothing saved. -/
def State.start : State := ⟨.start none, fun _ => none, [], none⟩

variable (users : Collection)

/-- Firebase makes the account the current user; the listener is told later. -/
def signedIn (s : State) (account : Account) : Option State :=
  (Profile.step users s.profile (.signIn account.uid)).map fun profile =>
    { s with profile := profile, lastAccount := some account.uid }

/-- The account is Firebase's answer: to the form's email and password, to a registration,
or to what `singIn` submits. -/
def step (s : State) : Action → Option State
  | .login account email password =>
    signedIn users { s with
      keychain := Login.saveDataIntKeyChain s.keychain email password account.uid
      logins := s.logins ++ [⟨account.uid, email, password⟩] } account
  | .register account => signedIn users s account
  | .quickSignIn account => (singIn s.profile s.keychain).bind fun _ => signedIn users s account
  | .signOut => (Profile.step users s.profile .signOut).map fun profile => { s with profile := profile }
  | .notify => (Profile.step users s.profile .notify).map fun profile => { s with profile := profile }
  | .restart => some { s with profile := .start s.profile.currentUser }

def machine : Transition.Machine State Action := ⟨step users⟩

/-- While nobody is signed in, the last account is remembered and `singIn` submits the
credentials of a login of it. -/
def Remembered (s : State) : Prop :=
  s.profile.currentUser = none → ∀ account, s.lastAccount = some account →
    s.profile.userUid = account ∧ ∃ call ∈ s.logins, call.userUid = account ∧
      loadDataForUserAccount s.keychain account = some call.credentials ∧
      singIn s.profile s.keychain = some (call.email, call.password)

/-- The user who signs out has logged in through the login screen before, and theirs is
the last profile read since the app started; the app is not restarted while nobody is
signed in. -/
def Keeps (s : State) : Action → Prop
  | .signOut => ∀ uid, s.profile.currentUser = some uid →
      (∃ call ∈ s.logins, call.userUid = uid) ∧ s.profile.reads.getLast? = some uid
  | .restart => s.profile.currentUser = none → s.lastAccount = none
  | .login _ _ _ | .register _ | .quickSignIn _ | .notify => True

/-- The keychain has an entry for exactly the accounts that logged in, and each is the
email and password of one of the account's logins. -/
structure Saved (keychain : Keychain) (logins : List Login.Call) : Prop where
  each : ∀ call ∈ logins, keychain call.userUid ≠ none
  entry : ∀ uid data, keychain uid = some data →
    ∃ call ∈ logins, call.userUid = uid ∧ data = call.credentials

/-- What the two stores hold, in terms of the ledgers. -/
structure Sound (s : State) : Prop where
  current : ∀ uid, s.profile.currentUser = some uid → s.lastAccount = some uid
  issued : ∀ uid, s.lastAccount = some uid → uid ≠ ""
  userUid : s.profile.userUid = s.profile.reads.getLast?.getD ""
  saved : Saved s.keychain s.logins

variable {users} {s next : State} {account : Account} {uid : Uid}

theorem Saved.save {keychain : Keychain} {logins : List Login.Call} (saved : Saved keychain logins)
    (call : Login.Call) :
    Saved (Login.saveDataIntKeyChain keychain call.email call.password call.userUid)
      (logins ++ [call]) := by
  have earlier : ∀ uid data, keychain uid = some data →
      ∃ other ∈ logins ++ [call], other.userUid = uid ∧ data = other.credentials := by
    intro uid data stored
    obtain ⟨other, member, same⟩ := saved.entry uid data stored
    exact ⟨other, List.mem_append_left _ member, same⟩
  cases entry : keychain call.userUid with
  | some stored =>
    simp only [Login.saveDataIntKeyChain, saveData_existing entry]
    refine ⟨Pool.forall_snoc saved.each ?_, earlier⟩
    rw [entry]
    exact Option.some_ne_none _
  | none =>
    simp only [Login.saveDataIntKeyChain, saveData_new entry]
    constructor
    · intro other member
      by_cases same : other.userUid = call.userUid
      · rw [same, Function.update_self]
        exact Option.some_ne_none _
      · rw [Function.update_of_ne same]
        rcases List.mem_append.mp member with before | last
        · exact saved.each other before
        · exact (same (congrArg _ (List.mem_singleton.mp last))).elim
    · intro uid data stored
      by_cases same : uid = call.userUid
      · rw [same, Function.update_self] at stored
        exact ⟨call, List.mem_append_right _ (List.mem_singleton.mpr rfl), same.symm,
          (Option.some.inj stored).symm⟩
      · rw [Function.update_of_ne same] at stored
        exact earlier uid data stored

theorem signedIn_eq : signedIn users s account = some { s with
    profile := { s.profile with
      currentUser := some account.uid, notifications := s.profile.notifications + 1 }
    lastAccount := some account.uid } := rfl

theorem Sound.signedIn (sound : Sound s) (signed : LastAccount.signedIn users s account = some next) :
    Sound next := by
  rw [signedIn_eq] at signed
  obtain rfl := Option.some.inj signed
  refine ⟨fun uid same => same, ?_, sound.userUid, sound.saved⟩
  intro uid same
  exact Option.some.inj same ▸ account.issued

theorem step_signOut (step : (machine users).step s .signOut = some next) :
    (s.profile.currentUser = none ∧ next = s) ∨ ∃ uid, s.profile.currentUser = some uid ∧
      next = { s with profile := { s.profile with
        currentUser := none, notifications := s.profile.notifications + 1 } } := by
  obtain ⟨profile, signed, rfl⟩ := Option.map_eq_some_iff.mp step
  cases user : s.profile.currentUser with
  | none =>
    simp only [Profile.step, user] at signed
    exact Or.inl ⟨rfl, by rw [← Option.some.inj signed]⟩
  | some uid =>
    simp only [Profile.step, user] at signed
    exact Or.inr ⟨uid, rfl, by rw [← Option.some.inj signed]⟩

/-- The listener remembers the user whose profile it reads; nothing else changes here. -/
theorem step_notify (step : (machine users).step s .notify = some next) :
    ∃ profile, next = { s with profile := profile } ∧
      profile.currentUser = s.profile.currentUser ∧
      ((profile.userUid = s.profile.userUid ∧ profile.reads = s.profile.reads) ∨
        ∃ uid, s.profile.currentUser = some uid ∧
          profile.userUid = uid ∧ profile.reads = s.profile.reads ++ [uid]) := by
  obtain ⟨profile, told, rfl⟩ := Option.map_eq_some_iff.mp step
  refine ⟨profile, rfl, ?_⟩
  have told : (Profile.machine users).step s.profile .notify = some profile := told
  obtain ⟨waiting, -, ⟨-, rfl⟩ | ⟨uid, user, rfl⟩ | ⟨-, rfl⟩⟩ := Profile.step_notify told
  · exact ⟨rfl, Or.inl ⟨rfl, rfl⟩⟩
  · exact ⟨rfl, Or.inr ⟨uid, user, rfl, rfl⟩⟩
  · exact ⟨rfl, Or.inl ⟨rfl, rfl⟩⟩

theorem step_sound {a : Action} (sound : Sound s) (step : (machine users).step s a = some next) :
    Sound next := by
  cases a with
  | login account email password =>
    let saved : State := { s with
      keychain := Login.saveDataIntKeyChain s.keychain email password account.uid
      logins := s.logins ++ [⟨account.uid, email, password⟩] }
    have savedSound : Sound saved :=
      ⟨sound.current, sound.issued, sound.userUid, sound.saved.save ⟨account.uid, email, password⟩⟩
    have signed : signedIn users saved account = some next := step
    exact savedSound.signedIn signed
  | register account =>
    have signed : signedIn users s account = some next := step
    exact sound.signedIn signed
  | quickSignIn account =>
    obtain ⟨_, -, signed⟩ := Option.bind_eq_some_iff.mp step
    exact sound.signedIn signed
  | signOut =>
    obtain ⟨-, rfl⟩ | ⟨uid, user, rfl⟩ := step_signOut step
    · exact sound
    · exact ⟨nofun, sound.issued, sound.userUid, sound.saved⟩
  | notify =>
    obtain ⟨profile, rfl, current, userUid⟩ := step_notify step
    refine ⟨?_, sound.issued, ?_, sound.saved⟩
    · rw [current]
      exact sound.current
    · rcases userUid with ⟨same, reads⟩ | ⟨uid, -, same, reads⟩
      · rw [same, reads, sound.userUid]
      · rw [same, reads, List.getLast?_concat, Option.getD_some]
  | restart =>
    obtain rfl := Option.some.inj step
    exact ⟨sound.current, sound.issued, rfl, sound.saved⟩

/-- What is asked of the two stores about the account, in terms of the ledgers. -/
theorem Sound.remembers_iff (sound : Sound s) (last : s.lastAccount = some uid) :
    (s.profile.userUid = uid ∧ ∃ call ∈ s.logins, call.userUid = uid ∧
        loadDataForUserAccount s.keychain uid = some call.credentials ∧
        singIn s.profile s.keychain = some (call.email, call.password)) ↔
      (∃ call ∈ s.logins, call.userUid = uid) ∧ s.profile.reads.getLast? = some uid := by
  constructor
  · rintro ⟨userUid, call, member, same, -⟩
    refine ⟨⟨call, member, same⟩, ?_⟩
    rw [sound.userUid] at userUid
    cases read : s.profile.reads.getLast? with
    | some uid' => rw [read, Option.getD_some] at userUid; rw [userUid]
    | none =>
      rw [read, Option.getD_none] at userUid
      exact (sound.issued uid last userUid.symm).elim
  · rintro ⟨⟨call, member, same⟩, read⟩
    have userUid : s.profile.userUid = uid := by rw [sound.userUid, read, Option.getD_some]
    obtain ⟨data, stored⟩ := Option.ne_none_iff_exists'.mp (sound.saved.each call member)
    rw [same] at stored
    obtain ⟨saved, savedMember, savedFor, rfl⟩ := sound.saved.entry uid data stored
    refine ⟨userUid, saved, savedMember, savedFor, stored, ?_⟩
    rw [singIn, userUid, loadDataForUserAccount, stored]
    rfl

/-- Every step of a sound state decides whether the last account is still remembered. -/
theorem step_remembered_iff {a : Action} (sound : Sound s) (remembered : Remembered s)
    (step : (machine users).step s a = some next) : Remembered next ↔ Keeps s a := by
  cases a with
  | login account email password =>
    obtain rfl := Option.some.inj step
    exact iff_of_true nofun trivial
  | register account =>
    obtain rfl := Option.some.inj step
    exact iff_of_true nofun trivial
  | quickSignIn account =>
    obtain ⟨_, -, signed⟩ := Option.bind_eq_some_iff.mp step
    obtain rfl := Option.some.inj signed
    exact iff_of_true nofun trivial
  | signOut =>
    obtain ⟨nobody, rfl⟩ | ⟨uid, user, rfl⟩ := step_signOut step
    · refine iff_of_true remembered ?_
      intro uid user
      rw [nobody] at user
      exact nomatch user
    · have last := sound.current uid user
      simp only [Keeps, user, Option.some.injEq, forall_eq', ← sound.remembers_iff last]
      simp only [Remembered, last, Option.some.injEq, forall_eq', forall_const]
      exact Iff.rfl
  | notify =>
    obtain ⟨profile, rfl, current, userUid⟩ := step_notify step
    refine iff_of_true ?_ trivial
    intro nobody account last
    rw [current] at nobody
    rcases userUid with ⟨same, -⟩ | ⟨uid, user, -⟩
    · have kept := remembered nobody account last
      simp only [singIn] at kept ⊢
      rw [same]
      exact kept
    · rw [nobody] at user
      exact nomatch user
  | restart =>
    obtain rfl := Option.some.inj step
    constructor
    · intro forgotten nobody
      cases last : s.lastAccount with
      | none => rfl
      | some account =>
        obtain ⟨userUid, -⟩ := forgotten nobody account last
        exact (sound.issued account last userUid.symm).elim
    · intro keeps nobody account last
      rw [keeps nobody] at last
      exact nomatch last

theorem start_sound : Sound .start :=
  ⟨nofun, nofun, rfl, List.forall_mem_nil _, nofun⟩

/-- For every run: in every state reached in which nobody is signed in, the last account is
remembered and `singIn` submits its credentials, if and only if every sign-out is by a
user who logged in and whose profile was read, and no restart falls after a sign-out. -/
theorem remembered_iff {acts : List Action} {final : State}
    (run : (machine users).run .start acts = some final) :
    (∀ before after reached, acts = before ++ after →
      (machine users).run .start before = some reached → Remembered reached) ↔
      (machine users).Along Keeps .start acts :=
  Transition.Machine.forall_reached_iff step_sound step_remembered_iff run start_sound nofun

/-- A login, a sign-out, a quick sign-in and the next sign-out. -/
def quickSignIn : List Action :=
  [.login ⟨"u", by decide⟩ "u@mail.com" "one", .notify, .signOut, .notify,
    .quickSignIn ⟨"u", by decide⟩, .notify, .signOut]

theorem remembered_quick_sign_in : ∃ s, (machine fun _ => none).run .start quickSignIn = some s ∧
    s.profile.currentUser = none ∧ s.lastAccount = some "u" ∧ Remembered s := by
  have keeps : ∀ {s : State}, s.profile.currentUser = some "u" →
      s.logins = [⟨"u", "u@mail.com", "one"⟩] → s.profile.reads.getLast? = some "u" →
      Keeps s .signOut := by
    intro s user logins read uid same
    obtain rfl := Option.some.inj (user.symm.trans same)
    exact ⟨⟨_, by rw [logins]; exact List.mem_singleton.mpr rfl, rfl⟩, read⟩
  refine ⟨_, rfl, rfl, rfl, (@remembered_iff (fun _ => none) _ _ rfl).mpr ?_ quickSignIn [] _ rfl rfl⟩
  exact ⟨trivial, trivial, keeps rfl rfl rfl, trivial, trivial, trivial, keeps rfl rfl rfl, trivial⟩

/-- An account that was only registered has no credentials to submit; and a restart
forgets which account was the last. -/
theorem last_account_lost :
    (∃ s, (machine fun _ => none).run .start
        [.register ⟨"u", by decide⟩, .notify, .signOut] = some s ∧
      s.profile.currentUser = none ∧ s.lastAccount = some "u" ∧ s.profile.userUid = "u" ∧
      singIn s.profile s.keychain = none ∧ ¬ Remembered s) ∧
    ∃ s, (machine fun _ => none).run .start
        [.login ⟨"u", by decide⟩ "u@mail.com" "one", .notify, .signOut, .restart] = some s ∧
      s.profile.currentUser = none ∧ s.lastAccount = some "u" ∧ s.profile.userUid = "" ∧
      singIn s.profile s.keychain = none ∧ ¬ Remembered s := by
  refine ⟨⟨_, rfl, rfl, rfl, rfl, rfl, ?_⟩, ⟨_, rfl, rfl, rfl, rfl, rfl, ?_⟩⟩
  · intro remembered
    obtain ⟨-, call, member, -⟩ := remembered rfl "u" rfl
    exact nomatch member
  · intro remembered
    obtain ⟨userUid, -⟩ := remembered rfl "u" rfl
    exact absurd userUid (by decide)

end MoviesApp.LastAccount
