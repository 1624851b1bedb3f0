import MoviesApp.Screens.Profile
import MoviesApp.Screens.Registered

/-! A new account on the profile screen. Auth makes the account the current user and announces
it before `createUser`'s completion runs, so the completion, which only then writes the document,
and the listener's one read of the document are on their way together. -/
namespace MoviesApp.NewProfile
open Firestore

/-- The registration screens and the profile screen, over one collection. `signedUp` are the
accounts whose completion is still on the main queue. -/
structure State where
  registration : Registration.State
  profile : Profile.State
  signedUp : List Registration.Account

inductive Action where
  | accountCreated (attempt : Nat) (uid : Uid)
  | registration (a : Registration.Action)
  | profile (a : Profile.Action)

def State.start : State := ⟨.start, .start none, []⟩

/-- The accounts of the back end. -/
def State.accounts (s : State) : List Registration.Account := s.registration.accounts ++ s.signedUp

/-- A new account is signed in by Auth, and its completion follows. The completion runs once for
each account; only accounts are signed in again later. -/
def step (s : State) : Action → Option State
  | .accountCreated attempt uid =>
    if (s.registration.creating.any (·.attempt == attempt)) ∧
        attempt ∉ s.signedUp.map Registration.Account.attempt ∧
        uid ∉ s.accounts.map Registration.Account.uid then
      (Profile.step s.registration.localView s.profile (.signIn uid)).map fun profile =>
        { s with profile := profile, signedUp := s.signedUp ++ [⟨uid, attempt⟩] }
    else none
  | .registration (.createUser attempt (some uid)) =>
    (Pool.take? (· == ⟨uid, attempt⟩) s.signedUp).bind fun (_, signedUp) =>
      (Registration.step s.registration (.createUser attempt (some uid))).map fun registration =>
        { s with registration := registration, signedUp := signedUp }
  | .registration (.createUser attempt none) =>
    if attempt ∈ s.signedUp.map Registration.Account.attempt then none
    else (Registration.step s.registration (.createUser attempt none)).map fun registration =>
      { s with registration := registration }
  | .registration a => (Registration.step s.registration a).map fun registration =>
      { s with registration := registration }
  | .profile (.signIn uid) =>
    if uid ∈ s.accounts.map Registration.Account.uid then
      (Profile.step s.registration.localView s.profile (.signIn uid)).map fun profile =>
        { s with profile := profile }
    else none
  | .profile a => (Profile.step s.registration.localView s.profile a).map fun profile =>
      { s with profile := profile }

def machine : Transition.Machine State Action := ⟨step⟩

/-- The latest read is not answered before the completion has called for the document's write,
and not with an error if there is a document to see; and once its reply is in, no earlier read's
reply brings another name. -/
def InTime (s : State) : Action → Prop
  | .profile (.getDocument ticket failed) => ∀ read ∈ s.profile.reading.find? (·.ticket == ticket),
      if ticket + 1 = s.profile.reads.length then
        read.uid ∉ s.signedUp.map Registration.Account.uid ∧
          ((s.registration.localView read.uid).isSome → failed = false)
      else s.profile.Replied → ∀ profile, Profile.UserProfile.ofDocument?
          (if failed then none else s.registration.localView read.uid) = some profile →
        profile.fullname = s.profile.fullNameLabel
  | .profile _ | .registration _ | .accountCreated _ _ => True

variable {s next : State} {a : Action} {uid : Uid}

/-- The ways to step: Auth signs a new account in, a registration screen goes on (with a
completion taken off the queue or with none), or the profile screen. -/
theorem step_cases (step : machine.step s a = some next) :
    (∃ attempt uid, a = .accountCreated attempt uid ∧
      uid ∉ s.accounts.map Registration.Account.uid ∧ next = { s with
        profile := { s.profile with
          currentUser := some uid, notifications := s.profile.notifications + 1 }
        signedUp := s.signedUp ++ [⟨uid, attempt⟩] }) ∨
    (∃ b registration signedUp, a = .registration b ∧
      Registration.machine.step s.registration b = some registration ∧
      next = ⟨registration, s.profile, signedUp⟩ ∧
      ((signedUp = s.signedUp ∧ ∀ attempt uid, b ≠ .createUser attempt (some uid)) ∨
        ∃ account, b = .createUser account.attempt (some account.uid) ∧
          s.signedUp.Perm (account :: signedUp))) ∨
    ∃ b profile, a = .profile b ∧
      (Profile.machine s.registration.localView).step s.profile b = some profile ∧
      next = { s with profile := profile } ∧
      ∀ uid, b = .signIn uid → uid ∈ s.accounts.map Registration.Account.uid := by
  cases a with
  | accountCreated attempt uid =>
    obtain ⟨⟨-, -, fresh⟩, signed⟩ := Option.ite_none_right_eq_some.mp step
    obtain ⟨profile, signed, rfl⟩ := Option.map_eq_some_iff.mp signed
    cases signed
    exact Or.inl ⟨attempt, uid, rfl, fresh, rfl⟩
  | registration b =>
    refine Or.inr (Or.inl ⟨b, ?_⟩)
    by_cases completes : ∃ attempt uid, b = .createUser attempt (some uid)
    · obtain ⟨attempt, uid, rfl⟩ := completes
      obtain ⟨⟨account, signedUp⟩, taken, completed⟩ := Option.bind_eq_some_iff.mp step
      obtain ⟨registration, made, rfl⟩ := Option.map_eq_some_iff.mp completed
      obtain ⟨own, perm⟩ := Pool.take?_spec taken
      obtain rfl : account = ⟨uid, attempt⟩ := beq_iff_eq.mp own
      exact ⟨registration, signedUp, rfl, made, rfl, Or.inr ⟨⟨uid, attempt⟩, rfl, perm⟩⟩
    · have others : ∀ attempt uid, b ≠ .createUser attempt (some uid) :=
        fun attempt uid same => completes ⟨attempt, uid, same⟩
      obtain ⟨registration, made, rfl⟩ : ∃ registration,
          Registration.machine.step s.registration b = some registration ∧
            next = { s with registration := registration } := by
        cases b with
        | createUser attempt result =>
          cases result with
          | some uid => exact absurd rfl (others attempt uid)
          | none =>
            obtain ⟨-, refused⟩ := Option.ite_none_left_eq_some.mp step
            obtain ⟨registration, made, rfl⟩ := Option.map_eq_some_iff.mp refused
            exact ⟨registration, made, rfl⟩
        | _ =>
          simp only [machine, NewProfile.step, Option.map_eq_some_iff] at step
          obtain ⟨registration, made, rfl⟩ := step
          exact ⟨registration, made, rfl⟩
      exact ⟨registration, s.signedUp, rfl, made, rfl, Or.inl ⟨rfl, others⟩⟩
  | profile b =>
    refine Or.inr (Or.inr ⟨b, ?_⟩)
    by_cases signs : ∃ uid, b = .signIn uid
    · obtain ⟨uid, rfl⟩ := signs
      obtain ⟨account, signed⟩ := Option.ite_none_right_eq_some.mp step
      obtain ⟨profile, made, rfl⟩ := Option.map_eq_some_iff.mp signed
      refine ⟨profile, rfl, made, rfl, ?_⟩
      rintro _ ⟨⟩
      exact account
    · obtain ⟨profile, made, rfl⟩ : ∃ profile,
          (Profile.machine s.registration.localView).step s.profile b = some profile ∧
            next = { s with profile := profile } := by
        cases b with
        | signIn uid => exact absurd ⟨uid, rfl⟩ signs
        | _ =>
          obtain ⟨profile, made, rfl⟩ := Option.map_eq_some_iff.mp step
          exact ⟨profile, made, rfl⟩
      exact ⟨profile, rfl, made, rfl, fun uid same => absurd ⟨uid, same⟩ signs⟩

/-- What every run keeps: users are told apart by their accounts, every document is that of its
account's form, and only accounts are signed in and read. -/
structure Inv (s : State) : Prop where
  registered : Registration.Registered s.registration
  distinct : (s.accounts.map Registration.Account.uid).Nodup
  documents : ∀ uid document, s.registration.users uid = some document →
    ∃ account ∈ s.registration.accounts, account.uid = uid ∧ ∃ firstName lastName,
      Registration.Names s.registration account.attempt firstName lastName ∧
      document = newDocument firstName lastName uid
  kept : Profile.Kept s.profile
  current : ∀ uid, s.profile.currentUser = some uid →
    uid ∈ s.accounts.map Registration.Account.uid
  reads : ∀ uid ∈ s.profile.reads, uid ∈ s.accounts.map Registration.Account.uid

theorem start_inv : Inv .start where
  registered := Registration.start_registered
  distinct := List.nodup_nil
  documents _ _ none := absurd none (Option.some_ne_none _).symm
  kept := Profile.start_kept none
  current _ none := absurd none (Option.some_ne_none _).symm
  reads := List.forall_mem_nil _

/-- The user is the one who signs in or the one before, and reads are for the user. -/
theorem profile_users {users : Collection} {profile later : Profile.State} {b : Profile.Action}
    (step : (Profile.machine users).step profile b = some later) :
    (∀ uid, later.currentUser = some uid → profile.currentUser = some uid ∨ b = .signIn uid) ∧
      ∀ uid ∈ later.reads, uid ∈ profile.reads ∨ profile.currentUser = some uid := by
  cases b with
  | signIn uid =>
    cases step
    exact ⟨fun other same => Or.inr (congrArg _ (Option.some.inj same)), fun _ => Or.inl⟩
  | signOut =>
    obtain ⟨-, rfl⟩ | rfl := Profile.step_signOut step
    · exact ⟨fun _ => Or.inl, fun _ => Or.inl⟩
    · exact ⟨nofun, fun _ => Or.inl⟩
  | notify =>
    obtain ⟨_, -, ⟨-, rfl⟩ | ⟨uid, user, rfl⟩ | ⟨-, rfl⟩⟩ := Profile.step_notify step
    · exact ⟨fun _ => Or.inl, fun _ => Or.inl⟩
    · exact ⟨fun _ => Or.inl, Pool.forall_snoc (fun _ => Or.inl) (Or.inr user)⟩
    · exact ⟨fun _ => Or.inl, fun _ => Or.inl⟩
  | getDocument ticket failed =>
    obtain ⟨_, _, -, -, rfl | ⟨_, -, rfl⟩⟩ := Profile.step_getDocument step
    · exact ⟨fun _ => Or.inl, fun _ => Or.inl⟩
    · exact ⟨fun _ => Or.inl, fun _ => Or.inl⟩
  | respond serial response =>
    obtain ⟨view, -, rfl⟩ := Option.map_eq_some_iff.mp step
    exact ⟨fun _ => Or.inl, fun _ => Or.inl⟩
  | deliver serial =>
    obtain ⟨view, -, rfl⟩ := Option.map_eq_some_iff.mp step
    exact ⟨fun _ => Or.inl, fun _ => Or.inl⟩

/-- A step of a registration screen adds no account that Auth has not created. -/
theorem accounts_perm {registration after : Registration.State} {signedUp left : List Registration.Account}
    {b : Registration.Action} (change : Registration.Change registration after b)
    (queue : (left = signedUp ∧ ∀ attempt uid, b ≠ .createUser attempt (some uid)) ∨
      ∃ account, b = .createUser account.attempt (some account.uid) ∧ signedUp.Perm (account :: left)) :
    (after.accounts ++ left).Perm (registration.accounts ++ signedUp) := by
  rw [change.accounts, List.append_assoc]
  apply List.Perm.append_left
  obtain ⟨rfl, others⟩ | ⟨account, rfl, perm⟩ := queue
  · have none : b.account = [] := by
      unfold Registration.Action.account
      split
      · exact absurd rfl (others _ _)
      · rfl
    rw [none, List.nil_append]
  · exact perm.symm

theorem accounts_snoc (s : State) (account : Registration.Account) :
    s.accounts ++ [account] = s.registration.accounts ++ (s.signedUp ++ [account]) ∧
      s.accounts.map Registration.Account.uid ⊆
        (s.registration.accounts ++ (s.signedUp ++ [account])).map Registration.Account.uid := by
  refine ⟨List.append_assoc .., ?_⟩
  rw [← List.append_assoc, List.map_append]
  exact List.subset_append_left _ _

theorem step_inv (inv : Inv s) (step : machine.step s a = some next) : Inv next := by
  obtain ⟨attempt, uid, rfl, fresh, rfl⟩ | ⟨b, after, signedUp, rfl, made, rfl, queue⟩ |
    ⟨b, profile, rfl, made, rfl, account⟩ := step_cases step
  · obtain ⟨more, grown⟩ := accounts_snoc s ⟨uid, attempt⟩
    refine ⟨inv.registered, ?_, inv.documents, ?_, ?_, fun other read => grown (inv.reads other read)⟩
    · change ((s.registration.accounts ++ (s.signedUp ++ [_])).map _).Nodup
      rw [← more]
      exact Pool.nodup_snoc inv.distinct fun account member same =>
        fresh (List.mem_map.mpr ⟨account, member, same⟩)
    · have signed : (Profile.machine s.registration.localView).step s.profile (.signIn uid) = some _ :=
        rfl
      exact Profile.step_kept inv.kept signed
    · rintro _ ⟨⟩
      change _ ∈ (s.registration.accounts ++ (s.signedUp ++ [_])).map _
      rw [← more, List.map_append]
      exact List.mem_append_right _ (List.mem_singleton.mpr rfl)
  · have change := Registration.step_change inv.registered.inv made
    have perm := (accounts_perm change queue).map Registration.Account.uid
    refine ⟨inv.registered.step made, perm.nodup_iff.mpr inv.distinct, ?_, inv.kept,
      fun uid user => perm.mem_iff.mpr (inv.current uid user),
      fun uid read => perm.mem_iff.mpr (inv.reads uid read)⟩
    intro uid document stored
    have kept (stored : s.registration.users uid = some document) :
        ∃ account ∈ after.accounts, account.uid = uid ∧ ∃ firstName lastName,
          Registration.Names after account.attempt firstName lastName ∧
          document = newDocument firstName lastName uid := by
      obtain ⟨account, member, own, firstName, lastName, names, same⟩ := inv.documents uid document stored
      exact ⟨account, change.grown.accounts member, own, firstName, lastName, names.mono change.grown,
        same⟩
    rcases change.users with same | ⟨write, member, same⟩
    · exact kept (same ▸ stored)
    · by_cases own : uid = write.uid
      · subst own
        rw [same, setData_same] at stored
        exact ⟨_, change.grown.accounts (inv.registered.inv.owned write member), rfl, _, _,
          (inv.registered.named write member).mono change.grown, (Option.some.inj stored).symm⟩
      · rw [same, setData_other own] at stored
        exact kept stored
  · obtain ⟨user, reads⟩ := profile_users made
    refine ⟨inv.registered, inv.distinct, inv.documents, Profile.step_kept inv.kept made, ?_, ?_⟩
    · intro uid same
      exact (user uid same).elim (inv.current uid) (account uid)
    · intro uid read
      exact (reads uid read).elim (inv.reads uid) (inv.current uid)

/-- What the profile screen makes of a document it sees: the full name on the form. -/
theorem Inv.view {document : Document} (inv : Inv s)
    (seen : s.registration.localView uid = some document) :
    ∃ name, Registration.FullName s.registration uid name ∧
      Profile.UserProfile.ofDocument? (some document) = some ⟨some name, some " "⟩ := by
  obtain ⟨-, view⟩ | ⟨write, member, own, view⟩ := Registration.localView_cases s.registration uid
  · obtain ⟨account, member, own, firstName, lastName, names, rfl⟩ :=
      inv.documents uid document (view.symm.trans seen)
    exact ⟨_, ⟨account, member, own, firstName, lastName, names, rfl⟩, rfl⟩
  · obtain rfl := Option.some.inj (seen.symm.trans view)
    exact ⟨_, ⟨_, inv.registered.inv.owned write member, own, _, _,
      inv.registered.named write member, rfl⟩, rfl⟩

/-- An account has one full name. -/
theorem Inv.names {account : Registration.Account} {name firstName lastName : String} (inv : Inv s)
    (full : Registration.FullName s.registration account.uid name)
    (member : account ∈ s.registration.accounts)
    (names : Registration.Names s.registration account.attempt firstName lastName) :
    name = firstName ++ " " ++ lastName := by
  obtain ⟨other, listed, own, first, last, others, rfl⟩ := full
  obtain rfl := inv.registered.inv.same_account listed member own
  obtain ⟨rfl, rfl⟩ := others.unique names
  rfl

/-- How the latest read stands: its reply is to come, or there is no document for it and none will
be, or the reply is in and the label has the full name. -/
inductive Latest (s : State) (uid : Uid) : Prop where
  | coming (read : Profile.Reading) (member : read ∈ s.profile.reading)
      (latest : read.ticket + 1 = s.profile.reads.length)
  | unwritten (completed : uid ∉ s.signedUp.map Registration.Account.uid)
      (unseen : s.registration.localView uid = none)
  | shown (name : String) (replied : s.profile.Replied)
      (full : Registration.FullName s.registration uid name)
      (label : s.profile.fullNameLabel = some name)

def ShowsLatest (s : State) : Prop := ∀ uid, s.profile.reads.getLast? = some uid → Latest s uid

/-- Steps that touch neither reads nor label. -/
theorem Latest.frame {profile : Profile.State} (latest : Latest s uid)
    (reading : profile.reading = s.profile.reading) (reads : profile.reads = s.profile.reads)
    (handled : profile.handled = s.profile.handled)
    (label : profile.fullNameLabel = s.profile.fullNameLabel) :
    Latest { s with profile := profile } uid := by
  cases latest with
  | coming read member latest => exact .coming read (reading ▸ member) (reads ▸ latest)
  | unwritten completed unseen => exact .unwritten completed unseen
  | shown name replied full shown =>
    refine .shown name ?_ full (label.trans shown)
    unfold Profile.State.Replied
    rw [reads, handled]
    exact replied

/-- A new account leaves the others as they stand. -/
theorem Latest.created (latest : Latest s uid) (account : Registration.Account)
    (other : uid ≠ account.uid) : Latest { s with signedUp := s.signedUp ++ [account] } uid := by
  cases latest with
  | coming read member latest => exact .coming read member latest
  | unwritten completed unseen =>
    refine .unwritten ?_ unseen
    rw [List.map_append, List.mem_append, List.map_singleton, List.mem_singleton]
    exact not_or.mpr ⟨completed, other⟩
  | shown name replied full label => exact .shown name replied full label

theorem Latest.registered {b : Registration.Action} {after : Registration.State}
    {signedUp : List Registration.Account} (latest : Latest s uid)
    (change : Registration.Change s.registration after b)
    (queue : (signedUp = s.signedUp ∧ ∀ attempt uid, b ≠ .createUser attempt (some uid)) ∨
      ∃ account, b = .createUser account.attempt (some account.uid) ∧
        s.signedUp.Perm (account :: signedUp)) : Latest ⟨after, s.profile, signedUp⟩ uid := by
  cases latest with
  | coming read member latest => exact .coming read member latest
  | unwritten completed unseen =>
    obtain ⟨rfl, others⟩ | ⟨account, rfl, perm⟩ := queue
    · exact .unwritten completed (change.localView_none unseen fun attempt => others attempt uid)
    · have members := (perm.map Registration.Account.uid).mem_iff (a := uid)
      refine .unwritten (fun member => completed (members.mpr (List.mem_cons_of_mem _ member)))
        (change.localView_none unseen ?_)
      rintro attempt ⟨⟩
      exact completed (members.mpr List.mem_cons_self)
  | shown name replied full label => exact .shown name replied (full.mono change.grown) label

theorem getDocument_replied {users : Collection} {profile later : Profile.State} {ticket : Nat}
    {failed : Bool}
    (step : (Profile.machine users).step profile (.getDocument ticket failed) = some later) :
    ∃ read reading, Pool.take? (·.ticket == ticket) profile.reading = some (read, reading) ∧
      later = Profile.replied { profile with reading := reading } read.ticket
        (if failed then none else users read.uid) := by
  obtain ⟨⟨read, reading⟩, taken, result⟩ := Option.map_eq_some_iff.mp step
  obtain rfl : read.ticket = ticket := Pool.take?_key taken
  exact ⟨read, reading, taken, result.symm⟩

theorem replied_some {profile : Profile.State} {ticket : Nat} {document : Option Document}
    {shown : Profile.UserProfile}
    (found : Profile.UserProfile.ofDocument? document = some shown) :
    Profile.replied profile ticket document = { profile with
      handled := profile.handled ++ [ticket], fullNameLabel := shown.fullname
      view := profile.view.downloadedFromFirebase shown.avatarURL } := by
  simp only [Profile.replied, found, Profile.profileClosure]

/-- The reply to the latest read, in time. -/
theorem Inv.replied {read : Profile.Reading} {failed : Bool} (inv : Inv s)
    (reading : List Profile.Reading) (latest : read.ticket + 1 = s.profile.reads.length)
    (completed : read.uid ∉ s.signedUp.map Registration.Account.uid)
    (succeeds : (s.registration.localView read.uid).isSome → failed = false) :
    Latest ⟨s.registration, Profile.replied { s.profile with reading := reading } read.ticket
      (if failed then none else s.registration.localView read.uid), s.signedUp⟩ read.uid := by
  cases seen : s.registration.localView read.uid with
  | none => exact .unwritten completed seen
  | some document =>
    obtain rfl : failed = false := succeeds (Option.isSome_of_eq_some seen)
    obtain ⟨name, full, found⟩ := inv.view seen
    rw [if_neg Bool.false_ne_true, replied_some found]
    exact .shown name ⟨read.ticket, List.mem_append_right _ (List.mem_singleton.mpr rfl), latest⟩
      full rfl

/-- The reply to an earlier read. -/
theorem Latest.replied {read : Profile.Reading} {reading : List Profile.Reading}
    {document : Option Document} (standing : Latest s uid)
    (taken : Pool.take? (·.ticket == read.ticket) s.profile.reading = some (read, reading))
    (earlier : read.ticket + 1 ≠ s.profile.reads.length)
    (same : s.profile.Replied → ∀ shown, Profile.UserProfile.ofDocument? document = some shown →
      shown.fullname = s.profile.fullNameLabel) :
    Latest ⟨s.registration, Profile.replied { s.profile with reading := reading } read.ticket
      document, s.signedUp⟩ uid := by
  cases found : Profile.UserProfile.ofDocument? document with
  | none =>
    simp only [Profile.replied, found]
    cases standing with
    | coming other member latest =>
      refine .coming other ((Pool.take?_cases taken member).resolve_left ?_) latest
      rintro rfl
      exact earlier latest
    | unwritten completed unseen => exact .unwritten completed unseen
    | shown name replied full label => exact .shown name replied full label
  | some shown =>
    rw [replied_some found]
    cases standing with
    | coming other member latest =>
      refine .coming other ((Pool.take?_cases taken member).resolve_left ?_) latest
      rintro rfl
      exact earlier latest
    | unwritten completed unseen => exact .unwritten completed unseen
    | shown name replied full label =>
      obtain ⟨ticket, member, last⟩ := replied
      exact .shown name ⟨ticket, List.mem_append_left _ member, last⟩ full
        ((same ⟨ticket, member, last⟩ shown found).trans label)

theorem profile_shows {b : Profile.Action} {profile : Profile.State} (inv : Inv s)
    (shows : ShowsLatest s) (inTime : InTime s (.profile b))
    (step : (Profile.machine s.registration.localView).step s.profile b = some profile) :
    ShowsLatest { s with profile := profile } := by
  cases b with
  | signIn uid =>
    cases step
    exact fun uid last => (shows uid last).frame rfl rfl rfl rfl
  | signOut =>
    obtain ⟨-, rfl⟩ | rfl := Profile.step_signOut step
    · exact shows
    · exact fun uid last => (shows uid last).frame rfl rfl rfl rfl
  | notify =>
    obtain ⟨_, -, ⟨-, rfl⟩ | ⟨user, -, rfl⟩ | ⟨-, rfl⟩⟩ := Profile.step_notify step
    · exact fun uid last => (shows uid last).frame rfl rfl rfl rfl
    · -- The new read is the latest from here on.
      refine fun _ _ => .coming _ (List.mem_append_right _ (List.mem_singleton.mpr rfl)) ?_
      rw [List.length_append, List.length_singleton]
    · exact fun uid last => (shows uid last).frame rfl rfl rfl rfl
  | getDocument ticket failed =>
    obtain ⟨read, reading, taken, rfl⟩ := getDocument_replied step
    obtain rfl : read.ticket = ticket := Pool.take?_key taken
    have met := inTime read (Pool.take?_find taken)
    have reads : (Profile.replied { s.profile with reading := reading } read.ticket
        (if failed then none else s.registration.localView read.uid)).reads = s.profile.reads := by
      unfold Profile.replied
      split <;> rfl
    intro uid last
    have last : s.profile.reads.getLast? = some uid := reads ▸ last
    by_cases latest : read.ticket + 1 = s.profile.reads.length
    · rw [if_pos latest] at met
      have own := inv.kept.own read (Pool.take?_mem taken)
      rw [List.getLast?_eq_getElem?, ← latest, Nat.add_sub_cancel, own] at last
      obtain rfl := Option.some.inj last
      exact inv.replied reading latest met.1 met.2
    · rw [if_neg latest] at met
      exact (shows uid last).replied taken latest met
  | respond serial response =>
    obtain ⟨view, -, rfl⟩ := Option.map_eq_some_iff.mp step
    exact fun uid last => (shows uid last).frame rfl rfl rfl rfl
  | deliver serial =>
    obtain ⟨view, -, rfl⟩ := Option.map_eq_some_iff.mp step
    exact fun uid last => (shows uid last).frame rfl rfl rfl rfl

theorem step_shows (inv : Inv s) (shows : ShowsLatest s) (inTime : InTime s a)
    (step : machine.step s a = some next) : ShowsLatest next := by
  obtain ⟨attempt, new, rfl, fresh, rfl⟩ | ⟨b, after, signedUp, rfl, made, rfl, queue⟩ |
    ⟨b, profile, rfl, made, rfl, -⟩ := step_cases step
  · intro uid last
    have account := inv.reads uid (List.mem_of_getLast? last)
    have other : uid ≠ new := fun same => fresh (same ▸ account)
    exact ((shows uid last).created ⟨new, attempt⟩ other).frame rfl rfl rfl rfl
  · have change := Registration.step_change inv.registered.inv made
    exact fun uid last => (shows uid last).registered change queue
  · exact profile_shows inv shows inTime made

/-- Nobody signs in or out. -/
def Stays (_ : State) : Action → Prop
  | .accountCreated _ _ | .profile (.signIn _) | .profile .signOut => False
  | .registration _ | .profile _ => True

/-- The user has been announced, and no reply is to come. -/
structure Idle (s : State) (uid : Uid) (label : Option String) : Prop where
  user : s.profile.currentUser = some uid
  announced : s.profile.previousUserID = some (some uid)
  reading : s.profile.reading = []
  shown : s.profile.fullNameLabel = label

theorem step_idle {label : Option String} (idle : Idle s uid label) (stays : Stays s a)
    (step : machine.step s a = some next) : Idle next uid label := by
  obtain ⟨_, _, rfl, -⟩ | ⟨b, after, signedUp, rfl, -, rfl, -⟩ | ⟨b, profile, rfl, made, rfl, -⟩ :=
    step_cases step
  · exact stays.elim
  · exact ⟨idle.user, idle.announced, idle.reading, idle.shown⟩
  cases b with
  | signIn other => exact stays.elim
  | signOut => exact stays.elim
  | notify =>
    -- An announcement of the same user does not reach the listener.
    have same : s.profile.previousUserID = some s.profile.currentUser := by
      rw [idle.announced, idle.user]
    obtain ⟨waiting, count, -⟩ := Profile.step_notify made
    simp only [Profile.machine, Profile.step, count, Profile.notified, if_pos same] at made
    obtain rfl := Option.some.inj made
    exact ⟨idle.user, idle.announced, idle.reading, idle.shown⟩
  | getDocument ticket failed =>
    obtain ⟨read, reading, taken, -⟩ := getDocument_replied made
    have member := Pool.take?_mem taken
    rw [idle.reading] at member
    exact absurd member List.not_mem_nil
  | respond serial response =>
    obtain ⟨view, -, rfl⟩ := Option.map_eq_some_iff.mp made
    exact ⟨idle.user, idle.announced, idle.reading, idle.shown⟩
  | deliver serial =>
    obtain ⟨view, -, rfl⟩ := Option.map_eq_some_iff.mp made
    exact ⟨idle.user, idle.announced, idle.reading, idle.shown⟩

/-- Before the completion there is no document to see, not even a write in flight. -/
theorem Inv.unseen (inv : Inv s) (created : uid ∈ s.signedUp.map Registration.Account.uid) :
    s.registration.localView uid = none := by
  have distinct := inv.distinct
  rw [State.accounts, List.map_append, List.nodup_append] at distinct
  have other : ∀ account ∈ s.registration.accounts, account.uid ≠ uid :=
    fun account member => distinct.2.2 account.uid (List.mem_map_of_mem member) uid created
  refine Registration.localView_eq_none.mpr ⟨?_, ?_⟩
  · by_contra stored
    obtain ⟨document, stored⟩ := Option.ne_none_iff_exists'.mp stored
    obtain ⟨account, member, own, -⟩ := inv.documents uid document stored
    exact other account member own
  · exact fun write member => other _ (inv.registered.inv.owned write member)

/-- If the one read in flight is answered before the completion has called for the write, or with
an error, the label stays as it was for as long as the user does, whatever is written later. -/
theorem missed_for_good {earlier later : List Action} {final : State} {read : Profile.Reading}
    {failed : Bool} (reached : machine.run .start earlier = some s)
    (alone : s.profile.reading = [read]) (user : s.profile.currentUser = some read.uid)
    (announced : s.profile.previousUserID = some (some read.uid))
    (missed : failed = true ∨ read.uid ∈ s.signedUp.map Registration.Account.uid)
    (step : machine.step s (.profile (.getDocument read.ticket failed)) = some next)
    (run : machine.run next later = some final) (stays : machine.Along Stays next later) :
    final.profile.fullNameLabel = s.profile.fullNameLabel := by
  have inv := Transition.Machine.run_invariant step_inv reached start_inv
  obtain ⟨profile, made, rfl⟩ := Option.map_eq_some_iff.mp step
  obtain ⟨taken, reading, answered, rfl⟩ := getDocument_replied made
  have perm := Pool.take?_perm answered
  rw [alone, List.singleton_perm] at perm
  obtain ⟨rfl, rfl⟩ := List.cons.inj perm
  have nothing : (if failed then none else s.registration.localView read.uid) = none := by
    rcases missed with rfl | created
    · rfl
    · rw [inv.unseen created, ite_self]
  rw [nothing] at run stays
  have idle : Idle ⟨s.registration, { s.profile with reading := [] }, s.signedUp⟩ read.uid
      s.profile.fullNameLabel := ⟨user, announced, rfl, rfl⟩
  exact (Transition.Machine.run_invariant_along
    (P := fun s : State => Idle s read.uid _) step_idle run stays idle).shown

end MoviesApp.NewProfile
