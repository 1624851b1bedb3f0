import MoviesApp.Screens.Registration

/-! What the steps of the registration screens leave behind: accounts with the names of their
forms, and writes that the device sees in its documents before the server does. -/
namespace MoviesApp.Registration
open Firestore

/-- The names on the form of an attempt. -/
def Names (s : State) (attempt : Nat) (firstName lastName : String) : Prop :=
  ∃ form, s.taps[attempt]? = some form ∧ form.firstName = some firstName ∧
    form.lastName = some lastName

/-- The full name on the form of the user's account. -/
def FullName (s : State) (uid : Uid) (name : String) : Prop :=
  ∃ account ∈ s.accounts, account.uid = uid ∧ ∃ firstName lastName,
    Names s account.attempt firstName lastName ∧ name = firstName ++ " " ++ lastName

/-- No tap is forgotten, and no account. -/
structure Extends (s t : State) : Prop where
  taps : s.taps <+: t.taps
  accounts : s.accounts ⊆ t.accounts

variable {s t : State} {a : Action} {uid : Uid}

theorem Extends.refl (s : State) : Extends s s := ⟨List.prefix_rfl, List.Subset.refl _⟩

theorem Names.mono {attempt : Nat} {firstName lastName : String}
    (names : Names s attempt firstName lastName) (grown : Extends s t) :
    Names t attempt firstName lastName := by
  obtain ⟨form, tapped, first, last⟩ := names
  obtain ⟨bound, -⟩ := List.getElem?_eq_some_iff.mp tapped
  obtain ⟨more, taps⟩ := grown.taps
  refine ⟨form, ?_, first, last⟩
  rw [← taps, List.getElem?_append_left bound, tapped]

theorem FullName.mono {name : String} (full : FullName s uid name) (grown : Extends s t) :
    FullName t uid name := by
  obtain ⟨account, member, own, firstName, lastName, names, same⟩ := full
  exact ⟨account, grown.accounts member, own, firstName, lastName, names.mono grown, same⟩

theorem Names.unique {attempt : Nat} {firstName lastName first last : String}
    (names : Names s attempt firstName lastName) (other : Names s attempt first last) :
    firstName = first ∧ lastName = last := by
  obtain ⟨form, tapped, hasFirst, hasLast⟩ := names
  obtain ⟨same, tapped', hasFirst', hasLast'⟩ := other
  obtain rfl := Option.some.inj (tapped.symm.trans tapped')
  exact ⟨Option.some.inj (hasFirst.symm.trans hasFirst'), Option.some.inj (hasLast.symm.trans hasLast')⟩

theorem signUp_frame (s : State) (screen : Nat) (form : Form) :
    (signUpButtonDidTapped s screen form).accounts = s.accounts ∧
      (signUpButtonDidTapped s screen form).taps = s.taps ++ [form] ∧
      (signUpButtonDidTapped s screen form).writing = s.writing ∧
      (signUpButtonDidTapped s screen form).users = s.users := by
  unfold signUpButtonDidTapped
  split <;> exact ⟨rfl, rfl, rfl, rfl⟩

theorem refused_frame (s : State) (call : Creating) :
    (created s call none).accounts = s.accounts ∧ (created s call none).taps = s.taps ∧
      (created s call none).writing = s.writing ∧ (created s call none).users = s.users := by
  unfold created
  dsimp only
  split <;> exact ⟨rfl, rfl, rfl, rfl⟩

theorem createUser_step {attempt : Nat} {result : Option Uid}
    (step : machine.step s (.createUser attempt result) = some t) :
    ∃ call creating, call ∈ s.creating ∧ call.attempt = attempt ∧
      t = created { s with creating := creating } call result := by
  obtain ⟨-, step⟩ := Option.ite_none_right_eq_some.mp step
  obtain ⟨⟨call, creating⟩, taken, made⟩ := Option.map_eq_some_iff.mp step
  exact ⟨call, creating, Pool.take?_mem taken, Pool.take?_key taken, made.symm⟩

/-- The account an action adds, if any. -/
def Action.account : Action → List Account
  | .createUser attempt (some uid) => [⟨uid, attempt⟩]
  | _ => []

/-- What a step does to the accounts, to the writes in flight and to the documents. -/
structure Change (s t : State) (a : Action) : Prop where
  taps : s.taps <+: t.taps
  accounts : t.accounts = s.accounts ++ a.account
  writing : ∀ write ∈ t.writing, write ∈ s.writing ∨ a = .createUser write.attempt (some write.uid) ∧
    Names s write.attempt write.firstName write.lastName
  users : t.users = s.users ∨ ∃ write ∈ s.writing,
    t.users = setData s.users write.uid (newDocument write.firstName write.lastName write.uid)

theorem Change.grown (change : Change s t a) : Extends s t :=
  ⟨change.taps, change.accounts ▸ List.subset_append_left _ _⟩

theorem Change.frame (none : a.account = []) (accounts : t.accounts = s.accounts)
    (taps : s.taps <+: t.taps) (writing : t.writing = s.writing) (users : t.users = s.users) :
    Change s t a where
  taps := taps
  accounts := by rw [accounts, none, List.append_nil]
  writing _ member := Or.inl (writing ▸ member)
  users := Or.inl users

theorem step_change (inv : Inv s) (step : machine.step s a = some t) : Change s t a := by
  cases a with
  | «open» =>
    cases step
    exact .frame rfl rfl List.prefix_rfl rfl rfl
  | leave screen =>
    obtain ⟨-, step⟩ := Option.ite_none_right_eq_some.mp step
    cases step
    exact .frame rfl rfl List.prefix_rfl rfl rfl
  | signUpButtonDidTapped screen form =>
    obtain ⟨-, step⟩ := Option.ite_none_right_eq_some.mp step
    cases step
    obtain ⟨accounts, taps, writing, users⟩ := signUp_frame s screen form
    exact .frame rfl accounts ⟨[form], taps.symm⟩ writing users
  | createUser attempt result =>
    obtain ⟨call, creating, member, rfl, rfl⟩ := createUser_step step
    cases result with
    | none =>
      obtain ⟨accounts, taps, writing, users⟩ := refused_frame { s with creating := creating } call
      exact .frame rfl accounts (taps.symm ▸ List.prefix_rfl) writing users
    | some uid =>
      rw [created_some]
      refine ⟨List.prefix_rfl, rfl, ?_, Or.inl rfl⟩
      dsimp only
      split
      · exact Pool.forall_snoc (fun _ => Or.inl)
          (Or.inr ⟨rfl, call.form, inv.tapped call member, rfl, rfl⟩)
      · exact fun _ => Or.inl
  | setData attempt failed =>
    obtain ⟨⟨write, writing⟩, taken, rfl⟩ := Option.map_eq_some_iff.mp step
    have left : ∀ other ∈ writing, other ∈ s.writing := fun other => Pool.take?_left taken
    cases failed with
    | true =>
      exact ⟨List.prefix_rfl, (List.append_nil _).symm,
        fun other member => Or.inl (left other member), Or.inl rfl⟩
    | false =>
      exact ⟨List.prefix_rfl, (List.append_nil _).symm,
        fun other member => Or.inl (left other member), Or.inr ⟨write, Pool.take?_mem taken, rfl⟩⟩

/-- The writes in flight carry the names of their forms. -/
structure Registered (s : State) : Prop where
  inv : Inv s
  named : ∀ write ∈ s.writing, Names s write.attempt write.firstName write.lastName

theorem start_registered : Registered .start := ⟨start_inv, List.forall_mem_nil _⟩

theorem Registered.step (registered : Registered s) (step : machine.step s a = some t) :
    Registered t := by
  have change := step_change registered.inv step
  refine ⟨(step_harmed registered.inv step).1, fun write member => ?_⟩
  rcases change.writing write member with before | ⟨-, names⟩
  · exact (registered.named write before).mono change.grown
  · exact names.mono change.grown

/-! The documents that the device sees -/

/-- The documents with the writes in flight laid over them: Firestore shows a device its own
writes from the moment they are called. -/
def State.localView (s : State) : Collection :=
  s.writing.foldl (fun users write =>
    setData users write.uid (newDocument write.firstName write.lastName write.uid)) s.users

theorem localView_cases (s : State) (uid : Uid) :
    ((∀ write ∈ s.writing, write.uid ≠ uid) ∧ s.localView uid = s.users uid) ∨
      ∃ write ∈ s.writing, write.uid = uid ∧
        s.localView uid = some (newDocument write.firstName write.lastName write.uid) := by
  unfold State.localView
  generalize s.users = users
  induction s.writing generalizing users with
  | nil => exact Or.inl ⟨List.forall_mem_nil _, rfl⟩
  | cons first rest ih =>
    simp only [List.foldl_cons, List.forall_mem_cons, List.exists_mem_cons_iff]
    rcases ih (setData users first.uid (newDocument first.firstName first.lastName first.uid))
      with ⟨others, view⟩ | ⟨write, member, own, view⟩
    · rw [view]
      by_cases own : first.uid = uid
      · subst own
        exact Or.inr (Or.inl ⟨rfl, setData_same ..⟩)
      · exact Or.inl ⟨⟨own, others⟩, setData_other (Ne.symm own)⟩
    · exact Or.inr (Or.inr ⟨write, member, own, view⟩)

theorem localView_eq_none : s.localView uid = none ↔
    s.users uid = none ∧ ∀ write ∈ s.writing, write.uid ≠ uid := by
  obtain ⟨others, view⟩ | ⟨write, member, own, view⟩ := localView_cases s uid
  · rw [view]
    exact (and_iff_left others).symm
  · rw [view]
    exact iff_of_false (Option.some_ne_none _) fun none => none.2 write member own

/-- A user without a document gets one from `createUser`'s completion only. -/
theorem Change.localView_none (change : Change s t a) (unseen : s.localView uid = none)
    (others : ∀ attempt, a ≠ .createUser attempt (some uid)) : t.localView uid = none := by
  obtain ⟨undocumented, unwritten⟩ := localView_eq_none.mp unseen
  refine localView_eq_none.mpr ⟨?_, ?_⟩
  · rcases change.users with same | ⟨write, member, same⟩
    · rw [same, undocumented]
    · rw [same, setData_other (Ne.symm (unwritten write member)), undocumented]
  · intro write member
    rcases change.writing write member with before | ⟨created, -⟩
    · exact unwritten write before
    · rintro rfl
      exact others _ created

end MoviesApp.Registration
