import MoviesApp.Firestore
import MoviesApp.Pool
import MoviesApp.Transition

/-! Registration: the account is created first, its users document second, and the
second step is reached through a weak reference. What the form's check says is only
displayed. -/
namespace MoviesApp.Registration
open Firestore

/-- The texts of the four fields. -/
structure Form where
  firstName : Option String
  lastName : Option String
  email : Option String
  password : Option String
  deriving DecidableEq

def checkValid (form : Form) : Option String :=
  if form.firstName ≠ some "" ∧ form.lastName ≠ some "" ∧ form.email ≠ some "" ∧
      form.password ≠ some "" then
    some ""
  else some "Please fill in all fiels"

/-- A call of `createUser` on its way; `attempt` is the position of its tap. -/
structure Creating where
  attempt : Nat
  screen : Nat
  firstName : String
  lastName : String
  email : String
  password : String

def Creating.form (call : Creating) : Form :=
  ⟨some call.firstName, some call.lastName, some call.email, some call.password⟩

/-- A call of `setData` on its way. Its closure keeps the screen's view model alive. -/
structure Writing where
  attempt : Nat
  screen : Nat
  uid : Uid
  firstName : String
  lastName : String

structure Account where
  uid : Uid
  attempt : Nat
  deriving DecidableEq

/-- The screens opened so far with their labels, flags and whether the user has left
them, the back end, and the ledgers of taps and of reports to `completion`. -/
structure State where
  opened : Nat
  left : Nat → Bool
  errorLabel : Nat → Option String
  success : Nat → Bool
  creating : List Creating
  writing : List Writing
  accounts : List Account
  users : Collection
  taps : List Form
  reports : List (Nat × Bool)

inductive Action where
  | open
  | leave (screen : Nat)
  | signUpButtonDidTapped (screen : Nat) (form : Form)
  | createUser (attempt : Nat) (result : Option Uid)
  | setData (attempt : Nat) (failed : Bool)

def State.start : State :=
  ⟨0, fun _ => false, fun _ => none, fun _ => false, [], [], [], fun _ => none, [], []⟩

/-- The view model of a screen: held by the screen, or by a write in flight. -/
def State.alive (s : State) (screen : Nat) : Bool :=
  !s.left screen || s.writing.any (·.screen == screen)

def signUpButtonDidTapped (s : State) (screen : Nat) (form : Form) : State :=
  let shown := { s with
    errorLabel := Function.update s.errorLabel screen (checkValid form)
    taps := s.taps ++ [form] }
  match form.firstName, form.lastName, form.email, form.password with
  | some firstName, some lastName, some email, some password => { shown with
      creating := s.creating ++ [⟨s.taps.length, screen, firstName, lastName, email, password⟩] }
  | _, _, _, _ => shown

/-- Sets the view model's flag and passes it on. -/
def State.report (s : State) (screen attempt : Nat) (success : Bool) : State :=
  { s with
    success := Function.update s.success screen success
    reports := s.reports ++ [(attempt, success)] }

/-- The `createUser` callback. A view model that is gone takes no part any more. -/
def created (s : State) (call : Creating) : Option Uid → State
  | some uid =>
    let created := { s with accounts := s.accounts ++ [⟨uid, call.attempt⟩] }
    if s.alive call.screen then { created with
      writing := s.writing ++ [⟨call.attempt, call.screen, uid, call.firstName, call.lastName⟩] }
    else created
  | none => if s.alive call.screen then s.report call.screen call.attempt false else s

/-- The `setData` callback. -/
def written (s : State) (write : Writing) (failed : Bool) : State :=
  if failed then s.report write.screen write.attempt false
  else
    let document := newDocument write.firstName write.lastName write.uid
    { s with users := setData s.users write.uid document }.report write.screen write.attempt true

/-- Accounts get identifiers that no other account has. -/
def step (s : State) : Action → Option State
  | .open => some { s with opened := s.opened + 1 }
  | .leave screen =>
    if screen < s.opened then some { s with left := Function.update s.left screen true } else none
  | .signUpButtonDidTapped screen form =>
    if screen < s.opened ∧ s.left screen = false then some (signUpButtonDidTapped s screen form)
    else none
  | .createUser attempt result =>
    if ∀ uid ∈ result, uid ∉ s.accounts.map Account.uid then
      (Pool.take? (·.attempt == attempt) s.creating).map fun (call, creating) =>
        created { s with creating := creating } call result
    else none
  | .setData attempt failed =>
    (Pool.take? (·.attempt == attempt) s.writing).map fun (write, writing) =>
      written { s with writing := writing } write failed

def machine : Transition.Machine State Action := ⟨step⟩

/-- All or nothing: no account comes from a form that was rejected, success is reported
for complete registrations only, and no attempt that is over has left an account without
its document. -/
structure AllOrNothing (s : State) : Prop where
  validated : ∀ account ∈ s.accounts, ∀ form, s.taps[account.attempt]? = some form →
    checkValid form = some ""
  reported : ∀ attempt, (attempt, true) ∈ s.reports →
    ∃ account ∈ s.accounts, account.attempt = attempt ∧ (s.users account.uid).isSome
  complete : ∀ account ∈ s.accounts, (∀ write ∈ s.writing, write.attempt ≠ account.attempt) →
    (s.users account.uid).isSome
  quiescent : s.creating = [] → s.writing = [] → ∀ uid,
    (∃ account ∈ s.accounts, account.uid = uid) ↔ (s.users uid).isSome

/-- An account is created for an accepted form only and while the view model is alive,
and no document write fails. -/
def Unharmed (s : State) : Action → Prop
  | .createUser attempt (some _) => ∀ call ∈ s.creating.find? (·.attempt == attempt),
      checkValid call.form = some "" ∧ s.alive call.screen = true
  | .setData _ failed => failed = false
  | _ => True

/-- What every run keeps: in-flight calls belong to taps and accounts of their own, and
only accounts have documents. -/
structure Inv (s : State) : Prop where
  tapped : ∀ call ∈ s.creating, s.taps[call.attempt]? = some call.form
  accountTapped : ∀ account ∈ s.accounts, account.attempt < s.taps.length
  pending : ∀ call ∈ s.creating, ∀ account ∈ s.accounts, account.attempt ≠ call.attempt
  distinctCalls : (s.creating.map Creating.attempt).Nodup
  distinctUids : (s.accounts.map Account.uid).Nodup
  distinctAttempts : (s.accounts.map Account.attempt).Nodup
  owned : ∀ write ∈ s.writing, ⟨write.uid, write.attempt⟩ ∈ s.accounts
  distinctWrites : (s.writing.map Writing.attempt).Nodup
  unwritten : ∀ write ∈ s.writing, s.users write.uid = none
  documented : ∀ uid, (s.users uid).isSome → ∃ account ∈ s.accounts, account.uid = uid
  reported : ∀ attempt, (attempt, true) ∈ s.reports →
    ∃ account ∈ s.accounts, account.attempt = attempt ∧ (s.users account.uid).isSome

variable {s t : State}

theorem start_inv : Inv .start := by
  constructor
  all_goals first
    | exact List.nodup_nil
    | exact fun _ member => nomatch member

theorem setData_isSome {users : Collection} {uid other : Uid} (document : Document)
    (stored : (users other).isSome) : (setData users uid document other).isSome := by
  by_cases same : other = uid
  · rw [same, setData_same]
    rfl
  · rw [setData_other same]
    exact stored

/-- A report of failure is on record for nobody. -/
theorem inv_report (inv : Inv s) (screen attempt : Nat) : Inv (s.report screen attempt false) := by
  refine { inv with reported := ?_ }
  intro other listed
  rcases List.mem_append.mp listed with earlier | new
  · exact inv.reported other earlier
  · cases List.mem_singleton.mp new

theorem inv_tap (inv : Inv s) (screen : Nat) (form : Form) :
    Inv (signUpButtonDidTapped s screen form) := by
  have shown : Inv { s with
      errorLabel := Function.update s.errorLabel screen (checkValid form)
      taps := s.taps ++ [form] } := by
    refine { inv with tapped := ?_, accountTapped := ?_ }
    · intro call member
      have found := inv.tapped call member
      obtain ⟨bound, -⟩ := List.getElem?_eq_some_iff.mp found
      rw [List.getElem?_append_left bound, found]
    · intro account member
      have bound := inv.accountTapped account member
      simp only [List.length_append, List.length_singleton]
      omega
  have before : ∀ call ∈ s.creating, call.attempt < s.taps.length :=
    fun call member => (List.getElem?_eq_some_iff.mp (inv.tapped call member)).1
  unfold signUpButtonDidTapped
  split
  · rename_i firstName lastName email password first last mail pass
    refine { shown with tapped := ?_, pending := ?_, distinctCalls := ?_ }
    · apply Pool.forall_snoc shown.tapped
      obtain ⟨_, _, _, _⟩ := form
      dsimp only at first last mail pass
      subst first last mail pass
      exact List.getElem?_concat_length
    · apply Pool.forall_snoc inv.pending
      intro account listed
      exact Nat.ne_of_lt (inv.accountTapped account listed)
    · exact Pool.nodup_snoc inv.distinctCalls fun call member => Nat.ne_of_lt (before call member)
  · exact shown

/-- A call that is over leaves the others in flight. -/
theorem inv_taken {call : Creating} {creating : List Creating} {attempt : Nat} (inv : Inv s)
    (taken : Pool.take? (·.attempt == attempt) s.creating = some (call, creating)) :
    Inv { s with creating := creating } := by
  refine { inv with tapped := ?_, pending := ?_, distinctCalls := ?_ }
  · exact fun other member => inv.tapped other (Pool.take?_left taken member)
  · exact fun other member => inv.pending other (Pool.take?_left taken member)
  · exact (Pool.take?_nodup taken inv.distinctCalls).1

/-- The account of a call that has just been taken out of flight. -/
theorem inv_account {call : Creating} {uid : Uid} (inv : Inv s)
    (tapped : call.attempt < s.taps.length)
    (unpaired : ∀ account ∈ s.accounts, account.attempt ≠ call.attempt)
    (gone : ∀ other ∈ s.creating, call.attempt ≠ other.attempt)
    (fresh : uid ∉ s.accounts.map Account.uid) :
    Inv { s with accounts := s.accounts ++ [⟨uid, call.attempt⟩] } := by
  refine { inv with
    accountTapped := ?_, pending := ?_, distinctUids := ?_, distinctAttempts := ?_, owned := ?_,
    documented := ?_, reported := ?_ }
  · exact Pool.forall_snoc inv.accountTapped tapped
  · exact fun other member => Pool.forall_snoc (inv.pending other member) (gone other member)
  · apply Pool.nodup_snoc inv.distinctUids
    intro account member same
    exact fresh (List.mem_map.mpr ⟨account, member, same⟩)
  · exact Pool.nodup_snoc inv.distinctAttempts unpaired
  · exact fun write member => List.mem_append_left _ (inv.owned write member)
  · intro other stored
    obtain ⟨account, member, same⟩ := inv.documented other stored
    exact ⟨account, List.mem_append_left _ member, same⟩
  · intro attempt listed
    obtain ⟨account, member, same, stored⟩ := inv.reported attempt listed
    exact ⟨account, List.mem_append_left _ member, same, stored⟩

theorem inv_write {write : Writing} (inv : Inv s) (owned : ⟨write.uid, write.attempt⟩ ∈ s.accounts)
    (single : ∀ other ∈ s.writing, other.attempt ≠ write.attempt)
    (unwritten : s.users write.uid = none) : Inv { s with writing := s.writing ++ [write] } := by
  refine { inv with owned := ?_, distinctWrites := ?_, unwritten := ?_ }
  · exact Pool.forall_snoc inv.owned owned
  · exact Pool.nodup_snoc inv.distinctWrites single
  · exact Pool.forall_snoc inv.unwritten unwritten

/-- What is known when the result of a call comes in. -/
structure Resulting (s : State) (call : Creating) : Prop where
  inv : Inv s
  tapped : s.taps[call.attempt]? = some call.form
  unpaired : ∀ account ∈ s.accounts, account.attempt ≠ call.attempt
  gone : ∀ other ∈ s.creating, call.attempt ≠ other.attempt

theorem resulting_of_taken {call : Creating} {creating : List Creating} {attempt : Nat} (inv : Inv s)
    (taken : Pool.take? (·.attempt == attempt) s.creating = some (call, creating)) :
    Resulting { s with creating := creating } call := by
  refine ⟨inv_taken inv taken, inv.tapped call (Pool.take?_mem taken),
    inv.pending call (Pool.take?_mem taken), ?_⟩
  intro other member same
  exact (Pool.take?_nodup taken inv.distinctCalls).2 (List.mem_map.mpr ⟨other, member, same.symm⟩)

theorem Resulting.account {call : Creating} {uid : Uid} (resulting : Resulting s call)
    (fresh : uid ∉ s.accounts.map Account.uid) :
    Inv { s with accounts := s.accounts ++ [⟨uid, call.attempt⟩] } :=
  inv_account resulting.inv (List.getElem?_eq_some_iff.mp resulting.tapped).1 resulting.unpaired
    resulting.gone fresh

theorem created_some (s : State) (call : Creating) (uid : Uid) :
    created s call (some uid) = { s with
      accounts := s.accounts ++ [⟨uid, call.attempt⟩]
      writing := if s.alive call.screen then
        s.writing ++ [⟨call.attempt, call.screen, uid, call.firstName, call.lastName⟩]
        else s.writing } := by
  unfold created
  dsimp only
  split <;> rfl

/-- A new identifier has no document yet. -/
theorem Resulting.undocumented {call : Creating} {uid : Uid} (resulting : Resulting s call)
    (fresh : uid ∉ s.accounts.map Account.uid) : s.users uid = none := by
  by_contra stored
  obtain ⟨account, member, same⟩ :=
    resulting.inv.documented uid (Option.isSome_iff_ne_none.mpr stored)
  exact fresh (List.mem_map.mpr ⟨account, member, same⟩)

theorem inv_created {call : Creating} {result : Option Uid} (resulting : Resulting s call)
    (fresh : ∀ uid ∈ result, uid ∉ s.accounts.map Account.uid) : Inv (created s call result) := by
  cases result with
  | none =>
    unfold created
    dsimp only
    split
    · exact inv_report resulting.inv _ _
    · exact resulting.inv
  | some uid =>
    have unused := fresh uid rfl
    unfold created
    dsimp only
    split
    · apply inv_write (resulting.account unused)
      · exact List.mem_append_right _ (List.mem_singleton_self _)
      · intro other member
        exact resulting.unpaired _ (resulting.inv.owned other member)
      · exact resulting.undocumented unused
    · exact resulting.account unused

theorem Inv.same_account (inv : Inv s) {a b : Account} (left : a ∈ s.accounts) (right : b ∈ s.accounts)
    (same : a.uid = b.uid) : a = b :=
  List.inj_on_of_nodup_map inv.distinctUids left right same

/-- What is known when a write is acknowledged: it was the only one for its account. -/
structure Acknowledged (s : State) (write : Writing) : Prop where
  inv : Inv s
  owned : ⟨write.uid, write.attempt⟩ ∈ s.accounts
  others : ∀ other ∈ s.writing, other.attempt ≠ write.attempt
  unwritten : s.users write.uid = none

theorem acknowledged_of_taken {write : Writing} {writing : List Writing} {attempt : Nat} (inv : Inv s)
    (taken : Pool.take? (·.attempt == attempt) s.writing = some (write, writing)) :
    Acknowledged { s with writing := writing } write := by
  obtain ⟨distinct, absent⟩ := Pool.take?_nodup taken inv.distinctWrites
  refine ⟨{ inv with owned := ?_, distinctWrites := distinct, unwritten := ?_ },
    inv.owned write (Pool.take?_mem taken), ?_, inv.unwritten write (Pool.take?_mem taken)⟩
  · exact fun other member => inv.owned other (Pool.take?_left taken member)
  · exact fun other member => inv.unwritten other (Pool.take?_left taken member)
  · intro other member same
    exact absent (List.mem_map.mpr ⟨other, member, same⟩)

theorem Acknowledged.other_uid {write other : Writing} (acknowledged : Acknowledged s write)
    (member : other ∈ s.writing) : other.uid ≠ write.uid := by
  intro same
  have account := acknowledged.inv.same_account (acknowledged.inv.owned other member)
    acknowledged.owned same
  exact acknowledged.others other member (congrArg Account.attempt account)

theorem inv_written {write : Writing} (acknowledged : Acknowledged s write) (failed : Bool) :
    Inv (written s write failed) := by
  cases failed with
  | true => exact inv_report acknowledged.inv _ _
  | false =>
    have inv := acknowledged.inv
    refine { inv with unwritten := ?_, documented := ?_, reported := ?_ }
    · intro other member
      exact (setData_other (acknowledged.other_uid member)).trans (inv.unwritten other member)
    · intro uid stored
      by_cases same : uid = write.uid
      · exact ⟨_, acknowledged.owned, same.symm⟩
      · have kept : (written s write false).users uid = s.users uid := setData_other same
        exact inv.documented uid ((congrArg Option.isSome kept).symm.trans stored)
    · intro attempt listed
      rcases List.mem_append.mp listed with earlier | new
      · obtain ⟨account, member, same, stored⟩ := inv.reported attempt earlier
        exact ⟨account, member, same, setData_isSome _ stored⟩
      · cases List.mem_singleton.mp new
        refine ⟨_, acknowledged.owned, rfl, ?_⟩
        exact Option.isSome_of_eq_some (setData_same ..)

/-- An account that breaks the promise: its form was rejected, or its attempt is over
without a document. -/
def Harmed (s : State) (account : Account) : Prop :=
  account ∈ s.accounts ∧
    ((∃ form, s.taps[account.attempt]? = some form ∧ checkValid form ≠ some "") ∨
      ((∀ write ∈ s.writing, write.attempt ≠ account.attempt) ∧ s.users account.uid = none))

theorem harmed_tap (inv : Inv s) (screen : Nat) (form : Form) (account : Account) :
    Harmed (signUpButtonDidTapped s screen form) account ↔ Harmed s account := by
  have shape : (signUpButtonDidTapped s screen form).accounts = s.accounts ∧
      (signUpButtonDidTapped s screen form).taps = s.taps ++ [form] ∧
      (signUpButtonDidTapped s screen form).writing = s.writing ∧
      (signUpButtonDidTapped s screen form).users = s.users := by
    unfold signUpButtonDidTapped
    split <;> exact ⟨rfl, rfl, rfl, rfl⟩
  obtain ⟨accounts, taps, writing, users⟩ := shape
  unfold Harmed
  rw [accounts, taps, writing, users]
  apply and_congr_right
  intro member
  rw [List.getElem?_append_left (inv.accountTapped account member)]

/-- An account made before is harmed as it was. -/
theorem harmed_earlier {call : Creating} {uid : Uid} {account : Account}
    (resulting : Resulting s call) (earlier : account ∈ s.accounts) :
    Harmed (created s call (some uid)) account ↔ Harmed s account := by
  rw [created_some]
  apply and_congr (iff_of_true (List.mem_append_left _ earlier) earlier)
  refine or_congr_right (and_congr_left' ⟨?_, ?_⟩)
  · intro unwritten write listed
    apply unwritten
    split
    · exact List.mem_append_left _ listed
    · exact listed
  · intro unwritten write listed
    split at listed
    · rcases List.mem_append.mp listed with before | new
      · exact unwritten write before
      · obtain rfl := List.mem_singleton.mp new
        exact Ne.symm (resulting.unpaired account earlier)
    · exact unwritten write listed

/-- A new account is harmed exactly if its form was rejected or the view model is gone. -/
theorem harmed_new {call : Creating} {uid : Uid} (resulting : Resulting s call)
    (fresh : uid ∉ s.accounts.map Account.uid) :
    Harmed (created s call (some uid)) ⟨uid, call.attempt⟩ ↔
      ¬ (checkValid call.form = some "" ∧ s.alive call.screen = true) := by
  rw [created_some]
  constructor
  · rintro ⟨-, harm⟩ ⟨valid, alive⟩
    rcases harm with ⟨form, found, rejected⟩ | ⟨unwritten, -⟩
    · cases resulting.tapped.symm.trans found
      exact rejected valid
    · dsimp only at unwritten
      rw [if_pos alive] at unwritten
      exact unwritten _ (List.mem_append_right _ (List.mem_singleton_self _)) rfl
  · intro harm
    refine ⟨List.mem_append_right _ (List.mem_singleton_self _), ?_⟩
    by_cases valid : checkValid call.form = some ""
    · have gone : ¬ s.alive call.screen = true := fun alive => harm ⟨valid, alive⟩
      refine Or.inr ⟨?_, resulting.undocumented fresh⟩
      dsimp only
      rw [if_neg gone]
      intro write listed
      exact resulting.unpaired _ (resulting.inv.owned write listed)
    · exact Or.inl ⟨call.form, resulting.tapped, valid⟩

theorem harmed_created {call : Creating} {uid : Uid} (resulting : Resulting s call)
    (fresh : uid ∉ s.accounts.map Account.uid) :
    (∃ account, Harmed (created s call (some uid)) account) ↔
      (∃ account, Harmed s account) ∨
        ¬ (checkValid call.form = some "" ∧ s.alive call.screen = true) := by
  constructor
  · rintro ⟨account, harm⟩
    have member := harm.1
    rw [created_some] at member
    rcases List.mem_append.mp member with earlier | new
    · exact Or.inl ⟨account, (harmed_earlier resulting earlier).mp harm⟩
    · obtain rfl := List.mem_singleton.mp new
      exact Or.inr ((harmed_new resulting fresh).mp harm)
  · rintro (⟨account, harm⟩ | slip)
    · exact ⟨account, (harmed_earlier resulting harm.1).mpr harm⟩
    · exact ⟨_, (harmed_new resulting fresh).mpr slip⟩

/-- A write that fails leaves its account without a document. -/
theorem harmed_failed {write : Writing} (acknowledged : Acknowledged s write) :
    Harmed (written s write true) ⟨write.uid, write.attempt⟩ :=
  ⟨acknowledged.owned, Or.inr ⟨acknowledged.others, acknowledged.unwritten⟩⟩

theorem harmed_written {write : Writing} {writing : List Writing} {attempt : Nat} (inv : Inv s)
    (taken : Pool.take? (·.attempt == attempt) s.writing = some (write, writing))
    (account : Account) :
    Harmed (written { s with writing := writing } write false) account ↔ Harmed s account := by
  have acknowledged := acknowledged_of_taken inv taken
  apply and_congr_right
  intro member
  apply or_congr Iff.rfl
  by_cases own : account = ⟨write.uid, write.attempt⟩
  · subst own
    apply iff_of_false
    · rintro ⟨-, none⟩
      rw [show (written { s with writing := writing } write false).users write.uid = some _ from
        setData_same ..] at none
      contradiction
    · rintro ⟨finished, -⟩
      exact finished write (Pool.take?_mem taken) rfl
  · have uid : account.uid ≠ write.uid := fun same =>
      own (inv.same_account member acknowledged.owned same)
    have attempts : account.attempt ≠ write.attempt := fun same =>
      own (List.inj_on_of_nodup_map inv.distinctAttempts member acknowledged.owned same)
    apply and_congr
    · constructor
      · intro finished other listed
        rcases Pool.take?_cases taken listed with rfl | left
        · exact Ne.symm attempts
        · exact finished other left
      · intro finished other listed
        exact finished other (Pool.take?_left taken listed)
    · rw [show (written { s with writing := writing } write false).users account.uid = s.users account.uid
        from setData_other uid]

/-- A step harms an account exactly if it does not keep to the condition. -/
theorem step_harmed {a : Action} (inv : Inv s) (step : machine.step s a = some t) :
    Inv t ∧ ((∃ account, Harmed t account) ↔ (∃ account, Harmed s account) ∨ ¬ Unharmed s a) := by
  cases a with
  | «open» =>
    cases step
    exact ⟨{ inv with }, (or_iff_left (not_not.mpr trivial)).symm⟩
  | leave screen =>
    change (if _ then _ else _) = _ at step
    split at step
    · cases step
      exact ⟨{ inv with }, (or_iff_left (not_not.mpr trivial)).symm⟩
    · contradiction
  | signUpButtonDidTapped screen form =>
    change (if _ then _ else _) = _ at step
    split at step
    · cases step
      exact ⟨inv_tap inv screen form, (exists_congr (harmed_tap inv screen form)).trans
        (or_iff_left (not_not.mpr trivial)).symm⟩
    · contradiction
  | createUser attempt result =>
    change (if _ then _ else _) = _ at step
    split at step
    · rename_i fresh
      obtain ⟨⟨call, creating⟩, taken, rfl⟩ := Option.map_eq_some_iff.mp step
      have resulting := resulting_of_taken inv taken
      refine ⟨inv_created resulting fresh, ?_⟩
      cases result with
      | none =>
        have same : ∀ account, Harmed (created { s with creating := creating } call none) account ↔
            Harmed s account := by
          intro account
          unfold created
          dsimp only
          split <;> exact Iff.rfl
        exact (exists_congr same).trans (or_iff_left (not_not.mpr trivial)).symm
      | some uid =>
        apply (harmed_created resulting (fresh uid rfl)).trans
        apply or_congr Iff.rfl
        simp only [Unharmed, Pool.take?_find taken, Option.mem_some_iff, forall_eq']
        exact Iff.rfl
    · contradiction
  | setData attempt failed =>
    obtain ⟨⟨write, writing⟩, taken, rfl⟩ := Option.map_eq_some_iff.mp step
    have acknowledged := acknowledged_of_taken inv taken
    refine ⟨inv_written acknowledged failed, ?_⟩
    cases failed with
    | true => exact iff_of_true ⟨_, harmed_failed acknowledged⟩ (Or.inr nofun)
    | false =>
      exact (exists_congr (harmed_written inv taken)).trans (or_iff_left (not_not.mpr rfl)).symm

theorem allOrNothing_iff (inv : Inv s) : AllOrNothing s ↔ ¬ ∃ account, Harmed s account := by
  constructor
  · rintro promise ⟨account, member, ⟨form, found, rejected⟩ | ⟨finished, unwritten⟩⟩
    · exact rejected (promise.validated account member form found)
    · have stored := promise.complete account member finished
      rw [unwritten] at stored
      contradiction
  · intro unharmed
    have complete : ∀ account ∈ s.accounts, (∀ write ∈ s.writing, write.attempt ≠ account.attempt) →
        (s.users account.uid).isSome := by
      intro account member finished
      by_contra absent
      exact unharmed ⟨account, member, Or.inr ⟨finished, Option.not_isSome_iff_eq_none.mp absent⟩⟩
    refine ⟨?_, inv.reported, complete, ?_⟩
    · intro account member form found
      by_contra rejected
      exact unharmed ⟨account, member, Or.inl ⟨form, found, rejected⟩⟩
    · intro _ idle uid
      constructor
      · rintro ⟨account, member, rfl⟩
        exact complete account member (by rw [idle]; exact fun _ member => nomatch member)
      · exact inv.documented uid

/-- Exactly when registration is all or nothing: after any run it is so if and only if
every account was created for an accepted form while the view model was alive, and no
document write failed. -/
theorem all_or_nothing_iff {acts : List Action} (run : machine.run .start acts = some s) :
    AllOrNothing s ↔ machine.Along Unharmed .start acts := by
  have within : machine.Along (fun _ _ => True) .start acts :=
    Transition.Machine.along_of_forall fun _ _ _ => trivial
  have trap := Transition.Machine.along_trap Unharmed
    (fun s => Inv s ∧ ¬ ∃ account, Harmed s account) (fun s => Inv s ∧ ∃ account, Harmed s account)
    (fun good _ met step => by
      obtain ⟨inv, harmed⟩ := step_harmed good.1 step
      exact ⟨inv, fun harm => (harmed.mp harm).elim good.2 (fun missed => missed met)⟩)
    (fun good _ missed step => by
      obtain ⟨inv, harmed⟩ := step_harmed good.1 step
      exact ⟨inv, harmed.mpr (Or.inr missed)⟩)
    (fun bad _ step => by
      obtain ⟨inv, harmed⟩ := step_harmed bad.1 step
      exact ⟨inv, harmed.mpr (Or.inl bad.2)⟩)
    run within ⟨start_inv, by rintro ⟨_, member, -⟩; cases member⟩
  rcases trap with ⟨along, inv, unharmed⟩ | ⟨broken, inv, harmed⟩
  · exact iff_of_true ((allOrNothing_iff inv).mpr unharmed) along
  · exact iff_of_false (fun promise => (allOrNothing_iff inv).mp promise harmed) broken

def ann : Form := ⟨some "Ann", some "Lee", some "ann@mail.com", some "secret"⟩

/-- A first attempt that the server refuses, then one that succeeds. -/
def secondAttempt : List Action :=
  [.open, .signUpButtonDidTapped 0 ann, .createUser 0 none, .signUpButtonDidTapped 0 ann,
    .createUser 1 (some "u"), .leave 0, .setData 1 false]

theorem all_or_nothing_second_attempt : ∃ s, machine.run .start secondAttempt = some s ∧
    s.reports = [(0, false), (1, true)] ∧ AllOrNothing s := by
  obtain ⟨s, run, reports⟩ : ∃ s, machine.run .start secondAttempt = some s ∧
      s.reports = [(0, false), (1, true)] := ⟨_, rfl, rfl⟩
  have unharmed : machine.Along Unharmed .start secondAttempt := by
    refine ⟨trivial, trivial, trivial, trivial, ?_, trivial, rfl, trivial⟩
    intro call found
    cases found
    exact ⟨rfl, rfl⟩
  exact ⟨s, run, reports, (all_or_nothing_iff run).mpr unharmed⟩

/-- A form without a first name is rejected and registered all the same; then the user
leaves while the account of a second form is being created. -/
def rejectedAndAbandoned : List Action :=
  [.open, .signUpButtonDidTapped 0 { ann with firstName := some "" }, .createUser 0 (some "u"),
    .setData 0 false, .signUpButtonDidTapped 0 ann, .leave 0, .createUser 1 (some "v")]

theorem account_left_behind : ∃ s, machine.run .start rejectedAndAbandoned = some s ∧
    s.creating = [] ∧ s.writing = [] ∧ s.accounts = [⟨"u", 0⟩, ⟨"v", 1⟩] ∧
    (s.users "v").isNone ∧ s.taps.map checkValid = [some "Please fill in all fiels", some ""] ∧
    ¬ AllOrNothing s := by
  refine ⟨_, rfl, rfl, rfl, rfl, rfl, rfl, ?_⟩
  intro promise
  have stored := promise.complete ⟨"v", 1⟩ (List.mem_cons_of_mem _ List.mem_cons_self)
    (fun _ member => nomatch member)
  contradiction

end MoviesApp.Registration
