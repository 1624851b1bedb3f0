import MoviesApp.Screens.SignIn

/-! The alerts of a login screen. Each answer to its requests sets one up, but UIKit presents none
while another is up, so an answer that comes too early is never shown. -/
namespace MoviesApp.SignIn
open Firestore

/-- The outcomes of a screen's requests, in the order of the answers. -/
def outcomes (results : List (Origin × Option Uid)) (screen : Nat) : List Bool :=
  (results.filter (·.1 == .loginScreen screen)).map (·.2.isSome)

/-- How many requests a screen has made, and how many are under way. -/
def State.asked (s : State) (screen : Nat) : Nat :=
  s.made.countP (·.origin == .loginScreen screen)

def State.waiting (s : State) (screen : Nat) : Nat :=
  s.calls.countP (·.origin == .loginScreen screen)

/-- The request that a tap on the screen makes: that of a filled form. -/
def Action.submitted (screen : Nat) : Action → Option Request
  | .loginButtonDidTapped tapped (some email) (some password) =>
    if tapped = screen ∧ email ≠ "" ∧ password ≠ "" then
      some ⟨.loginScreen screen, email, password⟩
    else none
  | _ => none

/-- An answer for the screen comes while no alert is up there and UIKit can present one. -/
def Presentable (screen : Nat) (s : State) : Action → Prop
  | .completion serial _ presentable => ∀ call ∈ s.calls.find? (·.serial == serial),
      call.origin = .loginScreen screen →
        presentable = true ∧ ∀ vc ∈ s.screens[screen]?, vc.presented = none
  | _ => True

theorem Action.Other.submitted {a : Action} (other : a.Other) (screen : Nat) :
    a.submitted screen = none := by
  cases a with
  | loginButtonDidTapped => exact other.elim
  | _ => rfl

theorem Action.Other.presentable {a : Action} (other : a.Other) {s : State} {screen : Nat} :
    Presentable screen s a := by
  cases a with
  | completion => exact other.elim
  | _ => trivial

variable {users : Collection} {authenticate : Server → String → String → Option Uid}
  {s t : State} {a : Action} {server : Server} {screen : Nat} {vc : LoginVC}
  {email password : String}

theorem getElem?_set_cases {screens : List LoginVC} {screen other : Nat} {vc found : LoginVC}
    (present : (screens.set screen vc)[other]? = some found) :
    (other = screen ∧ found = vc) ∨ (other ≠ screen ∧ screens[other]? = some found) := by
  rw [List.getElem?_set] at present
  split at present
  · rename_i same
    obtain ⟨-, same'⟩ := Option.ite_none_right_eq_some.mp present
    exact Or.inl ⟨same.symm, (Option.some.inj same').symm⟩
  · rename_i different
    exact Or.inr ⟨fun same => different same.symm, present⟩

theorem outcomes_snoc (results : List (Origin × Option Uid)) (origin : Origin) (result : Option Uid)
    (screen : Nat) : outcomes (results ++ [(origin, result)]) screen =
      outcomes results screen ++ if origin = .loginScreen screen then [result.isSome] else [] := by
  unfold outcomes
  rw [List.filter_append, List.map_append, List.filter_singleton]
  by_cases own : origin = .loginScreen screen
  · rw [if_pos own, beq_iff_eq.mpr own]
    rfl
  · rw [if_neg own, beq_eq_false_iff_ne.mpr own]
    rfl

/-! Requests and answers belong to screens that have been opened -/

structure Listed (s : State) : Prop where
  made : ∀ request ∈ s.made, ∀ screen, request.origin = .loginScreen screen →
    screen < s.screens.length
  calls : ∀ call ∈ s.calls, ∀ screen, call.origin = .loginScreen screen → screen < s.screens.length
  results : ∀ entry ∈ s.results, ∀ screen, entry.1 = .loginScreen screen → screen < s.screens.length

/-- No screen is forgotten, and new requests and answers are those of screens. -/
structure Listed.Grows (s t : State) : Prop where
  listed : Listed t
  screens : s.screens.length ≤ t.screens.length

theorem Listed.frame (listed : Listed s) (made : t.made ⊆ s.made) (calls : t.calls ⊆ s.calls)
    (results : t.results ⊆ s.results) (more : s.screens.length ≤ t.screens.length) :
    Listed.Grows s t := by
  refine ⟨⟨?_, ?_, ?_⟩, more⟩
  · exact fun request member screen own =>
      Nat.lt_of_lt_of_le (listed.made request (made member) screen own) more
  · exact fun call member screen own =>
      Nat.lt_of_lt_of_le (listed.calls call (calls member) screen own) more
  · exact fun entry member screen own =>
      Nat.lt_of_lt_of_le (listed.results entry (results member) screen own) more

theorem Listed.set (listed : Listed s) (screen : Nat) (vc : LoginVC) :
    Listed.Grows s { s with screens := s.screens.set screen vc } :=
  listed.frame (List.Subset.refl _) (List.Subset.refl _) (List.Subset.refl _)
    (Nat.le_of_eq (List.length_set ..).symm)

theorem Listed.request (listed : Listed s) {origin : Origin}
    (opened : ∀ screen, origin = .loginScreen screen → screen < s.screens.length) :
    Listed (request s origin email password) :=
  ⟨Pool.forall_snoc listed.made opened, Pool.forall_snoc listed.calls opened, listed.results⟩

theorem completed_frame (s : State) (call : Call) (result : Option Uid) (presentable : Bool) :
    (completed s call result presentable).made = s.made ∧
      (completed s call result presentable).calls = s.calls ∧
      (completed s call result presentable).results = s.results ++ [(call.origin, result)] ∧
      (completed s call result presentable).screens.length = s.screens.length := by
  unfold completed
  split
  · exact ⟨rfl, rfl, rfl, rfl⟩
  · split
    · exact ⟨rfl, rfl, rfl, rfl⟩
    · exact ⟨rfl, rfl, rfl, List.length_set ..⟩

theorem Listed.completed (listed : Listed s) {call : Call}
    (opened : ∀ screen, call.origin = .loginScreen screen → screen < s.screens.length)
    (result : Option Uid) (presentable : Bool) :
    Listed.Grows s (completed s call result presentable) := by
  have done : Listed { s with results := s.results ++ [(call.origin, result)] } :=
    ⟨listed.made, listed.calls, Pool.forall_snoc listed.results opened⟩
  obtain ⟨made, calls, results, length⟩ := completed_frame s call result presentable
  refine ⟨(done.frame ?_ ?_ ?_ (Nat.le_of_eq length.symm)).listed, Nat.le_of_eq length.symm⟩
  · exact made ▸ List.Subset.refl _
  · exact calls ▸ List.Subset.refl _
  · exact results ▸ List.Subset.refl _

theorem Listed.login (listed : Listed s) (found : s.screens[screen]? = some vc)
    (email password : Option String) :
    Listed.Grows s (loginButtonDidTapped s screen vc email password) := by
  obtain ⟨same, -⟩ | ⟨mail, secret, -, -, -, same⟩ := login_cases s screen vc email password
  · rw [same]
    exact listed.set _ _
  · rw [same]
    obtain ⟨shown, more⟩ := listed.set screen { vc with errorLabel := checkValid email password }
    refine ⟨shown.request ?_, more⟩
    rintro other ⟨⟩
    rw [List.length_set]
    exact (List.getElem?_eq_some_iff.mp found).1

theorem step_listed (listed : Listed s) (step : (machine users authenticate).step s a = some t) :
    Listed.Grows s t := by
  cases step_stepped step with
  | elsewhere other profile server grows =>
    exact ⟨⟨listed.made, listed.calls, listed.results⟩, le_rfl⟩
  | opened =>
    exact listed.frame (List.Subset.refl _) (List.Subset.refl _) (List.Subset.refl _) (by simp)
  | left screen vc found => exact listed.set _ _
  | tapped screen vc email password found => exact listed.login found email password
  | dismissed screen vc shown found up => exact listed.set _ _
  | button email password found =>
    exact ⟨listed.request fun _ other => absurd other (by simp), le_rfl⟩
  | answered serial connected presentable call calls profile result taken answer =>
    have fewer : Listed { s with profile := profile, calls := calls } := ⟨listed.made,
      fun other member => listed.calls other (Pool.take?_left taken member), listed.results⟩
    obtain ⟨answered, more⟩ :=
      fewer.completed (listed.calls call (Pool.take?_mem taken)) result presentable
    exact ⟨answered, more⟩
  | restarted =>
    exact listed.frame (List.Subset.refl _) (List.nil_subset _) (List.Subset.refl _)
      (Nat.le_of_eq (List.length_map _).symm)

/-! What a step does to a screen that is open after it -/

/-- Nothing new is shown; an alert that is dismissed was not that of a success. -/
structure Quiet (before vc : LoginVC) : Prop where
  stayed : before.left = false
  alerts : vc.alerts = before.alerts
  presented : vc.presented = before.presented ∨
    vc.presented = none ∧ before.presented ≠ some (alert true)

theorem Quiet.refl (stays : vc.left = false) : Quiet vc vc := ⟨stays, rfl, Or.inl rfl⟩

theorem quiet_set {screens : List LoginVC} {changing : Nat} {old changed : LoginVC}
    (found : screens[changing]? = some old)
    (present : (screens.set changing changed)[screen]? = some vc)
    (quiet : changed.left = false → Quiet old changed) (stays : vc.left = false) :
    ∃ before, screens[screen]? = some before ∧ Quiet before vc := by
  rcases getElem?_set_cases present with ⟨rfl, rfl⟩ | ⟨-, present⟩
  · exact ⟨old, found, quiet stays⟩
  · exact ⟨vc, present, .refl stays⟩

theorem okButton_quiet {shown : String × String} (up : vc.presented = some shown)
    (stays : (vc.okButton shown).left = false) : Quiet vc (vc.okButton shown) := by
  obtain ⟨stayed, other⟩ := Bool.or_eq_false_iff.mp stays
  refine ⟨stayed, rfl, Or.inr ⟨rfl, ?_⟩⟩
  rw [up]
  exact fun same => beq_eq_false_iff_ne.mp other (Option.some.inj same)

/-- The screen is new, or nothing is answered there, or one of its requests is. -/
inductive Next (s t : State) (a : Action) (screen : Nat) (vc : LoginVC) : Prop where
  | opened (later : s.screens.length ≤ screen) (new : vc = .opened)
      (none : outcomes t.results screen = []) (idle : t.asked screen = 0 ∧ t.waiting screen = 0)
      (met : Presentable screen s a)
  | kept (before : LoginVC) (found : s.screens[screen]? = some before) (quiet : Quiet before vc)
      (same : outcomes t.results screen = outcomes s.results screen)
      (balance : t.asked screen + s.waiting screen = s.asked screen + t.waiting screen)
      (met : Presentable screen s a)
  | answered (before : LoginVC) (found : s.screens[screen]? = some before)
      (stayed : before.left = false) (success presentable : Bool)
      (shown : vc = before.completed success presentable)
      (last : outcomes t.results screen = outcomes s.results screen ++ [success])
      (balance : t.asked screen + s.waiting screen = s.asked screen + (t.waiting screen + 1))
      (met : Presentable screen s a ↔ presentable = true ∧ before.presented = none)

theorem Next.unchanged {before : LoginVC} (found : s.screens[screen]? = some before)
    (quiet : Quiet before vc) (results : t.results = s.results) (made : t.made = s.made)
    (calls : t.calls = s.calls) (met : Presentable screen s a) : Next s t a screen vc := by
  refine .kept before found quiet (congrArg (outcomes · screen) results) ?_ met
  rw [State.asked, State.waiting, State.asked, State.waiting, made, calls]

theorem Next.requested {before : LoginVC} (screens : List LoginVC) {origin : Origin}
    (found : s.screens[screen]? = some before) (quiet : Quiet before vc)
    (met : Presentable screen s a) :
    Next s (request { s with screens := screens } origin email password) a screen vc := by
  refine .kept before found quiet rfl ?_ met
  simp only [State.asked, State.waiting, SignIn.request, List.countP_append, List.countP_singleton]
  omega

theorem Listed.opened (listed : Listed s) (present : (s.screens ++ [.opened])[screen]? = some vc)
    (stays : vc.left = false) :
    Next s { s with screens := s.screens ++ [.opened] } .openLogin screen vc := by
  rcases Nat.lt_trichotomy screen s.screens.length with earlier | rfl | beyond
  · rw [List.getElem?_append_left earlier] at present
    exact .unchanged present (.refl stays) rfl rfl rfl trivial
  · rw [List.getElem?_concat_length] at present
    refine .opened le_rfl (Option.some.inj present).symm ?_ ⟨?_, ?_⟩ trivial
    · rw [outcomes, List.map_eq_nil_iff, List.filter_eq_nil_iff]
      intro entry member own
      exact Nat.lt_irrefl _ (listed.results entry member _ (beq_iff_eq.mp own))
    · rw [State.asked, List.countP_eq_zero]
      intro request member own
      exact Nat.lt_irrefl _ (listed.made request member _ (beq_iff_eq.mp own))
    · rw [State.waiting, List.countP_eq_zero]
      intro call member own
      exact Nat.lt_irrefl _ (listed.calls call member _ (beq_iff_eq.mp own))
  · rw [List.getElem?_eq_none (by rw [List.length_append]; exact beyond)] at present
    contradiction

theorem next_login {before : LoginVC} {tapped : Nat} {email password : Option String}
    (found : s.screens[tapped]? = some before)
    (present : (loginButtonDidTapped s tapped before email password).screens[screen]? = some vc)
    (stays : vc.left = false) (met : Presentable screen s a) :
    Next s (loginButtonDidTapped s tapped before email password) a screen vc := by
  have quiet {label : Option String}
      (present : (s.screens.set tapped { before with errorLabel := label })[screen]? = some vc) :
      ∃ old, s.screens[screen]? = some old ∧ Quiet old vc :=
    quiet_set found present (fun stays => ⟨stays, rfl, Or.inl rfl⟩) stays
  obtain ⟨same, -⟩ | ⟨mail, secret, -, -, -, same⟩ := login_cases s tapped before email password
  · rw [same] at present ⊢
    obtain ⟨old, found, quiet⟩ := quiet present
    exact .unchanged found quiet rfl rfl rfl met
  · rw [same] at present ⊢
    obtain ⟨old, found, quiet⟩ := quiet present
    exact .requested _ found quiet met

theorem completed_left (vc : LoginVC) (success presentable : Bool) :
    (vc.completed success presentable).left = vc.left := by
  unfold LoginVC.completed LoginVC.setupAlert
  dsimp only
  split
  · rfl
  · split <;> rfl

/-- An answer changes its own screen only. -/
theorem completed_screens {call : Call} {result : Option Uid} {presentable : Bool}
    (other : call.origin ≠ .loginScreen screen) :
    (completed s call result presentable).screens[screen]? = s.screens[screen]? := by
  unfold completed
  split
  · rfl
  · rename_i opened own
    split
    · rfl
    · refine List.getElem?_set_ne ?_
      rintro rfl
      exact other own

theorem completed_own {call : Call} {result : Option Uid} {presentable : Bool} {before : LoginVC}
    (own : call.origin = .loginScreen screen) (found : s.screens[screen]? = some before) :
    (completed s call result presentable).screens[screen]? =
      some (before.completed result.isSome presentable) := by
  have login : (Login.signIn ⟨before.success, s.keychain⟩ call.email call.password result).2 =
      result.isSome := by
    cases result <;> rfl
  simp only [completed, own, found, login]
  exact List.getElem?_set_self (List.getElem?_eq_some_iff.mp found).1

theorem next_completed {call : Call} {calls : List Call} {serial : Nat} {connected presentable : Bool}
    {profile : Profile.State} {result : Option Uid} (listed : Listed s)
    (taken : Pool.take? (·.serial == serial) s.calls = some (call, calls))
    (present : (completed { s with profile := profile, calls := calls } call result
      presentable).screens[screen]? = some vc) (stays : vc.left = false) :
    Next s (completed { s with profile := profile, calls := calls } call result presentable)
      (.completion serial connected presentable) screen vc := by
  obtain ⟨made, left, results, -⟩ :=
    completed_frame { s with profile := profile, calls := calls } call result presentable
  have waiting : s.waiting screen = _ := Pool.take?_countP taken (·.origin == .loginScreen screen)
  have head := Pool.take?_find taken
  by_cases own : call.origin = .loginScreen screen
  · have opened := listed.calls call (Pool.take?_mem taken) screen own
    obtain ⟨before, found⟩ : ∃ before, s.screens[screen]? = some before :=
      ⟨_, List.getElem?_eq_getElem opened⟩
    rw [completed_own own (show ({ s with profile := profile, calls := calls } : State).screens[screen]? =
      some before from found)] at present
    obtain rfl := Option.some.inj present
    refine .answered before found ?_ result.isSome presentable rfl ?_ ?_ ?_
    · rwa [completed_left] at stays
    · rw [results, outcomes_snoc, if_pos own]
    · rw [waiting, if_pos (beq_iff_eq.mpr own), State.asked, State.waiting, made, left]
      rfl
    · constructor
      · intro met
        obtain ⟨shows, free⟩ := met call head own
        exact ⟨shows, free before found⟩
      · rintro ⟨shows, free⟩ other same -
        obtain rfl := Option.some.inj (head.symm.trans same)
        refine ⟨shows, fun vc listed => ?_⟩
        obtain rfl := Option.some.inj (found.symm.trans listed)
        exact free
  · rw [completed_screens own] at present
    refine .kept vc present (.refl stays) ?_ ?_ ?_
    · rw [results, outcomes_snoc, if_neg own, List.append_nil]
    · rw [waiting, if_neg (by simpa using own), State.asked, State.waiting, made, left]
      rfl
    · rintro other same named
      obtain rfl := Option.some.inj (head.symm.trans same)
      exact absurd named own

theorem step_next (listed : Listed s) (step : (machine users authenticate).step s a = some t)
    (present : t.screens[screen]? = some vc) (stays : vc.left = false) : Next s t a screen vc := by
  cases step_stepped step with
  | elsewhere other profile server grows =>
    exact .unchanged present (.refl stays) rfl rfl rfl other.presentable
  | opened => exact listed.opened present stays
  | left leaving old found =>
    obtain ⟨before, found, quiet⟩ :=
      quiet_set found present (fun stays => absurd stays (by simp)) stays
    exact .unchanged found quiet rfl rfl rfl trivial
  | tapped tapped old email password found => exact next_login found present stays trivial
  | dismissed tapped old shown found up =>
    obtain ⟨before, found, quiet⟩ := quiet_set found present (okButton_quiet up) stays
    exact .unchanged found quiet rfl rfl rfl trivial
  | button email password found => exact .requested s.screens present (.refl stays) trivial
  | answered serial connected presentable call calls profile result taken answer =>
    exact next_completed listed taken present stays
  | restarted =>
    rw [List.getElem?_map] at present
    obtain ⟨before, -, rfl⟩ := Option.map_eq_some_iff.mp present
    contradiction

/-! What an open screen has shown of its answers -/

structure LoginVC.Answers (s : State) (screen : Nat) (vc : LoginVC) : Prop where
  shown : vc.alerts.Sublist ((outcomes s.results screen).map alert)
  welcome : alert true ∈ vc.alerts → vc.presented = some (alert true)
  count : s.asked screen = (outcomes s.results screen).length + s.waiting screen

structure Answered (s : State) : Prop where
  listed : Listed s
  answers : ∀ (screen : Nat) (vc : LoginVC), s.screens[screen]? = some vc → vc.left = false →
    vc.Answers s screen

theorem start_answered (server : Server) : Answered (.start server) where
  listed := ⟨List.forall_mem_nil _, List.forall_mem_nil _, List.forall_mem_nil _⟩
  answers _ _ none := absurd none (by simp [State.start])

theorem completed_shown {before : LoginVC} (stayed : before.left = false) (success : Bool)
    (free : before.presented = none) : before.completed success true =
      { before with
        success := success
        alerts := before.alerts ++ [alert success]
        presented := some (alert success) } := by
  simp only [LoginVC.completed, LoginVC.setupAlert, stayed, free]
  rfl

theorem completed_missed {before : LoginVC} {success presentable : Bool}
    (missed : ¬ (presentable = true ∧ before.presented = none)) :
    before.completed success presentable = { before with success := success } := by
  simp only [LoginVC.completed, LoginVC.setupAlert, if_neg missed, ite_self]

theorem Quiet.answers {before : LoginVC} (quiet : Quiet before vc) (answers : before.Answers s screen)
    (same : outcomes t.results screen = outcomes s.results screen)
    (balance : t.asked screen + s.waiting screen = s.asked screen + t.waiting screen) :
    vc.Answers t screen where
  shown := by
    rw [quiet.alerts, same]
    exact answers.shown
  welcome member := by
    rw [quiet.alerts] at member
    have up := answers.welcome member
    rcases quiet.presented with kept | ⟨-, other⟩
    · exact kept.trans up
    · exact absurd up other
  count := by
    rw [same]
    have count := answers.count
    omega

theorem LoginVC.Answers.completed {before : LoginVC} {success presentable : Bool}
    (answers : before.Answers s screen) (stayed : before.left = false)
    (last : outcomes t.results screen = outcomes s.results screen ++ [success])
    (balance : t.asked screen + s.waiting screen = s.asked screen + (t.waiting screen + 1)) :
    (before.completed success presentable).Answers t screen := by
  have count : t.asked screen = (outcomes t.results screen).length + t.waiting screen := by
    have count := answers.count
    rw [last, List.length_append, List.length_singleton]
    omega
  by_cases shows : presentable = true ∧ before.presented = none
  · obtain ⟨rfl, free⟩ := shows
    rw [completed_shown stayed success free]
    refine ⟨?_, ?_, count⟩
    · rw [last, List.map_append]
      exact answers.shown.append (List.Sublist.refl _)
    · -- After a success there is no room for another alert.
      intro member
      rcases List.mem_append.mp member with earlier | new
      · rw [answers.welcome earlier] at free
        contradiction
      · exact congrArg some (List.mem_singleton.mp new).symm
  · rw [completed_missed shows]
    refine ⟨?_, answers.welcome, count⟩
    rw [last, List.map_append]
    exact answers.shown.trans (List.sublist_append_left _ _)

theorem step_answered (answered : Answered s) (step : (machine users authenticate).step s a = some t) :
    Answered t := by
  refine ⟨(step_listed answered.listed step).listed, ?_⟩
  intro screen vc present stays
  cases step_next answered.listed step present stays with
  | opened later new none idle met =>
    subst new
    refine ⟨?_, fun member => absurd member List.not_mem_nil, ?_⟩
    · exact List.nil_sublist _
    · rw [none, idle.1, idle.2]
      rfl
  | kept before found quiet same balance met =>
    exact quiet.answers (answered.answers screen before found quiet.stayed) same balance
  | answered before found stayed success presentable shown last balance met =>
    subst shown
    exact (answered.answers screen before found stayed).completed stayed last balance

/-! Which answers are not shown -/

def Shown (screen : Nat) (s : State) : Prop :=
  ∀ vc, s.screens[screen]? = some vc → vc.left = false →
    vc.alerts = (outcomes s.results screen).map alert

/-- An answer has been missed, and no later alert makes up for it. -/
structure Missed (screen : Nat) (s : State) : Prop where
  opened : screen < s.screens.length
  fewer : ∀ vc, s.screens[screen]? = some vc → vc.left = false →
    vc.alerts.length < (outcomes s.results screen).length

theorem step_shown (listed : Listed s) (shown : Shown screen s) (met : Presentable screen s a)
    (step : (machine users authenticate).step s a = some t) : Shown screen t := by
  intro vc present stays
  cases step_next listed step present stays with
  | opened later new none idle _ =>
    rw [new, none]
    rfl
  | kept before found quiet same balance _ =>
    rw [quiet.alerts, same]
    exact shown before found quiet.stayed
  | answered before found stayed success presentable completed last balance presents =>
    obtain ⟨rfl, free⟩ := presents.mp met
    rw [completed, completed_shown stayed success free, last, List.map_append,
      shown before found stayed]
    rfl

/-- Only an answer to the screen itself is missed there. -/
theorem missed_opened (listed : Listed s) (missed : ¬ Presentable screen s a) :
    screen < s.screens.length := by
  cases a with
  | completion serial connected presentable =>
    by_contra unopened
    refine missed ?_
    intro call found own
    exact absurd (listed.calls call (List.mem_of_find?_eq_some found) screen own) unopened
  | _ => exact absurd trivial missed

theorem step_missed (listed : Listed s) (shown : Shown screen s) (missed : ¬ Presentable screen s a)
    (step : (machine users authenticate).step s a = some t) : Missed screen t := by
  refine ⟨Nat.lt_of_lt_of_le (missed_opened listed missed) (step_listed listed step).screens, ?_⟩
  intro vc present stays
  cases step_next listed step present stays with
  | opened later new none idle met => exact absurd met missed
  | kept before found quiet same balance met => exact absurd met missed
  | answered before found stayed success presentable completed last balance presents =>
    have full := congrArg List.length (shown before found stayed)
    rw [List.length_map] at full
    rw [completed, completed_missed fun shows => missed (presents.mpr shows), last,
      List.length_append, List.length_singleton, full]
    exact Nat.lt_succ_self _

theorem stays_missed (listed : Listed s) (missed : Missed screen s)
    (step : (machine users authenticate).step s a = some t) : Missed screen t := by
  refine ⟨Nat.lt_of_lt_of_le missed.opened (step_listed listed step).screens, ?_⟩
  intro vc present stays
  cases step_next listed step present stays with
  | opened later new none idle met => exact absurd missed.opened (Nat.not_lt.mpr later)
  | kept before found quiet same balance met =>
    rw [quiet.alerts, same]
    exact missed.fewer before found quiet.stayed
  | answered before found stayed success presentable completed last balance presents =>
    have fewer := missed.fewer before found stayed
    have one : vc.alerts.length ≤ before.alerts.length + 1 := by
      by_cases shows : presentable = true ∧ before.presented = none
      · obtain ⟨rfl, free⟩ := shows
        rw [completed, completed_shown stayed success free, List.length_append,
          List.length_singleton]
      · rw [completed, completed_missed shows]
        exact Nat.le_succ _
    rw [last, List.length_append, List.length_singleton]
    omega

/-! The requests are the taps on filled forms -/

theorem login_made (s : State) (tapped : Nat) (vc : LoginVC) (email password : Option String)
    (screen : Nat) :
    (loginButtonDidTapped s tapped vc email password).made.filter (·.origin == .loginScreen screen) =
      s.made.filter (·.origin == .loginScreen screen) ++
        ((Action.loginButtonDidTapped tapped email password).submitted screen).toList := by
  obtain ⟨same, unfilled⟩ | ⟨mail, secret, rfl, rfl, filled, same⟩ :=
    login_cases s tapped vc email password
  · have none : (Action.loginButtonDidTapped tapped email password).submitted screen = none := by
      unfold Action.submitted
      split
      · rename_i action tried mail secret tap
        obtain ⟨-, rfl, rfl⟩ := Action.loginButtonDidTapped.inj tap
        exact if_neg fun accepted => unfilled mail secret rfl rfl accepted.2
      · rfl
    rw [same, none]
    exact (List.append_nil _).symm
  · rw [same]
    simp only [request, List.filter_append, List.filter_singleton, Action.submitted]
    by_cases own : tapped = screen
    · subst own
      rw [if_pos ⟨rfl, filled⟩, beq_self_eq_true]
      rfl
    · rw [if_neg fun accepted => own accepted.1, beq_eq_false_iff_ne.mpr (by simpa using own)]
      rfl

theorem step_made (step : (machine users authenticate).step s a = some t) :
    t.made.filter (·.origin == .loginScreen screen) =
      s.made.filter (·.origin == .loginScreen screen) ++ (a.submitted screen).toList := by
  cases step_stepped step with
  | elsewhere other profile server grows =>
    rw [other.submitted]
    exact (List.append_nil _).symm
  | opened | left | dismissed | restarted => exact (List.append_nil _).symm
  | tapped tapped vc email password found => exact login_made s tapped vc email password screen
  | button email password found =>
    simp only [request, List.filter_append, List.filter_singleton]
    rfl
  | answered serial connected presentable call calls profile result taken answer =>
    rw [(completed_frame ..).1]
    exact (List.append_nil _).symm

theorem run_made {acts : List Action} (run : (machine users authenticate).run s acts = some t) :
    t.made.filter (·.origin == .loginScreen screen) =
      s.made.filter (·.origin == .loginScreen screen) ++ acts.filterMap (Action.submitted screen) := by
  induction acts generalizing s with
  | nil =>
    cases run
    exact (List.append_nil _).symm
  | cons a rest ih =>
    obtain ⟨next, step, run⟩ := Transition.Machine.run_cons.mp run
    rw [ih run, step_made step, List.append_assoc, List.filterMap_cons]
    cases a.submitted screen <;> rfl

/-- In every state reached, a screen that is still open has made a request for each tap on a
filled form and for no other; each is under way or answered. The alerts that it has shown are those
of answers, in their order ("Welcome!" for a success, "Error" for a failure), and of all of them if
and only if each answer came while no alert was up and UIKit could present one. A "Welcome!" is
still up. -/
theorem alerts_follow_answers {acts : List Action}
    (run : (machine users authenticate).run (.start server) acts = some s)
    (found : s.screens[screen]? = some vc) (stays : vc.left = false) :
    s.made.filter (·.origin == .loginScreen screen) = acts.filterMap (Action.submitted screen) ∧
    s.asked screen = (outcomes s.results screen).length + s.waiting screen ∧
    vc.alerts.Sublist ((outcomes s.results screen).map alert) ∧
    (vc.alerts = (outcomes s.results screen).map alert ↔
      (machine users authenticate).Along (Presentable screen) (.start server) acts) ∧
    (alert true ∈ vc.alerts → vc.presented = some (alert true)) := by
  have answered := Transition.Machine.run_invariant step_answered run (start_answered server)
  obtain ⟨shown, welcome, count⟩ := answered.answers screen vc found stays
  refine ⟨run_made run, count, shown, ?_, welcome⟩
  have within : (machine users authenticate).Along (fun _ _ => True) (.start server) acts :=
    Transition.Machine.along_of_forall fun _ _ _ => trivial
  have trapped := Transition.Machine.along_trap (Presentable screen)
    (fun s => Listed s ∧ Shown screen s) (fun s => Listed s ∧ Missed screen s)
    (fun good _ met step => ⟨(step_listed good.1 step).listed, step_shown good.1 good.2 met step⟩)
    (fun good _ missed step =>
      ⟨(step_listed good.1 step).listed, step_missed good.1 good.2 missed step⟩)
    (fun bad _ step => ⟨(step_listed bad.1 step).listed, stays_missed bad.1 bad.2 step⟩)
    run within ⟨(start_answered server).listed, fun _ none => absurd none (by simp [State.start])⟩
  rcases trapped with ⟨along, -, complete⟩ | ⟨broken, -, missed⟩
  · exact iff_of_true (complete vc found stays) along
  · refine iff_of_false ?_ broken
    intro all
    have fewer := missed.fewer vc found stays
    rw [all, List.length_map] at fewer
    exact Nat.lt_irrefl _ fewer

/-- An empty form, a mistyped password and, once that alert is dismissed, the right one. -/
def secondTry : List Action :=
  [.openLogin, .loginButtonDidTapped 0 (some "ann@mail.com") (some ""),
    .loginButtonDidTapped 0 (some "ann@mail.com") (some "odl"), .completion 0 true true, .okButton 0,
    .loginButtonDidTapped 0 (some "ann@mail.com") (some "old"), .completion 1 true true]

theorem alerts_follow_answers_second_try :
    ∃ s vc, (machine (fun _ => none) rightPassword).run (.start firebase) secondTry = some s ∧
      s.screens[0]? = some vc ∧ s.asked 0 = 2 ∧
      vc.alerts = [("Error", "Connection error"), ("Welcome!", "")] ∧
      vc.presented = some ("Welcome!", "") := by
  obtain ⟨s, vc, run, found, stays, outcomes, waiting⟩ : ∃ s vc,
      (machine (fun _ => none) rightPassword).run (.start firebase) secondTry = some s ∧
      s.screens[0]? = some vc ∧ vc.left = false ∧ outcomes s.results 0 = [false, true] ∧
      s.waiting 0 = 0 := ⟨_, _, rfl, rfl, rfl, rfl, rfl⟩
  have inTime : (machine (fun _ => none) rightPassword).Along (Presentable 0) (.start firebase)
      secondTry := by
    refine ⟨trivial, trivial, trivial, ?_, trivial, trivial, ?_, trivial⟩
    · rintro call found -
      exact ⟨rfl, by rintro vc ⟨⟩; rfl⟩
    · rintro call found -
      exact ⟨rfl, by rintro vc ⟨⟩; rfl⟩
  obtain ⟨-, count, -, all, welcome⟩ := alerts_follow_answers run found stays
  have alerts := all.mpr inTime
  rw [outcomes] at count alerts
  refine ⟨s, vc, run, found, count.trans (by rw [waiting]; rfl), alerts, welcome ?_⟩
  rw [alerts]
  exact List.mem_cons_of_mem _ List.mem_cons_self

/-- Two forms submitted at once: the second answer finds the first one's alert up. -/
example : ((machine (fun _ => none) rightPassword).run (.start firebase)
    [.openLogin, .loginButtonDidTapped 0 (some "ann@mail.com") (some "odl"),
      .loginButtonDidTapped 0 (some "ann@mail.com") (some "old"), .completion 1 true true,
      .completion 0 true true]).map (·.screens.map LoginVC.alerts) =
    some [[("Welcome!", "")]] := rfl

end MoviesApp.SignIn
