import MoviesApp.Firestore
import MoviesApp.Pool
import MoviesApp.Transition

/-! Uploading avatars. Every pick stores its photo, asks for the download URL of what is
stored, and writes that URL into the user's document, each step in its own callback. The
steps of several picks cross freely. -/
namespace MoviesApp.AvatarUpload
open Firestore

abbrev Data := String

/-- The call an upload waits for. -/
inductive Stage where
  | putData (imageData : Data)
  | downloadURL
  | updateData (url : String)
  deriving DecidableEq

/-- An upload on its way; `pick` is the position of its pick. -/
structure Upload where
  pick : Nat
  uid : Uid
  stage : Stage
  deriving DecidableEq

/-- What has been done for a user. -/
inductive Entry where
  | stored (imageData : Data) (url : String)
  | asked (pick : Nat)
  | written (pick : Nat)
  deriving DecidableEq

/-- The object stored for each user with its download URL, the URLs given out so far, the
ledger of picks, and for each user what has been done, the latest first. -/
structure State where
  currentUser : Option Uid
  users : Collection
  avatars : Uid → Option (Data × String)
  urls : List String
  uploads : List Upload
  picks : List (Uid × Data)
  log : Uid → List Entry

inductive Action where
  | signIn (uid : Uid)
  | signOut
  | didFinishPicking (imageData : Option Data)
  | putData (pick : Nat) (url : Option String)
  | downloadURL (pick : Nat) (failed : Bool)
  | updateData (pick : Nat) (failed : Bool)

def State.start (users : Collection) (avatars : Uid → Option (Data × String)) : State :=
  ⟨none, users, avatars, [], [], [], fun _ => []⟩

def State.record (s : State) (uid : Uid) (entry : Entry) : State :=
  { s with log := Function.update s.log uid (entry :: s.log uid) }

/-- Reads the user at this moment; without one, or without image data, nothing is sent. -/
def uploadUserPhoto (s : State) (imageData : Option Data) : State :=
  match s.currentUser, imageData with
  | some uid, some imageData => { s with
      uploads := s.uploads ++ [⟨s.picks.length, uid, .putData imageData⟩]
      picks := s.picks ++ [(uid, imageData)] }
  | _, _ => s

/-- The callback of `putData`. The object replaces the one before and has a URL of its own. -/
def stored (s : State) (upload : Upload) (imageData : Data) (url : String) : State :=
  { s with
    avatars := Function.update s.avatars upload.uid (some (imageData, url))
    urls := s.urls ++ [url]
    uploads := s.uploads ++ [{ upload with stage := .downloadURL }] }.record upload.uid
      (.stored imageData url)

/-- The callback of `downloadURL`, with the URL of the object that is there now. -/
def asked (s : State) (upload : Upload) (url : String) : State :=
  { s with uploads := s.uploads ++ [{ upload with stage := .updateData url }] }.record upload.uid
    (.asked upload.pick)

def written (s : State) (upload : Upload) (url : String) : State :=
  { s with users := Firestore.updateData s.users upload.uid "avatarURL" (.string url) }.record
    upload.uid (.written upload.pick)

/-- A call that fails is printed, and the upload is over. -/
def step (s : State) : Action → Option State
  | .signIn uid => some { s with currentUser := some uid }
  | .signOut => some { s with currentUser := none }
  | .didFinishPicking imageData => some (uploadUserPhoto s imageData)
  | .putData pick url =>
    (Pool.take? (·.pick == pick) s.uploads).bind fun (upload, uploads) =>
      match upload.stage, url with
      | .putData imageData, some url =>
        if url ∈ s.urls then none else some (stored { s with uploads := uploads } upload imageData url)
      | .putData _, none => some { s with uploads := uploads }
      | _, _ => none
  | .downloadURL pick failed =>
    (Pool.take? (·.pick == pick) s.uploads).bind fun (upload, uploads) =>
      match upload.stage with
      | .downloadURL => match failed, s.avatars upload.uid with
        | false, some (_, url) => some (asked { s with uploads := uploads } upload url)
        | _, _ => some { s with uploads := uploads }
      | _ => none
  | .updateData pick failed =>
    (Pool.take? (·.pick == pick) s.uploads).bind fun (upload, uploads) =>
      match upload.stage with
      | .updateData url => match failed, s.users upload.uid with
        | false, some _ => some (written { s with uploads := uploads } upload url)
        | _, _ => some { s with uploads := uploads }
      | _ => none

def machine : Transition.Machine State Action := ⟨step⟩

/-- Every call succeeds; a write succeeds where there is a document. -/
def Succeeds (s : State) : Action → Prop
  | .putData _ url => url.isSome
  | .downloadURL _ failed => failed = false
  | .updateData pick failed => failed = false ∧
      ∀ upload ∈ s.uploads.find? (·.pick == pick), (s.users upload.uid).isSome
  | .signIn _ | .signOut | .didFinishPicking _ => True

def avatarURL (users : Collection) (uid : Uid) : Option String :=
  (users uid).bind fun document => (document "avatarURL").bind Value.asString

/-- The photo the user picked last. -/
def lastPick (picks : List (Uid × Data)) (uid : Uid) : Option Data :=
  (picks.filter (·.1 == uid)).getLast?.map Prod.snd

/-! What the log says, the latest entry first -/

def lastStored : List Entry → Option (Data × String)
  | [] => none
  | .stored imageData url :: _ => some (imageData, url)
  | .asked _ :: rest | .written _ :: rest => lastStored rest

def lastWritten : List Entry → Option Nat
  | [] => none
  | .written pick :: _ => some pick
  | .stored _ _ :: rest | .asked _ :: rest => lastWritten rest

/-- The pick asked for its URL after the last store. -/
def askedSince (pick : Nat) : List Entry → Bool
  | [] | .stored _ _ :: _ => false
  | .asked other :: rest => other == pick || askedSince pick rest
  | .written _ :: rest => askedSince pick rest

/-- The last store is of the photo picked last, and the pick whose write comes last asked
for its URL after that store. -/
def InOrder (log : List Entry) (imageData : Data) : Prop :=
  (lastStored log).map Prod.fst = some imageData ∧
    ∃ pick, lastWritten log = some pick ∧ askedSince pick log = true

/-- The object stored is the photo, and the document has its URL. -/
def ShowsPhoto (s : State) (uid : Uid) (imageData : Data) : Prop :=
  ∃ url, s.avatars uid = some (imageData, url) ∧ avatarURL s.users uid = some url

variable {s next : State} {upload : Upload} {uploads : List Upload} {uid : Uid} {pick : Nat}
  {url : String} {imageData : Data}

variable {urls : List String} {log : List Entry} {left : List Upload}

/-- A URL that a pick was given: of the object that is still stored, exactly if the pick
asked after the last store. -/
def Given (urls : List String) (log : List Entry) (pick : Nat) (url : String) : Prop :=
  url ∈ urls ∧ ∃ imageData current, lastStored log = some (imageData, current) ∧
    (url = current ↔ askedSince pick log = true)

/-- A new object's URL is nobody's yet. -/
theorem Given.stored (given : Given urls log pick url) {new : String} (fresh : new ∉ urls) :
    Given (urls ++ [new]) (.stored imageData new :: log) pick url := by
  refine ⟨List.mem_append_left _ given.1, imageData, new, rfl, ?_⟩
  refine iff_of_false ?_ Bool.false_ne_true
  rintro rfl
  exact fresh given.1

theorem Given.asked (given : Given urls log pick url) {other : Nat} (different : other ≠ pick) :
    Given urls (.asked other :: log) pick url := by
  obtain ⟨issued, imageData, current, object, same⟩ := given
  refine ⟨issued, imageData, current, object, ?_⟩
  rw [askedSince, beq_eq_false_iff_ne.mpr different, Bool.false_or]
  exact same

theorem Given.written (given : Given urls log pick url) (other : Nat) :
    Given urls (.written other :: log) pick url := given

/-- The log agrees with the two stores, and uploads are where the log left them. -/
structure Inv (s : State) : Prop where
  distinct : (s.uploads.map Upload.pick).Nodup
  numbered : ∀ upload ∈ s.uploads, upload.pick < s.picks.length
  object : ∀ uid, (lastStored (s.log uid)).isSome → s.avatars uid = lastStored (s.log uid)
  issued : ∀ uid imageData url, lastStored (s.log uid) = some (imageData, url) → url ∈ s.urls
  asking : ∀ upload ∈ s.uploads, upload.stage = .downloadURL → (lastStored (s.log upload.uid)).isSome
  writing : ∀ upload ∈ s.uploads, ∀ url, upload.stage = .updateData url →
    Given s.urls (s.log upload.uid) upload.pick url
  finished : ∀ uid pick, lastWritten (s.log uid) = some pick →
    pick < s.picks.length ∧ ∀ upload ∈ s.uploads, upload.pick ≠ pick
  document : ∀ uid pick, lastWritten (s.log uid) = some pick →
    ∃ url, avatarURL s.users uid = some url ∧ Given s.urls (s.log uid) pick url
  complete : ∀ entry ∈ s.picks, (∃ upload ∈ s.uploads, upload.uid = entry.1) ∨
    (lastWritten (s.log entry.1)).isSome

theorem start_inv (users : Collection) (avatars : Uid → Option (Data × String)) :
    Inv (.start users avatars) where
  distinct := List.nodup_nil
  numbered := List.forall_mem_nil _
  object _ none := nomatch none
  issued _ _ _ none := nomatch none
  asking := List.forall_mem_nil _
  writing := List.forall_mem_nil _
  finished _ _ none := nomatch none
  document _ _ none := nomatch none
  complete := List.forall_mem_nil _

/-- An upload that goes on to its next call is still the only one with its number. -/
theorem Inv.moved (inv : Inv s) (taken : Pool.take? (·.pick == pick) s.uploads = some (upload, left))
    (stage : Stage) : ((left ++ [{ upload with stage := stage }]).map Upload.pick).Nodup := by
  obtain ⟨distinct, absent⟩ := Pool.take?_nodup taken inv.distinct
  exact Pool.nodup_snoc distinct fun other member same =>
    absent (List.mem_map.mpr ⟨other, member, same⟩)

/-- What holds of every upload holds of those left and of the one that went on. -/
theorem forall_moved {P : Upload → Prop}
    (taken : Pool.take? (·.pick == pick) s.uploads = some (upload, left)) {stage : Stage}
    (all : ∀ other ∈ s.uploads, P other) (one : P { upload with stage := stage }) :
    ∀ other ∈ left ++ [{ upload with stage := stage }], P other := by
  exact Pool.forall_snoc (fun other before => all other (Pool.take?_left taken before)) one

theorem record_same (s : State) (uid : Uid) (entry : Entry) :
    (s.record uid entry).log uid = entry :: s.log uid := Function.update_self ..

theorem record_other {entry : Entry} {other : Uid} (different : other ≠ uid) :
    (s.record uid entry).log other = s.log other := Function.update_of_ne different ..

theorem inv_pick (inv : Inv s) (imageData : Option Data) : Inv (uploadUserPhoto s imageData) := by
  unfold uploadUserPhoto
  split
  · rename_i uid imageData _ _
    refine { inv with
      distinct := ?_, numbered := ?_, asking := ?_, writing := ?_, finished := ?_, complete := ?_ }
    · exact Pool.nodup_snoc inv.distinct fun other member => Nat.ne_of_lt (inv.numbered other member)
    · rw [List.length_append, List.length_singleton]
      apply Pool.forall_snoc
      · exact fun other before => Nat.lt_succ_of_lt (inv.numbered other before)
      · exact Nat.lt_succ_self _
    · exact Pool.forall_snoc inv.asking nofun
    · exact Pool.forall_snoc inv.writing nofun
    · intro uid pick last
      obtain ⟨earlier, others⟩ := inv.finished uid pick last
      refine ⟨by rw [List.length_append]; exact Nat.lt_add_right _ earlier, ?_⟩
      exact Pool.forall_snoc others (Nat.ne_of_gt earlier)
    · intro entry member
      rcases List.mem_append.mp member with before | last
      · refine (inv.complete entry before).imp_left ?_
        rintro ⟨upload, listed, same⟩
        exact ⟨upload, List.mem_append_left _ listed, same⟩
      · cases List.mem_singleton.mp last
        exact Or.inl ⟨_, List.mem_append_right _ (List.mem_singleton.mpr rfl), rfl⟩
  · exact inv

/-- A user with an upload on its way has one after a step of that upload, too. -/
theorem Inv.complete_moved (inv : Inv s)
    (taken : Pool.take? (·.pick == pick) s.uploads = some (upload, left)) (stage : Stage)
    {entry : Uid × Data} (member : entry ∈ s.picks) :
    (∃ other ∈ left ++ [{ upload with stage := stage }], other.uid = entry.1) ∨
      (lastWritten (s.log entry.1)).isSome := by
  refine (inv.complete entry member).imp_left ?_
  rintro ⟨other, listed, same⟩
  rcases Pool.take?_cases taken listed with rfl | remains
  · exact ⟨_, List.mem_append_right _ (List.mem_singleton.mpr rfl), same⟩
  · exact ⟨other, List.mem_append_left _ remains, same⟩

/-! What one entry changes for any user -/

/-- What holds of a user's log with and without a new entry holds after a record for anyone. -/
theorem record_cases {P : List Entry → Prop} {entry : Entry} {other : Uid} (kept : P (s.log other))
    (added : P (entry :: s.log other)) : P ((s.record uid entry).log other) := by
  by_cases same : other = uid
  · rw [same] at added ⊢
    rw [record_same]
    exact added
  · rw [record_other same]
    exact kept

theorem lastWritten_stored (uid other : Uid) :
    lastWritten ((s.record uid (.stored imageData url)).log other) = lastWritten (s.log other) :=
  record_cases (P := fun log => lastWritten log = lastWritten (s.log other)) rfl rfl

theorem lastWritten_asked (uid other : Uid) (pick : Nat) :
    lastWritten ((s.record uid (.asked pick)).log other) = lastWritten (s.log other) :=
  record_cases (P := fun log => lastWritten log = lastWritten (s.log other)) rfl rfl

theorem lastStored_asked (uid other : Uid) (pick : Nat) :
    lastStored ((s.record uid (.asked pick)).log other) = lastStored (s.log other) :=
  record_cases (P := fun log => lastStored log = lastStored (s.log other)) rfl rfl

theorem lastStored_written (uid other : Uid) (pick : Nat) :
    lastStored ((s.record uid (.written pick)).log other) = lastStored (s.log other) :=
  record_cases (P := fun log => lastStored log = lastStored (s.log other)) rfl rfl

theorem Given.record_stored {other : Uid} {new : String}
    (given : Given s.urls (s.log other) pick url) (fresh : new ∉ s.urls) :
    Given (s.urls ++ [new]) ((s.record uid (.stored imageData new)).log other) pick url :=
  record_cases (P := (Given (s.urls ++ [new]) · pick url))
    ⟨List.mem_append_left _ given.1, given.2⟩ (given.stored fresh)

theorem Given.record_asked {other : Uid} {asker : Nat}
    (given : Given s.urls (s.log other) pick url) (different : asker ≠ pick) :
    Given s.urls ((s.record uid (.asked asker)).log other) pick url :=
  record_cases (P := (Given s.urls · pick url)) given (given.asked different)

theorem Given.record_written {other : Uid} {writer : Nat}
    (given : Given s.urls (s.log other) pick url) :
    Given s.urls ((s.record uid (.written writer)).log other) pick url :=
  record_cases (P := (Given s.urls · pick url)) given (given.written writer)

theorem inv_stored (inv : Inv s)
    (taken : Pool.take? (·.pick == pick) s.uploads = some (upload, left)) (fresh : url ∉ s.urls) :
    Inv (stored { s with uploads := left } upload imageData url) := by
  have object : ∀ uid, lastStored ((s.record upload.uid (.stored imageData url)).log uid) =
      if uid = upload.uid then some (imageData, url) else lastStored (s.log uid) := by
    intro uid
    by_cases same : uid = upload.uid
    · rw [if_pos same, same, record_same]
      rfl
    · rw [if_neg same, record_other same]
  refine ⟨inv.moved taken _, ?_, ?_, ?_, ?_, ?_, ?_, ?_, ?_⟩
  · exact forall_moved taken inv.numbered (inv.numbered upload (Pool.take?_mem taken))
  · intro uid some
    refine Eq.trans ?_ (object uid).symm
    have some := (congrArg Option.isSome (object uid)).symm.trans some
    by_cases same : uid = upload.uid
    · rw [if_pos same, same]
      exact Function.update_self ..
    · rw [if_neg same] at some ⊢
      exact (Function.update_of_ne same ..).trans (inv.object uid some)
  · intro uid photo other last
    have last := (object uid).symm.trans last
    by_cases same : uid = upload.uid
    · rw [if_pos same] at last
      cases last
      exact List.mem_append_right _ (List.mem_singleton.mpr rfl)
    · rw [if_neg same] at last
      exact List.mem_append_left _ (inv.issued uid photo other last)
  · intro other member stage
    refine (congrArg Option.isSome (object other.uid)).trans ?_
    by_cases same : other.uid = upload.uid
    · rw [if_pos same]
      rfl
    · rw [if_neg same]
      rcases List.mem_append.mp member with before | last
      · exact inv.asking other (Pool.take?_left taken before) stage
      · exact (same (by rw [List.mem_singleton.mp last])).elim
  · intro other member url' stage
    rcases List.mem_append.mp member with before | last
    · exact (inv.writing other (Pool.take?_left taken before) url' stage).record_stored fresh
    · rw [List.mem_singleton.mp last] at stage
      exact nomatch stage
  · intro uid pick last
    obtain ⟨earlier, others⟩ := inv.finished uid pick ((lastWritten_stored ..).symm.trans last)
    exact ⟨earlier, forall_moved taken others (others upload (Pool.take?_mem taken))⟩
  · intro uid pick last
    obtain ⟨url', shown, given⟩ := inv.document uid pick ((lastWritten_stored ..).symm.trans last)
    exact ⟨url', shown, given.record_stored fresh⟩
  · intro entry member
    refine (inv.complete_moved taken _ member).imp_right fun written => ?_
    exact (congrArg Option.isSome (lastWritten_stored ..)).trans written

/-- The URL is that of the object the log left stored, so it was asked for in time. -/
theorem inv_asked (inv : Inv s)
    (taken : Pool.take? (·.pick == pick) s.uploads = some (upload, left))
    (stage : upload.stage = .downloadURL) (found : s.avatars upload.uid = some (imageData, url)) :
    Inv (asked { s with uploads := left } upload url) := by
  have known := inv.asking upload (Pool.take?_mem taken) stage
  have last : lastStored (s.log upload.uid) = some (imageData, url) :=
    (inv.object upload.uid known).symm.trans found
  have own : Given s.urls ((s.record upload.uid (.asked upload.pick)).log upload.uid) upload.pick url := by
    refine ⟨inv.issued _ _ _ last, imageData, url, (lastStored_asked ..).trans last, ?_⟩
    rw [record_same, askedSince, beq_self_eq_true, Bool.true_or]
    exact iff_of_true rfl rfl
  obtain ⟨-, absent⟩ := Pool.take?_nodup taken inv.distinct
  refine ⟨inv.moved taken _, ?_, ?_, ?_, ?_, ?_, ?_, ?_, ?_⟩
  · exact forall_moved taken inv.numbered (inv.numbered upload (Pool.take?_mem taken))
  · intro uid some
    have object := lastStored_asked (s := s) upload.uid uid upload.pick
    exact (inv.object uid ((congrArg Option.isSome object).symm.trans some)).trans object.symm
  · exact fun uid photo other stored =>
      inv.issued uid photo other ((lastStored_asked ..).symm.trans stored)
  · intro other member stage
    refine (congrArg Option.isSome (lastStored_asked ..)).trans ?_
    rcases List.mem_append.mp member with before | last
    · exact inv.asking other (Pool.take?_left taken before) stage
    · rw [List.mem_singleton.mp last] at stage
      exact nomatch stage
  · intro other member url' stage
    rcases List.mem_append.mp member with before | last
    · refine (inv.writing other (Pool.take?_left taken before) url' stage).record_asked ?_
      exact fun same => absent (List.mem_map.mpr ⟨other, before, same.symm⟩)
    · cases List.mem_singleton.mp last
      cases stage
      exact own
  · intro uid pick last
    obtain ⟨earlier, others⟩ := inv.finished uid pick ((lastWritten_asked ..).symm.trans last)
    exact ⟨earlier, forall_moved taken others (others upload (Pool.take?_mem taken))⟩
  · intro uid pick last
    have written := (lastWritten_asked ..).symm.trans last
    obtain ⟨url', shown, given⟩ := inv.document uid pick written
    exact ⟨url', shown, given.record_asked ((inv.finished uid pick written).2 upload (Pool.take?_mem taken))⟩
  · intro entry member
    refine (inv.complete_moved taken _ member).imp_right fun written => ?_
    exact (congrArg Option.isSome (lastWritten_asked ..)).trans written

theorem avatarURL_updateData_same {users : Collection} (document : (users uid).isSome) :
    avatarURL (updateData users uid "avatarURL" (.string url)) uid = some url := by
  obtain ⟨found, stored⟩ := Option.isSome_iff_exists.mp document
  rw [avatarURL, updateData_same, stored]
  simp only [Option.map_some, Option.bind_some, setting_same, Value.asString]

theorem avatarURL_updateData_other {users : Collection} {other : Uid} (different : other ≠ uid) :
    avatarURL (updateData users uid "avatarURL" (.string url)) other = avatarURL users other := by
  rw [avatarURL, updateData_apply, if_neg different, avatarURL]

theorem inv_written (inv : Inv s)
    (taken : Pool.take? (·.pick == pick) s.uploads = some (upload, left))
    (stage : upload.stage = .updateData url) (document : (s.users upload.uid).isSome) :
    Inv (written { s with uploads := left } upload url) := by
  have given := inv.writing upload (Pool.take?_mem taken) url stage
  obtain ⟨distinct, absent⟩ := Pool.take?_nodup taken inv.distinct
  have last : ∀ uid, lastWritten ((s.record upload.uid (.written upload.pick)).log uid) =
      if uid = upload.uid then some upload.pick else lastWritten (s.log uid) := by
    intro uid
    by_cases same : uid = upload.uid
    · rw [if_pos same, same, record_same]
      rfl
    · rw [if_neg same, record_other same]
  refine ⟨distinct, ?_, ?_, ?_, ?_, ?_, ?_, ?_, ?_⟩
  · exact fun other member => inv.numbered other (Pool.take?_left taken member)
  · intro uid some
    have object := lastStored_written (s := s) upload.uid uid upload.pick
    exact (inv.object uid ((congrArg Option.isSome object).symm.trans some)).trans object.symm
  · exact fun uid photo other stored =>
      inv.issued uid photo other ((lastStored_written ..).symm.trans stored)
  · exact fun other member stage => (congrArg Option.isSome (lastStored_written ..)).trans
      (inv.asking other (Pool.take?_left taken member) stage)
  · exact fun other member url' stage =>
      (inv.writing other (Pool.take?_left taken member) url' stage).record_written
  · intro uid pick found
    have found := (last uid).symm.trans found
    by_cases same : uid = upload.uid
    · rw [if_pos same] at found
      cases found
      refine ⟨inv.numbered upload (Pool.take?_mem taken), fun other member equal => ?_⟩
      exact absent (List.mem_map.mpr ⟨other, member, equal⟩)
    · rw [if_neg same] at found
      obtain ⟨earlier, others⟩ := inv.finished uid pick found
      exact ⟨earlier, fun other member => others other (Pool.take?_left taken member)⟩
  · intro uid pick found
    have found := (last uid).symm.trans found
    by_cases same : uid = upload.uid
    · rw [if_pos same] at found
      cases found
      rw [same]
      exact ⟨url, avatarURL_updateData_same document, given.record_written⟩
    · rw [if_neg same] at found
      obtain ⟨url', shown, other⟩ := inv.document uid pick found
      exact ⟨url', (avatarURL_updateData_other same).trans shown, other.record_written⟩
  · intro entry member
    have goal := congrArg Option.isSome (last entry.1)
    by_cases same : entry.1 = upload.uid
    · rw [if_pos same] at goal
      exact Or.inr goal
    · rw [if_neg same] at goal
      refine (inv.complete entry member).imp ?_ goal.trans
      rintro ⟨other, listed, equal⟩
      refine ⟨other, (Pool.take?_cases taken listed).resolve_left ?_, equal⟩
      rintro rfl
      exact same equal.symm

theorem step_inv {a : Action} (inv : Inv s) (succeeds : Succeeds s a)
    (step : machine.step s a = some next) : Inv next := by
  cases a with
  | signIn uid =>
    obtain rfl := Option.some.inj step
    exact { inv with }
  | signOut =>
    obtain rfl := Option.some.inj step
    exact { inv with }
  | didFinishPicking imageData =>
    obtain rfl := Option.some.inj step
    exact inv_pick inv imageData
  | putData pick result =>
    obtain ⟨⟨upload, left⟩, taken, step⟩ := Option.bind_eq_some_iff.mp step
    obtain ⟨url, rfl⟩ := Option.isSome_iff_exists.mp succeeds
    dsimp only at step
    split at step
    · rename_i imageData url' stage same
      cases same
      obtain ⟨fresh, step⟩ := Option.ite_none_left_eq_some.mp step
      obtain rfl := Option.some.inj step
      exact inv_stored inv taken fresh
    · rename_i absent
      exact nomatch absent
    · exact nomatch step
  | downloadURL pick failed =>
    obtain ⟨⟨upload, left⟩, taken, step⟩ := Option.bind_eq_some_iff.mp step
    cases succeeds
    dsimp only at step
    split at step
    · rename_i stage
      have known := inv.asking upload (Pool.take?_mem taken) stage
      have object := inv.object upload.uid known
      obtain ⟨⟨imageData, url⟩, last⟩ := Option.isSome_iff_exists.mp known
      rw [last] at object
      rw [object] at step
      obtain rfl := Option.some.inj step
      exact inv_asked inv taken stage object
    · exact nomatch step
  | updateData pick failed =>
    obtain ⟨⟨upload, left⟩, taken, step⟩ := Option.bind_eq_some_iff.mp step
    obtain ⟨rfl, exists_⟩ := succeeds
    have document := exists_ upload (Pool.take?_find taken)
    dsimp only at step
    split at step
    · rename_i url stage
      obtain ⟨found, stored⟩ := Option.isSome_iff_exists.mp document
      rw [stored] at step
      obtain rfl := Option.some.inj step
      exact inv_written inv taken stage document
    · exact nomatch step

/-- For every run whose calls succeed and every user with no upload on its way: the object
stored is the photo picked last and the document has its URL, if and only if that photo
was stored last and the last write's URL was asked for after it. -/
theorem last_pick_wins_iff {users : Collection} {avatars : Uid → Option (Data × String)}
    {acts : List Action} (run : machine.run (.start users avatars) acts = some s)
    (within : machine.Along Succeeds (.start users avatars) acts)
    (last : lastPick s.picks uid = some imageData) (settled : ∀ upload ∈ s.uploads, upload.uid ≠ uid) :
    ShowsPhoto s uid imageData ↔ InOrder (s.log uid) imageData := by
  have inv := Transition.Machine.run_invariant_along step_inv run within (start_inv users avatars)
  obtain ⟨entry, listed, -⟩ := Option.map_eq_some_iff.mp last
  obtain ⟨member, same⟩ := List.mem_filter.mp (List.mem_of_getLast? listed)
  have same : entry.1 = uid := beq_iff_eq.mp same
  have finished : (lastWritten (s.log uid)).isSome := by
    rw [← same]
    refine (inv.complete entry member).resolve_left ?_
    rintro ⟨upload, waiting, own⟩
    exact settled upload waiting (own.trans same)
  obtain ⟨pick, written⟩ := Option.isSome_iff_exists.mp finished
  obtain ⟨url, shown, -, photo, current, stored, asked⟩ := inv.document uid pick written
  have object : s.avatars uid = some (photo, current) := by
    rw [inv.object uid (Option.isSome_of_eq_some stored), stored]
  simp only [ShowsPhoto, InOrder, object, shown, stored, written, Option.map_some, Option.some.injEq,
    Prod.mk.injEq, exists_eq_left', ← asked]
  constructor
  · rintro ⟨new, ⟨rfl, rfl⟩, rfl⟩
    exact ⟨rfl, rfl⟩
  · rintro ⟨rfl, rfl⟩
    exact ⟨_, ⟨rfl, rfl⟩, rfl⟩

/-- Ann's document, and no avatar stored. -/
def annOnly : Collection := fun uid => if uid = "u" then some (newDocument "Ann" "Lee" "u") else none

/-- Two photos, the second picked once the first is through. -/
def oneByOne : List Action :=
  [.signIn "u", .didFinishPicking (some "first"), .putData 0 (some "url0"), .downloadURL 0 false,
    .updateData 0 false, .didFinishPicking (some "second"), .putData 1 (some "url1"),
    .downloadURL 1 false, .updateData 1 false]

theorem last_pick_wins_one_by_one : ∃ s,
    machine.run (.start annOnly fun _ => none) oneByOne = some s ∧ ShowsPhoto s "u" "second" := by
  obtain ⟨s, run, last, settled, order⟩ : ∃ s,
      machine.run (.start annOnly fun _ => none) oneByOne = some s ∧
      lastPick s.picks "u" = some "second" ∧ s.uploads = [] ∧ InOrder (s.log "u") "second" :=
    ⟨_, rfl, rfl, rfl, rfl, 1, rfl, rfl⟩
  have within : machine.Along Succeeds (.start annOnly fun _ => none) oneByOne := by
    refine ⟨trivial, trivial, rfl, rfl, ⟨rfl, ?_⟩, trivial, rfl, rfl, ⟨rfl, ?_⟩, trivial⟩
    · rintro _ ⟨⟩
      rfl
    · rintro _ ⟨⟩
      rfl
  refine ⟨s, run, (last_pick_wins_iff run within last ?_).mpr order⟩
  rw [settled]
  exact List.forall_mem_nil _

/-- The second photo is stored first, and its URL written last. -/
def crossing : List Action :=
  [.signIn "u", .didFinishPicking (some "first"), .didFinishPicking (some "second"),
    .putData 1 (some "url1"), .downloadURL 1 false, .putData 0 (some "url0"), .downloadURL 0 false,
    .updateData 0 false, .updateData 1 false]

/-- The first photo is in place of the second, and the document points at neither. -/
theorem earlier_photo_left : ∃ s,
    machine.run (.start annOnly fun _ => none) crossing = some s ∧
    machine.Along Succeeds (.start annOnly fun _ => none) crossing ∧ s.uploads = [] ∧
    lastPick s.picks "u" = some "second" ∧ s.avatars "u" = some ("first", "url0") ∧
    avatarURL s.users "u" = some "url1" ∧ ¬ ShowsPhoto s "u" "second" := by
  refine ⟨_, rfl, ⟨trivial, trivial, trivial, rfl, rfl, rfl, rfl, ⟨rfl, ?_⟩, ⟨rfl, ?_⟩, trivial⟩,
    rfl, rfl, rfl, rfl, ?_⟩
  · rintro _ ⟨⟩
    rfl
  · rintro _ ⟨⟩
    rfl
  · rintro ⟨url, object, -⟩
    have object : some ("first", "url0") = some ("second", url) := object
    have photo : "first" = "second" := congrArg Prod.fst (Option.some.inj object)
    exact absurd photo (by decide)

end MoviesApp.AvatarUpload
