import MoviesApp.Pool
import MoviesApp.URL

/-! Pictures downloaded into an image view. A download holds the view and nothing else:
it is not cancelled by a later one, and a link without a URL starts none. -/
namespace MoviesApp

inductive Placeholder where
  | blank
  | named (name : String)
  | systemNamed (name : String)
  deriving DecidableEq

/-- What the view displays; a downloaded picture goes by its URL. -/
inductive Picture where
  | placeholder (picture : Placeholder)
  | downloaded (url : URL)
  deriving DecidableEq

def Picture.IsPlaceholder (image : Picture) : Prop := ∃ picture, image = .placeholder picture

instance : (image : Picture) → Decidable image.IsPlaceholder
  | .placeholder picture => .isTrue ⟨picture, rfl⟩
  | .downloaded _ => .isFalse fun ⟨_, shown⟩ => nomatch shown

/-- How a data task ends. There is a status if the response is an HTTP one, and a
picture if `UIImage(data:)` makes one of the data. -/
structure ImageResponse where
  statusCode : Option Int
  mimeType : Option String
  hasImage : Bool
  error : Option String

/-- The guard of the task's handler. -/
def ImageResponse.accepted (response : ImageResponse) : Bool :=
  response.statusCode == some 200 &&
    response.mimeType.any (fun mimeType => "image".toList.isPrefixOf mimeType.toList) &&
    response.error.isNone && response.hasImage

/-- A response that brings a picture. -/
def ImageResponse.jpeg : ImageResponse := ⟨some 200, some "image/jpeg", true, none⟩

/-- A download is named by the position of its call. -/
structure Download where
  serial : Nat
  url : URL
  deriving DecidableEq

/-- The picture, the links asked for so far, the tasks in flight, the blocks waiting on
the main queue, and the downloads that were put into place. -/
structure ImageView where
  image : Picture
  requested : List (Option URL)
  tasks : List Download
  mainQueue : List Download
  arrived : List Download

namespace ImageView

def start (picture : Placeholder) : ImageView := ⟨.placeholder picture, [], [], [], []⟩

/-- The URL that `downloaded(from link:)` builds. -/
def posterURL (link : Option String) : Option URL :=
  link.bind fun link => URL.ofString? ("https://image.tmdb.org/t/p/w500" ++ link)

/-- The URL that `downloadedFromFirebase(from link:)` builds. -/
def firebaseURL (link : Option String) : Option URL := link.bind URL.ofString?

/-- What both do with it: a URL starts a data task, nil starts none. -/
def request (view : ImageView) (url : Option URL) : ImageView :=
  { view with
    requested := view.requested ++ [url]
    tasks := view.tasks ++ (url.map fun url => ⟨view.requested.length, url⟩).toList }

def downloaded (view : ImageView) (link : Option String) : ImageView :=
  view.request (posterURL link)

def downloadedFromFirebase (view : ImageView) (link : Option String) : ImageView :=
  view.request (firebaseURL link)

/-- A task ends; if its response passes the guard, a block is dispatched to the main queue. -/
def respond (view : ImageView) (serial : Nat) (response : ImageResponse) : Option ImageView :=
  (Pool.take? (·.serial == serial) view.tasks).map fun (download, tasks) =>
    if response.accepted then
      { view with tasks := tasks, mainQueue := view.mainQueue ++ [download] }
    else { view with tasks := tasks }

def deliver (view : ImageView) (serial : Nat) : Option ImageView :=
  (Pool.take? (·.serial == serial) view.mainQueue).map fun (download, mainQueue) =>
    { view with
      image := .downloaded download.url
      mainQueue := mainQueue
      arrived := view.arrived ++ [download] }

/-- The downloads under way. -/
def outstanding (view : ImageView) : List Download := view.tasks ++ view.mainQueue

/-- The download belongs to the latest link. -/
def Latest (view : ImageView) (download : Download) : Prop :=
  download.serial + 1 = view.requested.length

instance (view : ImageView) (download : Download) : Decidable (view.Latest download) :=
  inferInstanceAs (Decidable (_ = _))

/-- Every download that has not failed is the one its link started. -/
structure Numbered (view : ImageView) : Prop where
  unique : ((view.outstanding ++ view.arrived).map Download.serial).Nodup
  requested : ∀ download ∈ view.outstanding ++ view.arrived,
    view.requested[download.serial]? = some (some download.url)

/-- The latest link's picture is there from its arrival on, and a placeholder where that
link has no download that arrived or still may. -/
structure ShowsLatest (view : ImageView) : Prop where
  loaded : ∀ download ∈ view.arrived, view.Latest download → view.image = .downloaded download.url
  unloaded : (∀ download ∈ view.outstanding ++ view.arrived, ¬ view.Latest download) →
    view.image.IsPlaceholder

/-- A failing response leaves no other picture behind under the latest link. -/
def FailsPlain (view : ImageView) (serial : Nat) (response : ImageResponse) : Prop :=
  response.accepted = false → serial + 1 = view.requested.length → view.image.IsPlaceholder

/-- What is put into place belongs to the latest link, comes before the latest link's own
download, or comes from the same URL. -/
def InOrder (view : ImageView) (serial : Nat) : Prop :=
  serial + 1 = view.requested.length ∨ (∃ download ∈ view.outstanding, view.Latest download) ∨
    ∃ download ∈ view.arrived, view.Latest download ∧
      ∀ late ∈ view.mainQueue.find? (·.serial == serial), late.url = download.url

instance (view : ImageView) (serial : Nat) (response : ImageResponse) :
    Decidable (view.FailsPlain serial response) :=
  inferInstanceAs (Decidable (_ → _ → _))

instance (view : ImageView) (serial : Nat) : Decidable (view.InOrder serial) :=
  inferInstanceAs (Decidable (_ ∨ _ ∨ _))

variable {view next : ImageView} {serial : Nat} {response : ImageResponse}

theorem respond_cases (stepped : view.respond serial response = some next) :
    ∃ download tasks, Pool.take? (·.serial == serial) view.tasks = some (download, tasks) ∧
      ((response.accepted = true ∧
        next = { view with tasks := tasks, mainQueue := view.mainQueue ++ [download] }) ∨
      (response.accepted = false ∧ next = { view with tasks := tasks })) := by
  obtain ⟨⟨download, tasks⟩, taken, result⟩ := Option.map_eq_some_iff.mp stepped
  refine ⟨download, tasks, taken, ?_⟩
  cases accepted : response.accepted with
  | true => exact Or.inl ⟨rfl, by simpa only [accepted, if_true] using result.symm⟩
  | false =>
    exact Or.inr ⟨rfl, by simpa only [accepted, Bool.false_eq_true, if_false] using result.symm⟩

theorem deliver_cases (stepped : view.deliver serial = some next) :
    ∃ download mainQueue,
      Pool.take? (·.serial == serial) view.mainQueue = some (download, mainQueue) ∧
      next = ⟨.downloaded download.url, view.requested, view.tasks, mainQueue,
        view.arrived ++ [download]⟩ := by
  obtain ⟨⟨download, mainQueue⟩, taken, result⟩ := Option.map_eq_some_iff.mp stepped
  exact ⟨download, mainQueue, taken, result.symm⟩

theorem respond_requested (stepped : view.respond serial response = some next) :
    next.requested = view.requested ∧ next.image = view.image ∧ next.arrived = view.arrived := by
  obtain ⟨_, _, _, ⟨_, rfl⟩ | ⟨_, rfl⟩⟩ := respond_cases stepped
  · exact ⟨rfl, rfl, rfl⟩
  · exact ⟨rfl, rfl, rfl⟩

/-- A response passes its download on, or drops it. -/
theorem respond_downloads (stepped : view.respond serial response = some next) :
    ∃ download, download.serial = serial ∧
      ((response.accepted = true ∧ next.outstanding.Perm view.outstanding) ∨
      (response.accepted = false ∧ view.outstanding.Perm (download :: next.outstanding))) := by
  obtain ⟨download, tasks, taken, result⟩ := respond_cases stepped
  have perm := (Pool.take?_perm taken).append_right view.mainQueue
  refine ⟨download, Pool.take?_key taken, ?_⟩
  rcases result with ⟨accepted, rfl⟩ | ⟨rejected, rfl⟩
  · refine Or.inl ⟨accepted, ?_⟩
    unfold outstanding
    rw [← List.append_assoc]
    exact (List.perm_append_singleton _ _).trans perm.symm
  · exact Or.inr ⟨rejected, perm⟩

theorem deliver_downloads (stepped : view.deliver serial = some next) :
    (next.outstanding ++ next.arrived).Perm (view.outstanding ++ view.arrived) := by
  obtain ⟨download, mainQueue, taken, rfl⟩ := deliver_cases stepped
  have perm := ((Pool.take?_perm taken).append_left view.tasks).append_right view.arrived
  refine List.Perm.trans ?_ perm.symm
  simp only [outstanding, List.append_assoc, List.cons_append]
  refine List.Perm.append_left _ ?_
  rw [← List.append_assoc]
  exact List.perm_append_singleton _ _

theorem request_downloads (view : ImageView) (url : Option URL) :
    ((view.request url).outstanding ++ (view.request url).arrived).Perm
      ((url.map fun url => (⟨view.requested.length, url⟩ : Download)).toList ++
        (view.outstanding ++ view.arrived)) := by
  simp only [request, outstanding, List.append_assoc]
  exact List.perm_append_comm_assoc _ _ _

theorem start_numbered (picture : Placeholder) : Numbered (start picture) :=
  ⟨List.nodup_nil, fun _ member => nomatch member⟩

theorem start_shows (picture : Placeholder) : ShowsLatest (start picture) :=
  ⟨fun _ member => (nomatch member), fun _ => ⟨picture, rfl⟩⟩

theorem Numbered.earlier (numbered : Numbered view) {download : Download}
    (member : download ∈ view.outstanding ++ view.arrived) :
    download.serial < view.requested.length :=
  (List.getElem?_eq_some_iff.mp (numbered.requested download member)).1

theorem Numbered.set (numbered : Numbered view) (image : Picture) :
    Numbered { view with image := image } := ⟨numbered.unique, numbered.requested⟩

/-- Downloads that remain stay numbered. -/
theorem Numbered.of_perm (numbered : Numbered view) (dropped : List Download)
    (requested : next.requested = view.requested)
    (perm : (view.outstanding ++ view.arrived).Perm (dropped ++ (next.outstanding ++ next.arrived))) :
    Numbered next := by
  constructor
  · have nodup := (perm.map Download.serial).nodup_iff.mp numbered.unique
    rw [List.map_append] at nodup
    exact nodup.of_append_right
  · intro download member
    rw [requested]
    exact numbered.requested download (perm.mem_iff.mpr (List.mem_append_right _ member))

theorem request_numbered (numbered : Numbered view) (url : Option URL) :
    Numbered (view.request url) := by
  have perm := request_downloads view url
  cases url with
  | none =>
    refine ⟨(perm.map Download.serial).nodup_iff.mpr numbered.unique, ?_⟩
    intro download member
    have earlier := perm.mem_iff.mp member
    exact (List.getElem?_append_left (numbered.earlier earlier)).trans
      (numbered.requested download earlier)
  | some url =>
    constructor
    · refine (perm.map Download.serial).nodup_iff.mpr (List.nodup_cons.mpr ⟨?_, numbered.unique⟩)
      intro member
      obtain ⟨earlier, found, serial⟩ := List.mem_map.mp member
      exact absurd serial (Nat.ne_of_lt (numbered.earlier found))
    · intro download member
      rcases List.mem_cons.mp (perm.mem_iff.mp member) with rfl | earlier
      · exact List.getElem?_concat_length
      · exact (List.getElem?_append_left (numbered.earlier earlier)).trans
          (numbered.requested download earlier)

theorem respond_numbered (numbered : Numbered view)
    (stepped : view.respond serial response = some next) : Numbered next := by
  obtain ⟨requested, -, arrived⟩ := respond_requested stepped
  obtain ⟨download, -, ⟨-, perm⟩ | ⟨-, perm⟩⟩ := respond_downloads stepped
  · apply numbered.of_perm [] requested
    rw [arrived]
    exact (perm.append_right view.arrived).symm
  · apply numbered.of_perm [download] requested
    rw [arrived]
    exact perm.append_right view.arrived

theorem deliver_numbered (numbered : Numbered view)
    (stepped : view.deliver serial = some next) : Numbered next := by
  have perm := deliver_downloads stepped
  obtain ⟨_, _, _, rfl⟩ := deliver_cases stepped
  exact numbered.of_perm [] rfl perm.symm

/-- With the next link the earlier downloads count no more. -/
theorem request_shows (numbered : Numbered view) {url : Option URL}
    (plain : url = none → view.image.IsPlaceholder) : ShowsLatest (view.request url) := by
  have newer : ∀ download ∈ view.outstanding ++ view.arrived,
      ¬ (view.request url).Latest download := by
    intro download member latest
    have earlier := numbered.earlier member
    simp only [Latest, request, List.length_append, List.length_singleton] at latest
    omega
  constructor
  · intro download member latest
    exact absurd latest (newer download (List.mem_append_right _ member))
  · intro unstarted
    cases url with
    | none => exact plain rfl
    | some url =>
      have started := (request_downloads view (some url)).mem_iff.mpr List.mem_cons_self
      have latest : view.requested.length + 1 = (view.requested ++ [some url]).length := by
        rw [List.length_append, List.length_singleton]
      exact absurd latest (unstarted _ started)

theorem respond_shows (shows : ShowsLatest view) (plain : FailsPlain view serial response)
    (stepped : view.respond serial response = some next) : ShowsLatest next := by
  obtain ⟨requested, image, arrived⟩ := respond_requested stepped
  constructor
  · rw [image, arrived]
    intro download member latest
    exact shows.loaded download member (latest.trans (congrArg List.length requested))
  · rw [image]
    intro unstarted
    obtain ⟨dropped, rfl, ⟨-, perm⟩ | ⟨rejected, perm⟩⟩ := respond_downloads stepped
    · apply shows.unloaded
      intro download member latest
      apply unstarted download
      · rw [arrived]
        exact (perm.append_right view.arrived).mem_iff.mpr member
      · exact latest.trans (congrArg List.length requested).symm
    · by_cases own : view.Latest dropped
      · exact plain rejected own
      · apply shows.unloaded
        intro download member latest
        rcases List.mem_cons.mp ((perm.append_right view.arrived).mem_iff.mp member) with
          rfl | remaining
        · exact own latest
        · rw [← arrived] at remaining
          exact unstarted download remaining (latest.trans (congrArg List.length requested).symm)

theorem Numbered.apart (numbered : Numbered view) {waiting there : Download}
    (outstanding : waiting ∈ view.outstanding) (arrived : there ∈ view.arrived) :
    waiting.serial ≠ there.serial := by
  have nodup := numbered.unique
  rw [List.map_append, List.nodup_append] at nodup
  exact nodup.2.2 _ (List.mem_map_of_mem outstanding) _ (List.mem_map_of_mem arrived)

/-- The latest link has one download. -/
theorem Numbered.same (numbered : Numbered view) {first second : Download}
    (firstMember : first ∈ view.outstanding ++ view.arrived) (firstLatest : view.Latest first)
    (secondMember : second ∈ view.outstanding ++ view.arrived) (secondLatest : view.Latest second) :
    first = second :=
  List.inj_on_of_nodup_map numbered.unique firstMember secondMember
    (Nat.succ.inj (firstLatest.trans secondLatest.symm))

theorem deliver_shows (numbered : Numbered view) (inOrder : InOrder view serial)
    (stepped : view.deliver serial = some next) : ShowsLatest next := by
  have perm := deliver_downloads stepped
  obtain ⟨late, mainQueue, taken, rfl⟩ := deliver_cases stepped
  obtain rfl := Pool.take?_key taken
  have queued : late ∈ view.outstanding := List.mem_append_right _ (Pool.take?_mem taken)
  constructor
  · intro download member latest
    rcases List.mem_append.mp member with earlier | last
    · rcases inOrder with own | ⟨waiting, outstanding, own⟩ | ⟨there, arrived, own, same⟩
      · exact absurd (Nat.succ.inj (own.trans latest.symm)) (numbered.apart queued earlier)
      · exact absurd (Nat.succ.inj (own.trans latest.symm)) (numbered.apart outstanding earlier)
      · obtain rfl := numbered.same (List.mem_append_right _ arrived) own
          (List.mem_append_right _ earlier) latest
        exact congrArg Picture.downloaded (same late (Pool.take?_find taken))
    · rw [List.mem_singleton.mp last]
  · intro unstarted
    have gone : ∀ download ∈ view.outstanding ++ view.arrived, ¬ view.Latest download :=
      fun download member => unstarted download (perm.mem_iff.mpr member)
    rcases inOrder with own | ⟨waiting, outstanding, own⟩ | ⟨there, arrived, own, -⟩
    · exact absurd own (gone late (List.mem_append_left _ queued))
    · exact absurd own (gone waiting (List.mem_append_left _ outstanding))
    · exact absurd own (gone there (List.mem_append_right _ arrived))

end ImageView
end MoviesApp
