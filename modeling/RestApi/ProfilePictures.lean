import RestApi.History

namespace RestApi.ProfilePictures
open Pool Program RowStore

def picturing : Request → Bool
  | .updateUser _ _ _ _ _ => true
  | .changeProfilePicture _ _ _ => true
  | .deleteProfilePicture _ _ => true
  | _ => false

-- The object a user row refers to.
def picture : Row → Option String
  | .user row => row.user.profilePicture.map UserService.buildImagePath
  | _ => none

def references (rows : List Row) : List String := rows.filterMap picture

-- Whose picture a request replaces.
def subject : Request → Option UUID
  | .changeProfilePicture _ userID _ => some userID
  | .deleteProfilePicture _ userID => some userID
  | _ => none

-- The new image of a request, and the one its commit has replaced.
def Uploads (v : View) (path : String) : Prop :=
  ∃ ctx userID ext id, v.request = some (.changeProfilePicture ctx userID ext) ∧
    .uuid id ∈ v.events ∧ path = UserService.buildImagePath (id ++ ext)

def Replaces (v : View) (path : String) : Prop :=
  ∃ request userID prev, v.request = some request ∧ subject request = some userID ∧
    Replaced v userID prev ∧ picture (.user ⟨prev,none⟩) = some path

def imageName (request : Option Request) (id : UUID) : Option String := match request with
  | some (.changeProfilePicture _ _ ext) => some (id ++ ext)
  | _ => none

def uploads (w : World) : List String := w.journal.filterMap fun noted => match noted.2 with
  | .uuid id => (imageName (w.requests noted.1) id).map UserService.buildImagePath
  | _ => none

-- A name that nothing and nobody has used.
def freshName (w : World) (pid : Pid) (id : UUID) : Prop :=
  ∀ name ∈ (imageName (w.requests pid) id).toList,
    name ≠ "" ∧ UserService.buildImagePath name ∉ w.objects ++ w.deletions ++
      references w.committed ++ uploads w

instance (w : World) (pid : Pid) (id : UUID) : Decidable (freshName w pid id) :=
  inferInstanceAs (Decidable (∀ name ∈ (imageName (w.requests pid) id).toList, _))

def drawnBy : Choice → Option UUID
  | .value id => some id
  | _ => none

-- No request dies, and a commit that fails is rolled back.
def handled : Api → Act Request Choice Surroundings → Prop
  | _,.spawn _ request => picturing request = true
  | s,.step pid choice => choice ≠ .lost ∧ ∀ id ∈ (drawnBy choice).toList, freshName s.shared pid id
  | _,.kill _ => False
  | _,.env _ => True

instance : ∀ s act, Decidable (handled s act)
  | _,.spawn _ _ => inferInstanceAs (Decidable (_ = true))
  | s,.step pid choice =>
      inferInstanceAs (Decidable (choice ≠ .lost ∧ ∀ id ∈ (drawnBy choice).toList,
        freshName s.shared pid id))
  | _,.kill _ => inferInstanceAs (Decidable False)
  | _,.env _ => inferInstanceAs (Decidable True)

-- The service with its bucket, and deletions that were issued before.
def gallery (base : List Row) (serial : Nat) (uuids : List UUID) (now : Time)
    (objects deletions : List String) : Api :=
  .start {World.start base serial uuids now with objects := objects,deletions := deletions}

def Working (s : Api) (pid : Pid) : Prop := ∃ c next, s.threads pid = some (.call c next)

-- Every picture a row names is stored, and every stored object is named by a row,
-- in the hands of a request in progress or about to be deleted.
structure Intact (s : Api) : Prop where
  present : ∀ path ∈ references s.shared.committed, path ∈ s.shared.objects
  accounted : ∀ path ∈ s.shared.objects, path ∈ references s.shared.committed ∨
    path ∈ s.shared.deletions ∨ ∃ pid, Working s pid ∧
    (Uploads (s.shared.view pid) path ∨ Replaces (s.shared.view pid) path)

-- No two rows name the same picture.
def Single (rows : List Row) : Prop :=
  ∀ a b path, .user a ∈ rows → .user b ∈ rows → picture (.user a) = some path →
    picture (.user b) = some path → a.user.id = b.user.id

theorem mem_references {rows : List Row} :
    path ∈ references rows ↔ ∃ row, .user row ∈ rows ∧ picture (.user row) = some path := by
  rw [references,List.mem_filterMap]
  constructor
  · rintro ⟨row,member,named⟩
    cases row with
    | user row => exact ⟨row,member,named⟩
    | _ => cases named
  · rintro ⟨row,member,named⟩
    exact ⟨_,member,named⟩

theorem mem_uploads {w : World} (uploading : Uploads (w.view pid) path) : path ∈ uploads w := by
  obtain ⟨ctx,userID,ext,id,asked,drawn,rfl⟩ := uploading
  have asked : w.requests pid = some (.changeProfilePicture ctx userID ext) := asked
  exact List.mem_filterMap.mpr ⟨(pid,.uuid id),mem_own.mp drawn,by simp [imageName,asked]⟩

section Commits
variable {cfg : Config} {request : Request} {t : Tx Row Key} {events : List Event}

-- One row gets another picture or keeps its own, every other row stays.
structure Swap (rows next : List Row) (prev usr : User) : Prop where
  same : usr.id = prev.id
  held : .user ⟨prev,none⟩ ∈ rows
  gives : ∀ row, .user row ∈ next ↔ row = ⟨usr,none⟩ ∨ .user row ∈ rows ∧ row.user.id ≠ prev.id

theorem swap_written {rows : List Row} {prev usr : User} {entry : AuditEntry}
    (held : .user ⟨prev,none⟩ ∈ rows) (writes : t.writes = [.audit entry,.user ⟨usr,none⟩])
    (same : usr.id = prev.id) : Swap rows (schema.overlay rows t.writes) prev usr := by
  refine ⟨same,held,fun row => ?_⟩
  rw [Schema.mem_overlay,writes]
  simp [Schema.keys,schema,Row.key,same]

theorem swap_unwritten {rows : List Row} {prev : User} (keyed : schema.Keyed rows)
    (held : .user ⟨prev,none⟩ ∈ rows) (writes : t.writes = []) :
    Swap rows (schema.overlay rows t.writes) prev prev := by
  refine ⟨rfl,held,fun row => ?_⟩
  rw [writes,Schema.overlay_nil]
  constructor
  · intro member
    by_cases same : row.user.id = prev.id
    · have equal := keyed _ member _ held (congrArg Key.user same)
      cases equal
      exact .inl rfl
    · exact .inr ⟨member,same⟩
  · rintro (rfl | ⟨member,_⟩)
    · exact held
    · exact member

-- What the three requests make of the picture of the row they have locked.
inductive Turns (events : List Event) (prev usr : User) : Request → Prop where
  | update (kept : usr.profilePicture = prev.profilePicture) :
      Turns events prev usr (.updateUser ctx userID name phone gender)
  | change (same : prev.id = userID) (drawn : .uuid made ∈ events)
      (stored : .stored (UserService.buildImagePath (made ++ ext)) ∈ events)
      (changed : usr.profilePicture = setNullable (made ++ ext)) :
      Turns events prev usr (.changeProfilePicture ctx userID ext)
  | delete (same : prev.id = userID) (cleared : usr.profilePicture = none) :
      Turns events prev usr (.deleteProfilePicture ctx userID)

theorem commits_swap {rows : List Row} (keyed : schema.Keyed rows)
    (current : ∀ row ∈ t.seen, row ∈ rows) (kind : picturing request = true)
    (commits : Commits cfg request t events) :
    ∃ prev usr, Swap rows (schema.overlay rows t.writes) prev usr ∧ .user ⟨prev,none⟩ ∈ t.seen ∧
      Turns events prev usr request := by
  cases commits with
  | updateUser _ live same changed _ _ writes =>
      subst changed
      exact ⟨_,_,swap_written (current _ live) writes rfl,live,.update rfl⟩
  | changeProfilePicture _ live same drawn stored changed _ writes =>
      subst changed
      exact ⟨_,_,swap_written (current _ live) writes rfl,live,.change same drawn stored rfl⟩
  | keepNoPicture _ live same blank writes =>
      exact ⟨_,_,swap_unwritten keyed (current _ live) writes,live,.delete same blank⟩
  | deleteProfilePicture _ live same _ changed _ writes =>
      subst changed
      exact ⟨_,_,swap_written (current _ live) writes rfl,live,.delete same rfl⟩
  | _ => cases kind

variable {v : View} {prev usr : User}

-- The picture of the rewritten row is the old one or the upload.
theorem turns_named (turns : Turns v.events prev usr request) (asked : v.request = some request)
    (named : picture (.user ⟨usr,none⟩) = some path) :
    subject request = none ∧ picture (.user ⟨prev,none⟩) = some path ∨ Uploads v path ∧
      .stored path ∈ v.events := by
  cases turns with
  | update kept => exact .inl ⟨rfl,by rw [← named,picture,picture,kept]⟩
  | change same drawn stored changed =>
      simp only [picture,changed,setNullable] at named
      split at named
      · cases named
      · cases named
        exact .inr ⟨⟨_,_,_,_,asked,drawn,rfl⟩,stored⟩
  | delete same cleared => simp [picture,cleared] at named

-- The one upload of a request is what its commit names.
theorem turns_uploaded (turns : Turns v.events prev usr request) (asked : v.request = some request)
    (once : ∀ a b, .uuid a ∈ v.events → .uuid b ∈ v.events → a = b) (uploading : Uploads v path)
    (named : path ≠ UserService.buildImagePath "") : picture (.user ⟨usr,none⟩) = some path := by
  obtain ⟨ctx,userID,ext,id,wanted,drawn,rfl⟩ := uploading
  cases asked.symm.trans wanted
  cases turns with
  | change same also stored changed =>
      cases once _ _ drawn also
      have filled : id ++ ext ≠ "" := fun empty => named (by rw [empty])
      simp [picture,changed,setNullable,filled]

theorem turns_subject (turns : Turns events prev usr request)
    (own : subject request = some userID) : prev.id = userID := by
  cases turns with
  | update => cases own
  | change same => cases own; exact same
  | delete same => cases own; exact same

end Commits

section References
variable {rows next : List Row} {prev usr : User}

theorem swap_references (swap : Swap rows next prev usr) :
    path ∈ references next ↔ picture (.user ⟨usr,none⟩) = some path ∨
    ∃ row, .user row ∈ rows ∧ row.user.id ≠ prev.id ∧ picture (.user row) = some path := by
  rw [mem_references]
  constructor
  · rintro ⟨row,member,named⟩
    rcases (swap.gives row).mp member with rfl | ⟨old,different⟩
    · exact .inl named
    · exact .inr ⟨row,old,different,named⟩
  · rintro (named | ⟨row,old,different,named⟩)
    · exact ⟨_,(swap.gives _).mpr (.inl rfl),named⟩
    · exact ⟨row,(swap.gives row).mpr (.inr ⟨old,different⟩),named⟩

-- A reference that is gone was the one of the rewritten row.
theorem swap_lost (swap : Swap rows next prev usr) (keyed : schema.Keyed rows)
    (before : path ∈ references rows) :
    path ∈ references next ∨ picture (.user ⟨prev,none⟩) = some path := by
  obtain ⟨row,member,named⟩ := mem_references.mp before
  by_cases same : row.user.id = prev.id
  · have equal := keyed _ member _ swap.held (congrArg Key.user same)
    cases equal
    exact .inr named
  · exact .inl ((swap_references swap).mpr (.inr ⟨row,member,same,named⟩))

theorem swap_single (swap : Swap rows next prev usr) (single : Single rows)
    (new : ∀ path, picture (.user ⟨usr,none⟩) = some path →
      picture (.user ⟨prev,none⟩) = some path ∨ path ∉ references rows) : Single next := by
  have apart {row path} (old : .user row ∈ rows) (named : picture (.user row) = some path)
      (also : picture (.user ⟨usr,none⟩) = some path) : row.user.id = usr.id := by
    rcases new path also with mine | unused
    · exact (single row _ path old swap.held named mine).trans swap.same.symm
    · exact absurd (mem_references.mpr ⟨row,old,named⟩) unused
  intro a b path first second namesA namesB
  rcases (swap.gives a).mp first with rfl | ⟨oldA,_⟩
  · rcases (swap.gives b).mp second with rfl | ⟨oldB,_⟩
    · rfl
    · exact (apart oldB namesB namesA).symm
  · rcases (swap.gives b).mp second with rfl | ⟨oldB,_⟩
    · exact apart oldA namesA namesB
    · exact single a b path oldA oldB namesA namesB

end References

section Steps

-- The events that matter to pictures.
def pictorial : Event → Bool
  | .uuid _ => true
  | .stored _ => true
  | .discarded _ => true
  | .unconfirmed => true
  | _ => false

-- What one command can do to pictures.
inductive Touches (w : World) (pid : Pid) : Choice → Cmd → World → Prop where
  | drew : Touches w pid (.value drawn) .newUUID
      ({w with uuids := drawn :: w.uuids}.note pid (.uuid drawn))
  | stored : Touches w pid .runs (.put path)
      ({w with objects := path :: w.objects}.note pid (.stored path))
  | discarded : Touches w pid .runs (.asyncDelete path)
      ({w with deletions := path :: w.deletions}.note pid (.discarded path))
  | committed (ran : w.db.commit pid = some db) :
      Touches w pid .runs .commit ({w with db := db}.note pid .committed)
  | quiet (objects : after.objects = w.objects) (deletions : after.deletions = w.deletions)
      (base : after.db.base = w.db.base) (log : after.db.log = w.db.log)
      (noted : ∀ q event, pictorial event = true → (q,event) ∈ after.journal →
        (q,event) ∈ w.journal) : Touches w pid choice c after

variable {cfg : Config} {w after : World} {pid : Pid}

theorem exec_touches {c : Cmd} {reply : Option (Reply c)}
    (ran : exec cfg w pid c choice = some (after,reply)) (confirmed : choice ≠ .lost) :
    Touches w pid choice c after := by
  have done := exec_executed ran
  cases c with
  | newUUID =>
      cases choice <;> simp only [exec,reduceCtorEq,Option.ite_none_left_eq_some,Option.some.injEq,
        Prod.mk.injEq] at ran
      · obtain ⟨rfl,_⟩ := ran
        exact .quiet rfl rfl rfl rfl fun _ _ _ noted => noted
      · obtain ⟨_,rfl,_⟩ := ran
        exact .drew
  | put path =>
      cases choice <;> cases ran
      · exact .stored
      · exact .quiet rfl rfl rfl rfl fun _ _ _ noted => noted
  | asyncDelete path => cases choice <;> cases ran; exact .discarded
  | commit =>
      cases choice <;> simp only [exec,reduceCtorEq,Option.map_eq_some_iff,Option.some.injEq,
        Prod.mk.injEq] at ran
      · obtain ⟨db,committed,rfl,_⟩ := ran
        exact .committed committed
      · exact absurd rfl confirmed
      · obtain ⟨rfl,_⟩ := ran
        exact .quiet rfl rfl rfl rfl fun _ _ _ noted => noted
  | _ =>
      have objects := (executed_objects done).resolve_right (by rintro ⟨_,⟨⟩,_⟩)
      have deletions := (executed_deletions done).resolve_right (by rintro ⟨_,⟨⟩,_⟩)
      have log := (executed_log done).resolve_right (by rintro ⟨⟨⟩,_⟩)
      refine .quiet objects deletions (executed_grows done).base log fun q event matters noted => ?_
      rcases executed_noted done noted with old | ⟨_,notes⟩
      · exact old
      · cases notes <;> cases matters

theorem uploads_iff {v after : View} (request : after.request = v.request)
    (drawn : ∀ id, .uuid id ∈ after.events ↔ .uuid id ∈ v.events) :
    Uploads after path ↔ Uploads v path := by
  simp only [Uploads,request,drawn]

theorem replaces_iff {v after : View} (request : after.request = v.request)
    (made : after.made = v.made) : Replaces after path ↔ Replaces v path := by
  simp only [Replaces,Replaced,request,made]

theorem stores_own {v : View} (asked : v.request = some request) (owed : Stores request v path) :
    Uploads v path ∧ v.made = none := by
  cases request with
  | changeProfilePicture ctx userID ext =>
      obtain ⟨uncommitted,id,drawn,same⟩ := owed
      exact ⟨⟨ctx,userID,ext,id,asked,drawn,same⟩,uncommitted⟩
  | _ => exact owed.elim

theorem discards_own {v : View} (asked : v.request = some request)
    (owed : Discards request v path) :
    Replaces v path ∨ Uploads v path ∧ (v.made = none ∨ .unconfirmed ∈ v.events) := by
  cases request with
  | changeProfilePicture ctx userID ext =>
      rcases owed with ⟨prev,image,replaced,filled,rfl⟩ | ⟨unsettled,id,drawn,same⟩
      · exact .inl ⟨_,userID,prev,asked,rfl,replaced,by simp [picture,filled]⟩
      · exact .inr ⟨⟨ctx,userID,ext,id,asked,drawn,same⟩,unsettled⟩
  | deleteProfilePicture ctx userID =>
      obtain ⟨prev,image,replaced,filled,rfl⟩ := owed
      exact .inl ⟨_,userID,prev,asked,rfl,replaced,by simp [picture,filled]⟩
  | _ => exact owed.elim

theorem noted_events (journal : after.journal = (pid,event) :: w.journal) :
    other ∈ (after.view q).events ↔ q = pid ∧ other = event ∨ other ∈ (w.view q).events := by
  simp [World.view,mem_own,journal]

end Steps

-- No upload is ever named twice; an image that a row names, or that a request may
-- still commit, is not up for deletion.
structure Kempt (w : World) : Prop where
  present : ∀ path ∈ references w.committed, path ∈ w.objects
  single : Single w.committed
  spared : ∀ path ∈ w.deletions, path ∉ references w.committed
  retired : ∀ path ∈ w.deletions, ∀ pid, Uploads (w.view pid) path → (w.view pid).made = none →
    ∃ gone, .discarded gone ∈ (w.view pid).events
  distinct : ∀ p q path, Uploads (w.view p) path → Uploads (w.view q) path → p = q
  unused : ∀ pid path, Uploads (w.view pid) path → (w.view pid).made = none →
    path ∉ references w.committed ∧ ∀ q, ¬Replaces (w.view q) path
  replaced : ∀ pid path, Replaces (w.view pid) path → path ∉ references w.committed ∧
    (path ∈ w.objects ∨ path ∈ w.deletions)
  stored : ∀ pid path, .stored path ∈ (w.view pid).events → path ∈ w.objects ∨ path ∈ w.deletions
  placed : ∀ pid path, path ∈ w.objects → Uploads (w.view pid) path →
    .stored path ∈ (w.view pid).events
  discarded : ∀ pid path, .discarded path ∈ (w.view pid).events → path ∈ w.deletions
  once : ∀ pid a b, .uuid a ∈ (w.view pid).events → .uuid b ∈ (w.view pid).events → a = b
  named : ∀ pid path, Uploads (w.view pid) path → path ≠ UserService.buildImagePath ""
  confirmed : ∀ pid, .unconfirmed ∉ (w.view pid).events

section Keeping
variable {cfg : Config} {w after : World} {pid : Pid}

-- Views that say the same about pictures.
structure Alike (v after : View) : Prop where
  uploads : ∀ path, Uploads after path ↔ Uploads v path
  replaces : ∀ path, Replaces after path ↔ Replaces v path
  made : after.made = v.made
  events : ∀ event, pictorial event = true → (event ∈ after.events ↔ event ∈ v.events)

theorem Alike.refl (v : View) : Alike v v := ⟨fun _ => .rfl,fun _ => .rfl,rfl,fun _ _ => .rfl⟩

theorem Kempt.alike (kempt : Kempt w) (rows : after.committed = w.committed)
    (objects : after.objects = w.objects) (deletions : after.deletions = w.deletions)
    (alike : ∀ pid, Alike (w.view pid) (after.view pid)) : Kempt after where
  present := by rw [rows,objects]; exact kempt.present
  single := by rw [rows]; exact kempt.single
  spared := by rw [rows,deletions]; exact kempt.spared
  retired := by
    intro path pending pid
    rw [(alike pid).uploads,(alike pid).made]
    simp only [fun gone => (alike pid).events (.discarded gone) rfl]
    exact kempt.retired path (deletions ▸ pending) pid
  distinct := by
    intro p q path
    rw [(alike p).uploads,(alike q).uploads]
    exact kempt.distinct p q path
  unused := by
    intro pid path
    rw [(alike pid).uploads,(alike pid).made,rows]
    simp only [(alike _).replaces]
    exact kempt.unused pid path
  replaced := by
    intro pid path
    rw [(alike pid).replaces,rows,objects,deletions]
    exact kempt.replaced pid path
  stored := by
    intro pid path
    rw [(alike pid).events _ rfl,objects,deletions]
    exact kempt.stored pid path
  placed := by
    intro pid path
    rw [(alike pid).uploads,(alike pid).events _ rfl,objects]
    exact kempt.placed pid path
  discarded := by
    intro pid path
    rw [(alike pid).events _ rfl,deletions]
    exact kempt.discarded pid path
  once := by
    intro pid a b
    rw [(alike pid).events _ rfl,(alike pid).events _ rfl]
    exact kempt.once pid a b
  named := by
    intro pid path
    rw [(alike pid).uploads]
    exact kempt.named pid path
  confirmed := by
    intro pid
    rw [(alike pid).events _ rfl]
    exact kempt.confirmed pid

-- One more event: a draw gives a new name, an upload goes under the goroutine's own
-- name, and what is discarded was replaced by the goroutine's own commit or is its
-- own upload that it will not commit any more.
theorem Kempt.noted (kempt : Kempt w) (journal : after.journal = (pid,event) :: w.journal)
    (requests : after.requests = w.requests) (db : after.db = w.db)
    (objects : ∀ path, path ∈ after.objects ↔ path ∈ w.objects ∨ event = .stored path)
    (deletions : ∀ path, path ∈ after.deletions ↔ path ∈ w.deletions ∨ event = .discarded path)
    (draws : ∀ id, event = .uuid id → freshName w pid id ∧ ∀ id, .uuid id ∉ (w.view pid).events)
    (stores : ∀ path, event = .stored path → Uploads (w.view pid) path)
    (discards : ∀ path, event = .discarded path → Replaces (w.view pid) path ∨
      Uploads (w.view pid) path ∧ (w.view pid).made = none)
    (confirmed : event ≠ .unconfirmed) : Kempt after := by
  have rows : after.committed = w.committed := by rw [World.committed,db,World.committed]
  have made : ∀ q, (after.view q).made = (w.view q).made :=
    fun q => by simp only [World.view,World.made,db]
  have asked : ∀ q, (after.view q).request = (w.view q).request :=
    fun q => by simp only [World.view,requests]
  have events : ∀ q other, other ∈ (after.view q).events ↔ q = pid ∧ other = event ∨
    other ∈ (w.view q).events := fun q other => noted_events journal
  have replaces : ∀ q path, Replaces (after.view q) path ↔ Replaces (w.view q) path :=
    fun q path => replaces_iff (asked q) (made q)
  have uploads : ∀ q path, Uploads (after.view q) path → Uploads (w.view q) path ∨ q = pid ∧
      (∃ id, event = .uuid id) ∧ path ≠ UserService.buildImagePath "" ∧
      path ∉ w.objects ++ w.deletions ++ references w.committed ++ uploads w := by
    rintro q path ⟨ctx,userID,ext,id,wanted,noted,rfl⟩
    rw [asked q] at wanted
    rcases (events q _).mp noted with ⟨rfl,rfl⟩ | old
    · have wanted : w.requests q = some (.changeProfilePicture ctx userID ext) := wanted
      have fresh := (draws id rfl).1 (id ++ ext) (by simp [imageName,wanted])
      exact .inr ⟨rfl,⟨id,rfl⟩,fun empty => fresh.1 ((String.append_right_inj _).mp empty),fresh.2⟩
    · exact .inl ⟨ctx,userID,ext,id,wanted,old,rfl⟩
  have larger : ∀ path, path ∈ w.objects ∨ path ∈ w.deletions → path ∈ after.objects ∨
    path ∈ after.deletions :=
    fun path there => there.imp (fun inside => (objects path).mpr (.inl inside)) fun pending =>
    (deletions path).mpr (.inl pending)
  refine ⟨?_,rows ▸ kempt.single,?_,?_,?_,?_,?_,?_,?_,?_,?_,?_,?_⟩
  · intro path there
    exact (objects path).mpr (.inl (kempt.present path (rows ▸ there)))
  · intro path pending
    rw [rows]
    rcases (deletions path).mp pending with old | same
    · exact kempt.spared path old
    · rcases discards path same with replaced | ⟨uploading,uncommitted⟩
      · exact (kempt.replaced pid path replaced).1
      · exact (kempt.unused pid path uploading uncommitted).1
  · intro path pending q uploading uncommitted
    rw [made q] at uncommitted
    rcases uploads q path uploading with known | ⟨_,⟨id,drew⟩,_,new⟩
    · rcases (deletions path).mp pending with old | same
      · obtain ⟨gone,noted⟩ := kempt.retired path old q known uncommitted
        exact ⟨gone,(events q _).mpr (.inr noted)⟩
      · rcases discards path same with replaced | ⟨own,_⟩
        · exact absurd replaced ((kempt.unused q path known uncommitted).2 pid)
        · exact ⟨path,(events q _).mpr (.inl ⟨kempt.distinct q pid path known own,same.symm⟩)⟩
    · rcases (deletions path).mp pending with old | same
      · exact absurd (by simp [old]) new
      · cases drew.symm.trans same
  · intro p q path one other
    rcases uploads p path one with old | ⟨rfl,_,_,new⟩
    · rcases uploads q path other with also | ⟨_,_,_,new⟩
      · exact kempt.distinct p q path old also
      · exact absurd (by simp [mem_uploads old]) new
    · rcases uploads q path other with also | ⟨rfl,_,_,_⟩
      · exact absurd (by simp [mem_uploads also]) new
      · rfl
  · intro q path uploading uncommitted
    simp only [rows,replaces]
    rcases uploads q path uploading with old | ⟨_,_,_,new⟩
    · exact kempt.unused q path old ((made q).symm.trans uncommitted)
    · refine ⟨fun there => new (by simp [there]),fun other there => ?_⟩
      rcases (kempt.replaced other path there).2 with inside | pending
      · exact new (by simp [inside])
      · exact new (by simp [pending])
  · intro q path there
    obtain ⟨unnamed,known⟩ := kempt.replaced q path ((replaces q path).mp there)
    exact ⟨rows ▸ unnamed,larger path known⟩
  · intro q path there
    rcases (events q _).mp there with ⟨_,same⟩ | old
    · exact .inl ((objects path).mpr (.inr same.symm))
    · exact larger path (kempt.stored q path old)
  · intro q path inside uploading
    rcases uploads q path uploading with known | ⟨_,⟨id,drew⟩,_,new⟩
    · rcases (objects path).mp inside with old | same
      · exact (events q _).mpr (.inr (kempt.placed q path old known))
      · exact (events q _).mpr (.inl ⟨kempt.distinct q pid path known (stores path same),same.symm⟩)
    · rcases (objects path).mp inside with old | same
      · exact absurd (by simp [old]) new
      · cases drew.symm.trans same
  · intro q path there
    rcases (events q _).mp there with ⟨_,same⟩ | old
    · exact (deletions path).mpr (.inr same.symm)
    · exact (deletions path).mpr (.inl (kempt.discarded q path old))
  · intro q a b one other
    rcases (events q _).mp one with ⟨rfl,same⟩ | old
    · rcases (events q _).mp other with ⟨_,also⟩ | old
      · cases same.trans also.symm
        rfl
      · exact absurd old ((draws a same.symm).2 b)
    · rcases (events q _).mp other with ⟨rfl,same⟩ | also
      · exact absurd old ((draws b same.symm).2 a)
      · exact kempt.once q a b old also
  · intro q path uploading
    rcases uploads q path uploading with old | ⟨_,_,filled,_⟩
    · exact kempt.named q path old
    · exact filled
  · intro q there
    rcases (events q _).mp there with ⟨_,same⟩ | old
    · exact confirmed same.symm
    · exact kempt.confirmed q old

-- A commit: the goroutine's first, of a row it has locked.
structure Swapped (w after : World) (pid : Pid) (request : Request) (prev usr : User) : Prop where
  asked : (w.view pid).request = some request
  uncommitted : (w.view pid).made = none
  undiscarded : ∀ path, .discarded path ∉ (w.view pid).events
  keyed : schema.Keyed w.committed
  swap : Swap w.committed after.committed prev usr
  turns : Turns (w.view pid).events prev usr request
  objects : after.objects = w.objects
  deletions : after.deletions = w.deletions
  made : (after.view pid).made ≠ none
  replaces : ∀ path, Replaces (after.view pid) path ↔ subject request ≠ none ∧
    picture (.user ⟨prev,none⟩) = some path
  events : ∀ q event, pictorial event = true →
    (event ∈ (after.view q).events ↔ event ∈ (w.view q).events)
  uploads : ∀ q path, Uploads (after.view q) path ↔ Uploads (w.view q) path
  others : ∀ q, q ≠ pid → after.view q = w.view q

theorem commit_swapped {db : Store Row Key} (valid : WorldValid w)
    (kinds : ∀ pid request, w.requests pid = some request → picturing request = true)
    (owed : duty cfg (w.view pid) .commit) (ran : w.db.commit pid = some db) :
    ∃ request prev usr, Swapped w ({w with db := db}.note pid .committed) pid request prev usr := by
  obtain ⟨request,asked,_,first,undiscarded,t,running,commits⟩ := owed
  have running : w.db.txs pid = some t := running
  have keyed := valid.db.chronicle.keyed
  have current := (valid.db.fits pid t running).current
  obtain ⟨prev,usr,swap,seen,turns⟩ := commits_swap keyed current (kinds pid request asked) commits
  have view := view_committed ran
  obtain ⟨t',running',_,rfl⟩ := commit_parts ran
  cases running.symm.trans running'
  have made : (w.view pid).committed.made = some t := running
  have uncommitted : (w.view pid).made = none := by
    refine Option.map_eq_none_iff.mpr (List.find?_eq_none.mpr fun entry member same => first ?_)
    have same : entry.owner = pid := by simpa using same
    exact mem_own.mpr (same ▸ valid.owners entry member)
  have events : ∀ q event, pictorial event = true →
    (event ∈ (World.view (.note {w with db := {w.db with
      log := ⟨pid,w.db.now,t⟩ :: w.db.log,
      txs := Function.update w.db.txs pid none}} pid .committed) q).events ↔
        event ∈ (w.view q).events) := by
    intro q event matters
    rw [noted_events rfl]
    constructor
    · rintro (⟨_,rfl⟩ | old)
      · cases matters
      · exact old
    · exact .inr
  refine ⟨request,prev,usr,asked,uncommitted,undiscarded,keyed,swap,turns,rfl,rfl,
    by rw [view,made]; nofun,fun path => ?_,events,fun q path => uploads_iff rfl fun id =>
    events q _ rfl,fun q different => executed_frame
    (show Executed cfg w pid .commit _ _ from .committed ran) different⟩
  rw [view]
  constructor
  · rintro ⟨request',userID,prev',asked',own,⟨t',same,seen',rfl⟩,named⟩
    cases asked.symm.trans asked'
    cases made.symm.trans same
    have equal := keyed _ (current _ seen') _ (current _ seen)
      (congrArg Key.user (turns_subject turns own).symm)
    cases equal
    exact ⟨by rw [own]; nofun,named⟩
  · rintro ⟨some,named⟩
    obtain ⟨userID,own⟩ := Option.ne_none_iff_exists'.mp some
    exact ⟨request,userID,prev,asked,own,⟨t,made,seen,turns_subject turns own⟩,named⟩

-- What a commit makes a row name was named before, or is the goroutine's upload,
-- stored and not up for deletion.
theorem Swapped.named (swapped : Swapped w after pid request prev usr) (kempt : Kempt w)
    (names : picture (.user ⟨usr,none⟩) = some path) :
    path ∈ references w.committed ∧ picture (.user ⟨prev,none⟩) = some path ∨
      Uploads (w.view pid) path ∧ path ∈ w.objects ∧ path ∉ w.deletions := by
  rcases turns_named swapped.turns swapped.asked names with ⟨_,mine⟩ | ⟨uploading,stored⟩
  · exact .inl ⟨mem_references.mpr ⟨_,swapped.swap.held,mine⟩,mine⟩
  · have kept : path ∉ w.deletions := by
      intro pending
      obtain ⟨gone,noted⟩ := kempt.retired path pending pid uploading swapped.uncommitted
      exact swapped.undiscarded gone noted
    exact .inr ⟨uploading,(kempt.stored pid path stored).resolve_right kept,kept⟩

theorem Swapped.uploaded (swapped : Swapped w after pid request prev usr) (kempt : Kempt w)
    (uploading : Uploads (w.view pid) path) : path ∈ references after.committed :=
  (swap_references swapped.swap).mpr (.inl
    (turns_uploaded swapped.turns swapped.asked (kempt.once pid) uploading
    (kempt.named pid path uploading)))

-- A name that a commit takes out of use is the one it has replaced.
theorem Swapped.lost (swapped : Swapped w after pid request prev usr)
    (before : path ∈ references w.committed) :
    path ∈ references after.committed ∨ Replaces (after.view pid) path := by
  rcases swap_lost swapped.swap swapped.keyed before with still | mine
  · exact .inl still
  · by_cases own : subject request = none
    · refine .inl ((swap_references swapped.swap).mpr (.inl ?_))
      have turns := swapped.turns
      cases turns with
      | update kept => rw [← mine,picture,picture,kept]
      | change => cases own
      | delete => cases own
    · exact .inr ((swapped.replaces path).mpr ⟨own,mine⟩)

theorem Kempt.swapped (kempt : Kempt w)
    (swapped : Swapped w after pid request prev usr) : Kempt after := by
  have now : ∀ path, path ∈ references after.committed → path ∈ references w.committed ∨
      Uploads (w.view pid) path ∧ path ∈ w.objects ∧ path ∉ w.deletions := by
    intro path there
    rcases (swap_references swapped.swap).mp there with names | ⟨row,old,_,names⟩
    · exact (swapped.named kempt names).imp_left And.left
    · exact .inl (mem_references.mpr ⟨row,old,names⟩)
  have different : ∀ q, (after.view q).made = none → q ≠ pid :=
    fun q uncommitted same => swapped.made (same ▸ uncommitted)
  have unused : ∀ q path, Uploads (w.view q) path → (w.view q).made = none → q ≠ pid →
      path ∉ references after.committed := by
    intro q path uploading uncommitted other there
    rcases now path there with before | ⟨also,_⟩
    · exact (kempt.unused q path uploading uncommitted).1 before
    · exact other (kempt.distinct q pid path uploading also)
  refine ⟨?_,?_,?_,?_,?_,?_,?_,?_,?_,?_,?_,?_,?_⟩
  · intro path there
    rw [swapped.objects]
    rcases now path there with before | ⟨_,inside,_⟩
    · exact kempt.present path before
    · exact inside
  · refine swap_single swapped.swap kempt.single fun path names => ?_
    rcases swapped.named kempt names with ⟨_,mine⟩ | ⟨uploading,_⟩
    · exact .inl mine
    · exact .inr (kempt.unused pid path uploading swapped.uncommitted).1
  · intro path pending there
    rw [swapped.deletions] at pending
    rcases now path there with before | ⟨_,_,kept⟩
    · exact kempt.spared path pending before
    · exact kept pending
  · intro path pending q uploading uncommitted
    have other := different q uncommitted
    rw [swapped.deletions] at pending
    rw [swapped.others q other] at uploading uncommitted ⊢
    exact kempt.retired path pending q uploading uncommitted
  · intro p q path one other
    exact kempt.distinct p q path ((swapped.uploads p path).mp one)
      ((swapped.uploads q path).mp other)
  · intro q path uploading uncommitted
    have other := different q uncommitted
    rw [swapped.others q other] at uploading uncommitted
    refine ⟨unused q path uploading uncommitted other,fun p there => ?_⟩
    by_cases same : p = pid
    · subst same
      obtain ⟨_,mine⟩ := (swapped.replaces path).mp there
      exact (kempt.unused q path uploading uncommitted).1
        (mem_references.mpr ⟨_,swapped.swap.held,mine⟩)
    · rw [swapped.others p same] at there
      exact (kempt.unused q path uploading uncommitted).2 p there
  · intro q path there
    rw [swapped.objects,swapped.deletions]
    by_cases same : q = pid
    · subst same
      obtain ⟨own,mine⟩ := (swapped.replaces path).mp there
      have before : path ∈ references w.committed := mem_references.mpr ⟨_,swapped.swap.held,mine⟩
      refine ⟨fun again => ?_,.inl (kempt.present path before)⟩
      rcases (swap_references swapped.swap).mp again with names | ⟨row,old,elsewhere,names⟩
      · rcases turns_named swapped.turns swapped.asked names with ⟨nobody,_⟩ | ⟨uploading,_⟩
        · exact own nobody
        · exact (kempt.unused q path uploading swapped.uncommitted).1 before
      · exact elsewhere (kempt.single row _ path old swapped.swap.held names mine)
    · rw [swapped.others q same] at there
      obtain ⟨unnamed,known⟩ := kempt.replaced q path there
      refine ⟨fun again => ?_,known⟩
      rcases now path again with before | ⟨uploading,_⟩
      · exact unnamed before
      · exact (kempt.unused pid path uploading swapped.uncommitted).2 q there
  · intro q path there
    rw [swapped.objects,swapped.deletions]
    exact kempt.stored q path ((swapped.events q _ rfl).mp there)
  · intro q path inside uploading
    rw [swapped.objects] at inside
    exact (swapped.events q _ rfl).mpr (kempt.placed q path inside
      ((swapped.uploads q path).mp uploading))
  · intro q path there
    rw [swapped.deletions]
    exact kempt.discarded q path ((swapped.events q _ rfl).mp there)
  · intro q a b one other
    exact kempt.once q a b ((swapped.events q _ rfl).mp one) ((swapped.events q _ rfl).mp other)
  · intro q path uploading
    exact kempt.named q path ((swapped.uploads q path).mp uploading)
  · intro q there
    exact kempt.confirmed q ((swapped.events q _ rfl).mp there)

end Keeping

section Holding
variable {cfg : Config} {s : Api} {pid : Pid}

-- The image a goroutine has yet to commit or to discard.
def Owns (v : View) (path : String) : Prop := Uploads v path ∧ v.made = none ∨ Replaces v path

theorem replaced_unique {w : World} {a b : User} (valid : WorldValid w)
    (first : Replaced (w.view pid) userID a) (second : Replaced (w.view pid) userID b) : a = b := by
  obtain ⟨t,made,seenA,sameA⟩ := first
  obtain ⟨t',made',seenB,sameB⟩ := second
  cases made.symm.trans made'
  obtain ⟨entry,found,rfl⟩ := Option.map_eq_some_iff.mp made
  have equal := valid.db.chronicle.seen_keyed (List.mem_of_find?_eq_some found) _ seenA _ seenB
    (congrArg Key.user (sameA.trans sameB.symm))
  cases equal
  rfl

-- A finished request has committed its upload and discarded what it replaced, or
-- has discarded its upload.
theorem finished_clears (kept : Kept WorldValid World.view (Local cfg) (duty cfg) (outcome cfg) s)
    (kempt : Kempt s.shared) (here : s.threads pid = some code) (inside : path ∈ s.shared.objects)
    (owns : Owns (s.shared.view pid) path) : Working s pid ∨ path ∈ s.shared.deletions := by
  obtain ⟨valid,meets⟩ := kept
  cases code with
  | call c next => exact .inl ⟨c,next,here⟩
  | done value =>
      obtain ⟨request,asked,ends⟩ := meets pid _ here
      have cleared {userID} (prev : User) (replaced : Replaced (s.shared.view pid) userID prev) 
          (discards : ∀ image, prev.profilePicture = some image →
            .discarded (UserService.buildImagePath image) ∈ (s.shared.view pid).events)
          (own : subject request = some userID) : path ∈ s.shared.deletions := by
        rcases owns with ⟨_,uncommitted⟩ | ⟨_,_,other,asked',own',also,named⟩
        · obtain ⟨t,made,_⟩ := replaced
          cases uncommitted.symm.trans made
        · cases asked.symm.trans asked'
          cases own.symm.trans own'
          cases replaced_unique valid replaced also
          obtain ⟨image,filled,rfl⟩ := Option.map_eq_some_iff.mp named
          exact kempt.discarded pid _ (discards image filled)
      cases request with
      | changeProfilePicture ctx userID ext =>
          obtain ⟨_,prev,replaced,discards⟩ := ends
          exact .inr (cleared prev replaced discards rfl)
      | deleteProfilePicture ctx userID =>
          obtain ⟨_,prev,replaced,discards⟩ := ends
          exact .inr (cleared prev replaced discards rfl)
      | _ =>
          rcases owns with ⟨⟨_,_,_,_,asked',_⟩,_⟩ | ⟨_,_,_,asked',own,_⟩
          · cases asked.symm.trans asked'
          · cases asked.symm.trans asked'
            cases own
  | fail err =>
      obtain ⟨request,asked,ends⟩ := meets pid _ here
      rcases owns with ⟨uploading,_⟩ | ⟨_,_,prev,asked',own,⟨t,made,_⟩,_⟩
      · have stored := kempt.placed pid path inside uploading
        obtain ⟨ctx,userID,ext,id,asked',_⟩ := uploading
        cases asked.symm.trans asked'
        exact .inr (kempt.discarded pid path (ends.2 path stored))
      · cases asked.symm.trans asked'
        have uncommitted : (s.shared.view pid).made = none ∨
            .unconfirmed ∈ (s.shared.view pid).events := by
          cases request with
          | changeProfilePicture => exact ends.1
          | deleteProfilePicture => exact ends
          | _ => cases own
        rcases uncommitted with none | lost
        · cases none.symm.trans made
        · exact absurd lost (kempt.confirmed pid)

end Holding

section Runs
variable {cfg : Config} {w after : World} {pid : Pid}

-- What a goroutine does to the images it is answerable for.
structure Carries (w after : World) (pid : Pid) : Prop where
  objects : ∀ path ∈ after.objects, path ∈ w.objects ∨ Owns (after.view pid) path
  rows : ∀ path ∈ references w.committed, path ∈ references after.committed ∨
    Owns (after.view pid) path
  deletions : w.deletions ⊆ after.deletions
  owns : ∀ path, Owns (w.view pid) path → path ∈ references after.committed ∨
    Owns (after.view pid) path

theorem owns_noted (owns : Owns (w.view pid) path)
    (journal : after.journal = (pid,event) :: w.journal) (requests : after.requests = w.requests)
    (db : after.db = w.db) : Owns (after.view pid) path := by
  have asked : (after.view pid).request = (w.view pid).request := by simp only [World.view,requests]
  have made : (after.view pid).made = (w.view pid).made := by simp only [World.view,World.made,db]
  rcases owns with ⟨⟨ctx,userID,ext,id,wanted,drawn,rfl⟩,uncommitted⟩ | replaced
  · exact .inl ⟨⟨ctx,userID,ext,id,asked.trans wanted,(noted_events journal).mpr (.inr drawn),rfl⟩,
      made.trans uncommitted⟩
  · exact .inr ((replaces_iff asked made).mpr replaced)

theorem quiet_alike (requests : after.requests = w.requests) (log : after.db.log = w.db.log)
    (grown : w.journal ⊆ after.journal)
   
    (noted : ∀ q event, pictorial event = true → (q,event) ∈ after.journal →
      (q,event) ∈ w.journal) : ∀ q, Alike (w.view q) (after.view q) := by
  intro q
  have asked : (after.view q).request = (w.view q).request := by simp only [World.view,requests]
  have made : (after.view q).made = (w.view q).made := by simp only [World.view,World.made,log]
  have events : ∀ event, pictorial event = true →
    (event ∈ (after.view q).events ↔ event ∈ (w.view q).events) :=
    fun event matters => ⟨fun there => mem_own.mpr (noted q event matters (mem_own.mp there)),
    fun there => mem_own.mpr (grown (mem_own.mp there))⟩
  exact ⟨fun path => uploads_iff asked fun id => events _ rfl,fun path => replaces_iff asked made,
    made,events⟩

theorem touches_kept (valid : WorldValid w) (kempt : Kempt w)
    (kinds : ∀ pid request, w.requests pid = some request → picturing request = true)
    (fresh : ∀ id, choice = .value id → freshName w pid id) (owed : duty cfg (w.view pid) c)
    (requests : after.requests = w.requests) (grown : w.journal ⊆ after.journal)
    (touches : Touches w pid choice c after) : Kempt after ∧ Carries w after pid := by
  obtain ⟨request,asked,_,owed'⟩ := id owed
  cases touches with
  | @drew drawn =>
      refine ⟨kempt.noted rfl rfl rfl (by simp [World.note])
        (by simp [World.note]) ?_ (by rintro _ ⟨⟩) (by rintro _ ⟨⟩) (by rintro ⟨⟩),
        fun path inside => .inl inside,fun path there => .inl there,List.Subset.refl _,
        fun path owns => .inr (owns_noted owns rfl rfl rfl)⟩
      rintro id ⟨⟩
      exact ⟨fresh drawn rfl,owed'⟩
  | @stored path =>
      have own := stores_own asked owed'
      refine ⟨kempt.noted rfl rfl rfl (by simp [World.note,or_comm,eq_comm]) (by simp [World.note])
        (by rintro _ ⟨⟩) ?_ (by rintro _ ⟨⟩) (by rintro ⟨⟩),fun kept inside => ?_,fun path there =>
        .inl there,List.Subset.refl _,fun path owns => .inr (owns_noted owns rfl rfl rfl)⟩
      · rintro kept ⟨⟩
        exact own.1
      · rcases List.mem_cons.mp inside with rfl | old
        · exact .inr (owns_noted (.inl own) rfl rfl rfl)
        · exact .inl old
  | @discarded path =>
      have own := (discards_own asked owed').imp_right fun (own : _ ∧ _) =>
        And.intro own.1 (own.2.resolve_right (kempt.confirmed pid))
      refine ⟨kempt.noted rfl rfl rfl (by simp [World.note]) (by simp [World.note,or_comm,eq_comm])
        (by rintro _ ⟨⟩) (by rintro _ ⟨⟩) ?_ (by rintro ⟨⟩),fun kept inside => .inl inside,
        fun path there => .inl there,List.subset_cons_self _ _,fun path owns =>
        .inr (owns_noted owns rfl rfl rfl)⟩
      rintro gone ⟨⟩
      exact own
  | committed ran =>
      obtain ⟨request,prev,usr,swapped⟩ := commit_swapped valid kinds owed ran
      refine ⟨kempt.swapped swapped,fun path inside => .inl inside,
        fun path there => (swapped.lost there).imp_right .inr,List.Subset.refl _,?_⟩
      rintro path (⟨uploading,_⟩ | ⟨_,_,_,_,_,⟨t,made,_⟩,_⟩)
      · exact .inl (swapped.uploaded kempt uploading)
      · cases swapped.uncommitted.symm.trans made
  | quiet objects deletions base log noted =>
      have rows : after.committed = w.committed := by
        simp only [World.committed,Store.committed,base,log]
      have alike := quiet_alike requests log grown noted
      refine ⟨kempt.alike rows objects deletions alike,fun path inside => .inl (objects ▸ inside),
        fun path there => .inl (rows ▸ there),deletions ▸ List.Subset.refl _,?_⟩
      rintro path (⟨uploading,uncommitted⟩ | replaced)
      · exact .inr (.inl ⟨((alike pid).uploads path).mpr uploading,
          (alike pid).made.trans uncommitted⟩)
      · exact .inr (.inr (((alike pid).replaces path).mpr replaced))

theorem Kempt.spawned (kempt : Kempt w) (valid : WorldValid w)
    (accepted : accept w pid request = some after) : Kempt after := by
  have view := accept_view valid accepted
  obtain ⟨absent,rfl⟩ := accept_parts accepted
  refine kempt.alike rfl rfl rfl fun q => ?_
  by_cases same : q = pid
  · subst same
    have unasked : (w.view q).request = none := absent
    refine ⟨fun path => ⟨?_,?_⟩,fun path => ⟨?_,?_⟩,rfl,fun _ _ => .rfl⟩
    · rintro ⟨_,_,_,_,_,drawn,_⟩
      rw [view] at drawn
      cases drawn
    · rintro ⟨_,_,_,_,asked,_⟩
      cases unasked.symm.trans asked
    · rintro ⟨_,_,_,_,_,⟨_,made,_⟩,_⟩
      rw [view] at made
      cases made
    · rintro ⟨_,_,_,asked,_⟩
      cases unasked.symm.trans asked
  · rw [accept_frame accepted same]
    exact .refl _

-- A background deletion takes away what nobody names any more.
theorem Kempt.collected (kempt : Kempt w) (pending : path ∈ w.deletions) :
    Kempt {w with objects := w.objects.filter (· ≠ path)} := by
  have less : ∀ kept, kept ∈ w.objects ∨ kept ∈ w.deletions → kept ∈ w.objects.filter (· ≠ path) ∨
      kept ∈ w.deletions := by
    intro kept there
    by_cases same : kept = path
    · exact .inr (same ▸ pending)
    · exact there.imp_left fun inside => List.mem_filter.mpr ⟨inside,by simpa using same⟩
  refine {kempt with present := ?_,replaced := ?_,stored := ?_,placed := ?_}
  · intro kept there
    refine List.mem_filter.mpr ⟨kempt.present kept there,?_⟩
    simp only [decide_eq_true_eq]
    rintro rfl
    exact kempt.spared kept pending there
  · exact fun q kept there => ⟨(kempt.replaced q kept there).1,
      less kept (kempt.replaced q kept there).2⟩
  · exact fun q kept there => less kept (kempt.stored q kept there)
  · exact fun q kept inside uploading => kempt.placed q kept (List.mem_filter.mp inside).1 uploading

-- Every stored object is named, about to be deleted, or owned by a goroutine that
-- is still at work.
def Held (s : Api) : Prop :=
  ∀ path ∈ s.shared.objects, path ∈ references s.shared.committed ∨ path ∈ s.shared.deletions ∨
    ∃ pid, Working s pid ∧ Owns (s.shared.view pid) path

variable {s next : Api}

theorem executed_held (kept : Kept WorldValid World.view (Local cfg) (duty cfg) (outcome cfg) next)
    (kempt : Kempt next.shared) (held : Held s) (here : next.threads pid = some code)
    (carries : Carries s.shared next.shared pid)
    (others : ∀ q, q ≠ pid → next.threads q = s.threads q ∧ next.shared.view q = s.shared.view q) :
    Held next := by
  intro path inside
  have owned (owns : Owns (next.shared.view pid) path) : path ∈ references next.shared.committed ∨
      path ∈ next.shared.deletions ∨ ∃ pid, Working next pid ∧
      Owns (next.shared.view pid) path := by
    rcases finished_clears kept kempt here inside owns with working | pending
    · exact .inr (.inr ⟨pid,working,owns⟩)
    · exact .inr (.inl pending)
  rcases carries.objects path inside with old | owns
  · rcases held path old with named | pending | ⟨q,⟨c,rest,running⟩,owns⟩
    · exact (carries.rows path named).elim .inl owned
    · exact .inr (.inl (carries.deletions pending))
    · by_cases same : q = pid
      · subst same
        exact (carries.owns path owns).elim .inl owned
      · obtain ⟨thread,view⟩ := others q same
        exact .inr (.inr ⟨q,⟨c,rest,thread.trans running⟩,view.symm ▸ owns⟩)
  · exact owned owns

theorem moves_kempt (kept : Kept WorldValid World.view (Local cfg) (duty cfg) (outcome cfg) s)
    (kinds : ∀ pid request, s.shared.requests pid = some request → picturing request = true)
    (kempt : Kempt s.shared) (held : Held s) (allowed : handled s act)
    (moves : Moves (api cfg) s act next) : Kempt next.shared ∧ Held next := by
  have later := moves_kept (api_sound cfg) kept trivial moves
  obtain ⟨valid,meets⟩ := kept
  have stepped {pid c rest choice reply} (here : s.threads pid = some (.call c rest))
      (allowed : handled s (.step pid choice))
      (ran : exec cfg s.shared pid c choice = some (next.shared,reply)) : Kempt next.shared ∧
      Carries s.shared next.shared pid := by
    have done := exec_executed ran
    refine touches_kept valid kempt kinds (fun id same => ?_) (meets_duty (meets pid _ here))
      (executed_requests done) (executed_grows done).journal (exec_touches ran allowed.1)
    exact allowed.2 id (by simp [same,drawnBy])
  cases moves with
  | @spawn pid request shared accepted =>
      refine ⟨kempt.spawned valid accepted,fun path inside => ?_⟩
      have absent := (accept_parts accepted).1
      obtain ⟨_,rfl⟩ := accept_parts accepted
      rcases held path inside with named | pending | ⟨q,⟨c,rest,running⟩,owns⟩
      · exact .inl named
      · exact .inr (.inl pending)
      · have different : q ≠ pid := by
          rintro rfl
          have unasked : (s.shared.view q).request = none := absent
          rcases owns with ⟨⟨_,_,_,_,asked,_⟩,_⟩ |
            ⟨_,_,_,asked,_⟩ <;> cases unasked.symm.trans asked
        refine .inr (.inr ⟨q,⟨c,rest,?_⟩,?_⟩)
        · simpa [Function.update_of_ne different] using running
        · rw [accept_frame accepted different]
          exact owns
  | wait here ran =>
      obtain ⟨clean,carries⟩ := stepped here allowed ran
      exact ⟨clean,executed_held later clean held here carries fun q different =>
        ⟨rfl,executed_frame (exec_executed ran) different⟩⟩
  | reply here ran =>
      obtain ⟨clean,carries⟩ := stepped here allowed ran
      exact ⟨clean,executed_held later clean held (Function.update_self _ _ _) carries
        fun q different => ⟨Function.update_of_ne different _ _,
        executed_frame (exec_executed ran) different⟩⟩
  | kill _ => exact allowed.elim
  | @env event shared ran =>
      cases event with
      | tick elapsed =>
          cases ran
          exact ⟨kempt.alike rfl rfl rfl fun q => .refl _,held⟩
      | deleted path =>
          obtain ⟨pending,rfl⟩ := (Option.ite_none_right_eq_some.mp ran).imp_right Option.some.inj
          exact ⟨kempt.collected pending,fun kept inside => held kept (List.mem_filter.mp inside).1⟩

theorem gallery_kempt {base : List Row}
    (intact : Intact (gallery base serial uuids now objects deletions)) (single : Single base)
    (spared : ∀ path ∈ deletions, path ∉ references base) :
    Kempt (gallery base serial uuids now objects deletions).shared := by
  have unasked : ∀ pid path,
      ¬Uploads ((gallery base serial uuids now objects deletions).shared.view pid) path := by
    rintro pid path ⟨_,_,_,_,asked,_⟩
    cases asked
  have unmade : ∀ pid path,
      ¬Replaces ((gallery base serial uuids now objects deletions).shared.view pid) path := by
    rintro pid path ⟨_,_,_,asked,_⟩
    cases asked
  have silent : ∀ pid event,
      event ∉ ((gallery base serial uuids now objects deletions).shared.view pid).events :=
    fun pid event noted => nomatch mem_own.mp noted
  exact ⟨intact.present,single,spared,fun _ _ pid uploading => absurd uploading (unasked pid _),
    fun p _ _ uploading => absurd uploading (unasked p _),fun pid _ uploading => absurd uploading
      (unasked pid _),
    fun pid _ replaced => absurd replaced (unmade pid _),fun pid _ noted =>
      absurd noted (silent pid _),
    fun pid _ _ uploading => absurd uploading (unasked pid _),fun pid _ noted =>
      absurd noted (silent pid _),
    fun pid _ _ noted => absurd noted (silent pid _),fun pid _ uploading => absurd uploading
      (unasked pid _),
    fun pid => silent pid _⟩

-- Whatever the requests do, fail at and leave to be deleted, no row loses its
-- picture and no object is forgotten.
theorem pictures_intact {base : List Row} {objects deletions : List String}
    (keyed : schema.Keyed base) (apart : schema.Apart base)
    (intact : Intact (gallery base serial uuids now objects deletions)) (single : Single base)
    (spared : ∀ path ∈ deletions, path ∉ references base)
    (path : Reached (api cfg) handled (gallery base serial uuids now objects deletions) s) :
    Intact s := by
  have valid : WorldValid (gallery base serial uuids now objects deletions).shared :=
    (start_valid keyed apart).beside rfl rfl rfl rfl rfl
  have start : Held (gallery base serial uuids now objects deletions) := by
    intro kept inside
    rcases intact.accounted kept inside with named | pending | ⟨pid,⟨c,rest,running⟩,_⟩
    · exact .inl named
    · exact .inr (.inl pending)
    · cases running
  obtain ⟨kempt,held⟩ : Kempt s.shared ∧ Held s := by
    refine path.invariant (fun s => Kempt s.shared ∧ Held s) ⟨gallery_kempt intact single spared,
      start⟩ fun prior clean allowed moves => ?_
    have kinds := requests_kept (fun request => picturing request = true)
      (fun _ _ _ allowed => allowed) (by simp [gallery,State.start,World.start]) prior
    exact moves_kempt (reached_keeps valid (fun _ => rfl) prior) kinds clean.1 clean.2 allowed moves
  refine ⟨kempt.present,fun kept inside => ?_⟩
  rcases held kept inside with named | pending | ⟨pid,working,owns⟩
  · exact .inl named
  · exact .inr (.inl pending)
  · exact .inr (.inr ⟨pid,working,owns.imp_left And.left⟩)

end Runs

namespace Controls
open RestApi.Controls

def bob : User := {pictured with id := "u2",email := "b@x"}

abbrev init (rows : List Row) : Api :=
  gallery rows 0 ["u1","u2"] (1000*second) ["profiles/old.png"] []

theorem init_intact {rows : List Row}
    (named : ∀ path, path ∈ references rows ↔ path = "profiles/old.png") : Intact (init rows) where
  present path there := by
    cases (named path).mp there
    exact List.mem_singleton.mpr rfl
  accounted path inside := .inl ((named path).mpr (List.mem_singleton.mp inside))

-- The transaction of a change of picture, and the deletion of the old image.

abbrev rows : List Row := [.user ⟨pictured,none⟩]

theorem pictures_intact_changed : ∃ s, Reached (api config) handled (init rows) s ∧
    (s.shared.objects = ["profiles/new.png"] ∧
      references s.shared.committed = ["profiles/new.png"]) ∧ Intact s := by
  obtain ⟨s,path,found⟩ := run_finds (api config) handled (init rows) (repictured 0)
    (fun s => s.shared.objects = ["profiles/new.png"] ∧
      references s.shared.committed = ["profiles/new.png"]) (by decide +kernel)
  refine ⟨s,path,found,pictures_intact ?_ ?_ (init_intact ?_) ?_ nofun path⟩
  · simp [Schema.Keyed,schema,Row.key]
  · simp [Schema.Apart,schema,Row.key,Row.violation]
  · simp [references,picture,pictured,UserService.buildImagePath]
  · intro a b path first second _ _
    cases List.mem_singleton.mp first
    cases List.mem_singleton.mp second
    rfl

abbrev sharing : List Row := [.user ⟨pictured,none⟩,.user ⟨bob,none⟩]

-- Two rows that name one image: the change of one picture takes away the other.
theorem shared_picture_deleted :
    Intact (init sharing) ∧ ∃ s, Reached (api config) handled (init sharing) s ∧ ¬Intact s := by
  refine ⟨init_intact ?_,?_⟩
  · intro path
    simp [references,picture,pictured,bob,UserService.buildImagePath]
  · obtain ⟨s,path,there,gone⟩ := run_finds (api config) handled (init sharing) (repictured 0)
      (fun s => "profiles/old.png" ∈ references s.shared.committed ∧
        "profiles/old.png" ∉ s.shared.objects) (by decide +kernel)
    exact ⟨s,path,fun intact => gone (intact.present _ there)⟩

end Controls
end RestApi.ProfilePictures
