import RestApi.Access
import RestApi.Audited
import RestApi.ProfilePictures
import RestApi.Serial

namespace RestApi.Confinement
open Pool Program RowStore
open ProfilePictures (picture references uploads Uploads Replaces subject freshName drawnBy)

section Calls
variable (a : UUID)

-- Made by this user, whose role is `user`.
def plain (ctx : Ctx) : Bool := ctx.rbac.any fun c => c.userID = some a && c.role = .user

def calls : Request → Bool
  | .logout ctx _ => plain a ctx
  | .changePassword ctx _ _ _ => plain a ctx
  | .revokeUserSessions ctx _ => plain a ctx
  | .revokeSession ctx _ => plain a ctx
  | .updateUser ctx _ _ _ _ => plain a ctx
  | .deleteUser ctx _ => plain a ctx
  | .changeProfilePicture ctx _ _ => plain a ctx
  | .deleteProfilePicture ctx _ => plain a ctx
  | _ => false

def ownSession (rows : List Row) (sessID : UUID) : Prop :=
  ∀ sess, .session sess ∈ rows → sess.id = sessID → sess.userID = a

-- The handler passes the session of the caller's own token.
def loggingOut : Request → Option UUID
  | .logout _ sessID => some sessID
  | _ => none

def owned (sessID : UUID) : Row → Bool
  | .session sess => sess.id ≠ sessID || sess.userID = a
  | _ => true

def within : Api → Act Request Choice Surroundings → Prop
  | s,.spawn _ request =>
      calls a request = true ∧ ∀ sessID ∈ (loggingOut request).toList,
        s.shared.committed.all (owned a sessID) = true
  | s,.step pid choice => ∀ id ∈ (drawnBy choice).toList, freshName s.shared pid id
  | _,.kill _ => True
  | _,.env _ => True

instance : ∀ s act, Decidable (within a s act)
  | s,.spawn _ request => inferInstanceAs (Decidable (calls a request = true ∧
      ∀ sessID ∈ (loggingOut request).toList, s.shared.committed.all (owned a sessID) = true))
  | s,.step pid choice =>
      inferInstanceAs (Decidable (∀ id ∈ (drawnBy choice).toList, freshName s.shared pid id))
  | _,.kill _ => inferInstanceAs (Decidable True)
  | _,.env _ => inferInstanceAs (Decidable True)

-- A row that is not this user's own: another's account, session or audit record,
-- or a token that was mailed out.
def Other : Row → Prop
  | .user row => row.user.id ≠ a
  | .session sess => sess.userID ≠ a
  | .audit entry => ∃ b, entry.actorID = some b ∧ b ≠ a
  | _ => True

-- A marker that revokes tokens of somebody else.
def OthersMarker (rows : List Row) (key : String) : Prop := (∃ b, b ≠ a ∧ key = revokedUserKey b) ∨
  ∃ sess, .session sess ∈ rows ∧ sess.userID ≠ a ∧ key = revokedSessionKey sess.id

-- An image that rows of others name, and this user's own do not.
structure OthersImage (rows : List Row) (path : String) : Prop where
  named : ∃ row, .user row ∈ rows ∧ row.user.id ≠ a ∧ picture (.user row) = some path
  unshared : ∀ row, .user row ∈ rows → row.user.id = a → picture (.user row) ≠ some path

structure Untouched (w after : World) : Prop where
  rows : ∀ row, Other a row → (row ∈ after.committed ↔ row ∈ w.committed)
  markers : ∀ key, OthersMarker a w.committed key → after.markers key = w.markers key
  images : ∀ path, OthersImage a w.committed path → path ∉ w.deletions →
    path ∉ after.deletions ∧ (path ∈ after.objects ↔ path ∈ w.objects)

end Calls

section Gates
variable {cfg : Config} {a : UUID} {ctx : Ctx}

theorem plain_actor (asks : plain a ctx = true) :
    ∃ sessionID, ctx.rbac = some ⟨some a,.user,sessionID⟩ := by
  obtain ⟨c,there,mine⟩ := (Option.any_eq_true _ _).mp asks
  simp only [Bool.and_eq_true,decide_eq_true_eq] at mine
  obtain ⟨same,role⟩ := mine
  cases c
  cases same
  cases role
  exact ⟨_,there⟩

variable (nothing : ∀ permission, cfg.can .user permission = false)
include nothing

theorem require_refuses (asks : plain a ctx = true) (permission : Permission) :
    require cfg ctx permission = .fail .unauthorizedPermission := by
  obtain ⟨_,actor⟩ := plain_actor asks
  simp [require,actor,nothing]

theorem requireSelfOr_refuses (asks : plain a ctx = true) (other : userID ≠ a)
    (permission : Permission) :
    requireSelfOr cfg ctx userID permission = .fail .unauthorizedPermission := by
  obtain ⟨_,actor⟩ := plain_actor asks
  simp [requireSelfOr,actor,nothing,Ne.symm other]

theorem permitted_self (asks : plain a ctx = true)
    (permitted : requireSelfOr cfg ctx userID permission = .done ()) : userID = a := by
  by_contra other
  rw [requireSelfOr_refuses nothing asks other] at permitted
  cases permitted

end Gates

section Commits
variable {cfg : Config} {a : UUID} {rows : List Row} {request : Request} {t : Tx Row Key}
  {events : List Event}

-- What this user's calls write.
inductive Mine (a : UUID) (rows : List Row) : Row → Prop where
  | user (same : row.user.id = a) : Mine a rows (.user row)
  | session (before : .session old ∈ rows) (same : old.id = sess.id) (owner : old.userID = a)
      (still : sess.userID = a) : Mine a rows (.session sess)
  | audit (fresh : .audit entry.id ∉ schema.keys rows) (actor : ∀ b, entry.actorID = some b → b = a)
      : Mine a rows (.audit entry)

theorem mine_overlay {writes : List Row} (keyed : schema.Keyed rows)
    (mine : ∀ row ∈ writes, Mine a rows row) (other : Other a row) :
    row ∈ schema.overlay rows writes ↔ row ∈ rows := by
  rw [Schema.mem_overlay]
  constructor
  · rintro (wrote | ⟨member,_⟩)
    · cases mine row wrote with
      | user same => exact absurd same other
      | session _ _ _ still => exact absurd still other
      | audit _ actor =>
          obtain ⟨b,named,different⟩ := other
          exact absurd (actor b named) different
    · exact member
  · intro member
    refine .inr ⟨member,fun written => ?_⟩
    obtain ⟨newer,wrote,same⟩ := Schema.mem_keys.mp written
    cases mine newer wrote with
    | user mine =>
        cases row with
        | user old => exact other ((Key.user.inj same).symm.trans mine)
        | _ => cases same
    | session before equal owner _ =>
        have found := keyed row member _ before (same.symm.trans (congrArg Key.session equal.symm))
        subst found
        exact other owner
    | audit fresh _ => exact fresh (Schema.mem_keys.mpr ⟨row,member,same.symm⟩)

-- What it takes for one of this user's calls to commit.
def Granted (a : UUID) (rows : List Row) : Request → Prop
  | .logout _ sessID => ownSession a rows sessID
  | .revokeSession _ sessID => ownSession a rows sessID
  | .changePassword _ userID _ _ => userID = a
  | .updateUser _ userID _ _ _ => userID = a
  | .changeProfilePicture _ userID _ => userID = a
  | .deleteProfilePicture _ userID => userID = a
  | _ => False

theorem Granted.later {after : List Row} (granted : Granted a rows request)
    (fewer : ∀ sess, .session sess ∈ after → sess.userID ≠ a → .session sess ∈ rows) :
    Granted a after request := by
  have sessions {sessID} (own : ownSession a rows sessID) : ownSession a after sessID := by
    intro sess member same
    by_contra other
    exact other (own sess (fewer sess member other) same)
  cases request with
  | logout => exact sessions granted
  | revokeSession => exact sessions granted
  | _ => exact granted

theorem actor_self (asks : plain a ctx = true) : ∀ b, actorOf ctx = some b → b = a := by
  obtain ⟨_,actor⟩ := plain_actor asks
  intro b named
  simp only [actorOf,actor,Option.bind_some,Option.filter_eq_some_iff] at named
  exact (Option.some.inj named.1).symm

theorem granted_writes {base : List Row} {older : List (Entry Row Key)}
    (fits : Fits schema base older t) (called : calls a request = true)
    (granted : Granted a (schema.rows base older) request)
    (commits : Commits cfg request t events) :
    ∀ row ∈ t.writes, Mine a (schema.rows base older) row := by
  have audit {entry : AuditEntry} (wrote : .audit entry ∈ t.writes)
    (actor : ∀ b, entry.actorID = some b → b = a) : Mine a (schema.rows base older)
    (.audit entry) := .audit ((fits.owned (.audit entry) wrote).resolve_left
    (Audited.audit_unheld commits wrote)) actor
  have closed {sess sessID checkedAt revokedAt}
      (checked : CheckedAt t events (.session sess) checkedAt) (same : sess.id = sessID)
      (own : ownSession a (schema.rows base older) sessID) : Mine a (schema.rows base older)
      (.session (sess.revoke revokedAt)) := by
    obtain ⟨_,stamp,locked,_⟩ := checked
    have before := fits.current _ (List.mem_map_of_mem locked)
    exact .session before rfl (own sess before same) (own sess before same)
  have recorded {entry row} (writes : t.writes = [.audit entry,row])
      (actor : ∀ b, entry.actorID = some b → b = a) (mine : Mine a (schema.rows base older) row) :
      ∀ row ∈ t.writes, Mine a (schema.rows base older) row := by
    intro other wrote
    have first := audit (by rw [writes]; exact List.mem_cons_self) actor
    rw [writes] at wrote
    rcases List.mem_cons.mp wrote with rfl | wrote
    · exact first
    · cases List.mem_singleton.mp wrote
      exact mine
  have unwritten (writes : t.writes = []) :
    ∀ row ∈ t.writes, Mine a (schema.rows base older) row := by simp [writes]
  cases commits with
  | logoutDead _ _ _ writes => exact unwritten writes
  | logout checked same _ writes =>
      exact recorded writes (actor_self called) (closed checked same granted)
  | revokeSessionDead _ _ _ _ writes => exact unwritten writes
  | revokeSession checked same _ _ writes =>
      exact recorded writes (actor_self called) (closed checked same granted)
  | changePassword _ _ _ _ _ _ _ target revoked _ _ writes =>
      rw [writes] at audit ⊢
      intro row wrote
      rcases List.mem_cons.mp wrote with rfl | wrote
      · exact audit List.mem_cons_self (actor_self called)
      · rcases List.mem_append.mp wrote with swept | rewritten
        · obtain ⟨hit,member,rfl⟩ := List.mem_map.mp swept
          obtain ⟨active,seen⟩ := revoked.hits hit member
          cases hit with
          | session old =>
              simp only [activeSessionOf,Bool.and_eq_true,decide_eq_true_eq] at active
              exact .session (fits.current _ seen) rfl (active.1.trans granted)
                (active.1.trans granted)
          | _ => cases active
        · cases List.mem_singleton.mp rewritten
          exact .user (target.trans granted)
  | updateUser _ _ same changed _ _ writes =>
      subst changed
      exact recorded writes (actor_self called) (.user (same.trans granted))
  | changeProfilePicture _ _ same _ _ changed _ writes =>
      subst changed
      exact recorded writes (actor_self called) (.user (same.trans granted))
  | keepNoPicture _ _ _ _ writes => exact unwritten writes
  | deleteProfilePicture _ _ same _ changed _ writes =>
      subst changed
      exact recorded writes (actor_self called) (.user (same.trans granted))
  | _ => exact granted.elim

-- Where the picture of a row that this user's calls write comes from.
theorem written_picture {v : View} {row : UserRow} (granted : Granted a rows request)
    (asked : v.request = some request) (commits : Commits cfg request t v.events)
    (wrote : .user row ∈ t.writes) (named : picture (.user row) = some path) :
    (∃ old, .user old ∈ t.seen ∧ old.user.id = a ∧ picture (.user old) = some path) ∨
      (∃ n read old, .selected n read ∈ v.events ∧ .user old ∈ read ∧ old.user.id = a ∧
        picture (.user old) = some path) ∨
        Uploads v path := by
  cases commits with
  | logoutDead _ _ _ writes => simp [writes] at wrote
  | logout _ _ _ writes => simp [writes] at wrote
  | revokeSessionDead _ _ _ _ writes => simp [writes] at wrote
  | revokeSession _ _ _ _ writes => simp [writes] at wrote
  | changePassword _ found same _ _ _ _ _ revoked _ _ writes =>
      rw [writes] at wrote
      simp only [List.mem_cons,reduceCtorEq,List.mem_append,List.not_mem_nil,or_false,false_or]
        at wrote
      rcases wrote with swept | rewritten
      · obtain ⟨_,_,equal⟩ := revoked_row swept revoked.hits
        cases equal
      · cases rewritten
        exact .inr (.inl ⟨_,_,_,found,List.mem_singleton.mpr rfl,same.trans granted,named⟩)
  | updateUser _ live same changed _ _ writes =>
      subst changed
      simp only [writes,List.mem_cons,reduceCtorEq,Row.user.injEq,List.not_mem_nil,or_false,
        false_or] at wrote
      subst wrote
      exact .inl ⟨_,live,same.trans granted,named⟩
  | changeProfilePicture _ _ _ drawn _ changed _ writes =>
      subst changed
      simp only [writes,List.mem_cons,reduceCtorEq,Row.user.injEq,List.not_mem_nil,or_false,
        false_or] at wrote
      subst wrote
      simp only [picture,setNullable] at named
      split at named
      · cases named
      · cases named
        exact .inr (.inr ⟨_,_,_,_,asked,drawn,rfl⟩)
  | keepNoPicture _ _ _ _ writes => simp [writes] at wrote
  | deleteProfilePicture _ _ _ _ changed _ writes =>
      subst changed
      simp only [writes,List.mem_cons,reduceCtorEq,Row.user.injEq,List.not_mem_nil,or_false,
        false_or] at wrote
      subst wrote
      simp [picture] at named
  | _ => exact granted.elim

variable (nothing : ∀ permission, cfg.can .user permission = false)
include nothing

theorem commits_granted (keyed : schema.Keyed rows) (current : ∀ row ∈ t.seen, row ∈ rows)
    (called : calls a request = true)
    (leaves : ∀ sessID ∈ loggingOut request, ownSession a rows sessID)
    (commits : Commits cfg request t events) : Granted a rows request := by
  have revoked {ctx sess sessID checkedAt} (asks : plain a ctx = true)
      (checked : CheckedAt t events (.session sess) checkedAt) (same : sess.id = sessID)
      (permitted : requireSelfOr cfg ctx sess.userID .revokeUserSessions = .done ()) :
      ownSession a rows sessID := by
    intro other member equal
    obtain ⟨_,stamp,locked,_⟩ := checked
    have found := keyed _ member _ (current _ (List.mem_map_of_mem locked))
      (congrArg Key.session (equal.trans same.symm))
    cases found
    exact permitted_self nothing asks permitted
  cases commits with
  | logoutDead => exact leaves _ rfl
  | logout => exact leaves _ rfl
  | revokeSessionDead checked same permitted => exact revoked called checked same permitted
  | revokeSession checked same permitted => exact revoked called checked same permitted
  | changePassword permitted => exact permitted_self nothing called permitted
  | revokeUserSessions permitted =>
      rw [require_refuses nothing called] at permitted
      cases permitted
  | updateUser permitted => exact permitted_self nothing called permitted
  | deleteAbsent permitted =>
      rw [require_refuses nothing called] at permitted
      cases permitted
  | deleteUser permitted =>
      rw [require_refuses nothing called] at permitted
      cases permitted
  | changeProfilePicture permitted => exact permitted_self nothing called permitted
  | keepNoPicture permitted => exact permitted_self nothing called permitted
  | deleteProfilePicture permitted => exact permitted_self nothing called permitted
  | _ => cases called

end Commits

-- What holds of the world while only this user's calls are at work.
structure Confined (a : UUID) (init w : World) (live : Pid → Prop) : Prop where
  untouched : Untouched a init w
  called : ∀ pid request, live pid → w.requests pid = some request → calls a request = true
  leaves : ∀ pid request, live pid → w.requests pid = some request →
    ∀ sessID ∈ loggingOut request, ownSession a w.committed sessID
  granted : ∀ pid request, live pid → w.requests pid = some request → (pid,.committed) ∈ w.journal →
    Granted a w.committed request
  unnamed : ∀ path, OthersImage a init.committed path → ∀ row, .user row ∈ w.committed →
    row.user.id = a → picture (.user row) ≠ some path
  unread : ∀ path, OthersImage a init.committed path → ∀ pid n read row, live pid →
    (pid,.selected n read) ∈ w.journal → .user row ∈ read → row.user.id = a →
    picture (.user row) ≠ some path
  unheld : ∀ path, OthersImage a init.committed path → ∀ pid, live pid →
    ¬Uploads (w.view pid) path ∧ ¬Replaces (w.view pid) path

section Steps
variable {cfg : Config} {a : UUID} {init w after : World} {live : Pid → Prop} {pid : Pid} {c : Cmd}
  {reply : Option (Reply c)}

theorem Confined.others_named (confined : Confined a init w live)
    (image : OthersImage a init.committed path) : path ∈ references w.committed := by
  obtain ⟨row,member,other,named⟩ := image.named
  exact ProfilePictures.mem_references.mpr
    ⟨row,(confined.untouched.rows (.user row) other).mpr member,named⟩

theorem Confined.others_session (confined : Confined a init w live)
    (member : .session sess ∈ init.committed) (other : sess.userID ≠ a) :
    .session sess ∈ w.committed :=
  (confined.untouched.rows (.session sess) other).mpr member

-- A marker that a call of this user writes is the user's own.
theorem executed_others_marker (confined : Confined a init w live) (alive : live pid)
    (owed : duty cfg (w.view pid) c) (done : Executed cfg w pid c reply after)
    (others : OthersMarker a init.committed key) : after.markers key = w.markers key := by
  obtain ⟨request,asked,_,owed⟩ := owed
  have asked : w.requests pid = some request := asked
  rcases executed_marker key done with ⟨value,ttl,deadline,rfl,_⟩ | ⟨value,ttl,rfl⟩ | ⟨same,_⟩
  · obtain ⟨_,committed,marks⟩ := owed
    have granted := confined.granted pid request alive asked (mem_own.mp committed)
    have foreign {sessID} (own : ownSession a w.committed sessID)
        (same : key = revokedSessionKey sessID) : False := by
      rcases others with ⟨b,_,user⟩ | ⟨sess,member,other,session⟩
      · exact user_not_session b sessID (user.symm.trans same)
      · exact other (own sess (confined.others_session member other)
          (revokedSessionKey_injective (session.symm.trans same)))
    cases request with
    | logout ctx sessID => exact (foreign granted marks.1).elim
    | revokeSession ctx sessID => exact (foreign granted marks.1).elim
    | changePassword ctx userID password newPassword =>
        cases granted
        rcases others with ⟨b,other,user⟩ | ⟨sess,_,_,session⟩
        · exact absurd (revokedUserKey_injective (user.symm.trans marks.1)) other
        · exact absurd (marks.1.symm.trans session) (user_not_session _ _)
    | deleteUser => exact granted.elim
    | revokeUserSessions => exact granted.elim
    | resetPassword => exact granted.elim
    | _ => exact marks.elim
  · obtain ⟨email,throttle⟩ := owed
    rcases others with ⟨b,_,user⟩ | ⟨sess,_,_,session⟩
    · exact absurd (throttle.symm.trans user) (throttle_not_user _ b)
    · exact absurd (throttle.symm.trans session) (throttle_not_session _ sess.id)
  · exact same

theorem executed_others_image (confined : Confined a init w live) (alive : live pid)
    (owed : duty cfg (w.view pid) c) (done : Executed cfg w pid c reply after)
    (image : OthersImage a init.committed path) (spared : path ∉ init.deletions) :
    path ∉ after.deletions ∧ (path ∈ after.objects ↔ path ∈ init.objects) := by
  obtain ⟨request,asked,_,owed⟩ := owed
  obtain ⟨kept,stored⟩ := confined.untouched.images path image spared
  obtain ⟨unuploaded,unreplaced⟩ := confined.unheld path image pid alive
  constructor
  · rcases executed_deletions done with same | ⟨gone,rfl,more⟩
    · rw [same]
      exact kept
    · rw [more]
      intro pending
      rcases List.mem_cons.mp pending with rfl | old
      · rcases ProfilePictures.discards_own asked owed with replaced | ⟨uploading,_⟩
        · exact unreplaced replaced
        · exact unuploaded uploading
      · exact kept old
  · rcases executed_objects done with same | ⟨new,rfl,more⟩
    · rw [same]
      exact stored
    · have different : path ≠ new := by
        rintro rfl
        exact unuploaded (ProfilePictures.stores_own asked owed).1
      rw [more,List.mem_cons,← stored]
      exact or_iff_right different

theorem executed_uploads (confined : Confined a init w live) (alive : live pid)
    (ran : exec cfg w pid c choice = some (after,reply))
    (fresh : ∀ id, choice = .value id → freshName w pid id)
    (image : OthersImage a init.committed path) : ¬Uploads (after.view pid) path := by
  rintro ⟨ctx,userID,ext,id,asked,drawn,rfl⟩
  have asked : w.requests pid = some (.changeProfilePicture ctx userID ext) :=
    executed_requests (exec_executed ran) ▸ asked
  rcases exec_uuid ran (mem_own.mp drawn) with old | ⟨_,_,same⟩
  · exact (confined.unheld _ image pid alive).1 ⟨ctx,userID,ext,id,asked,mem_own.mpr old,rfl⟩
  · have unused := (fresh id same (id ++ ext) (by simp [ProfilePictures.imageName,asked])).2
    exact unused (by simp [confined.others_named image])

variable (nothing : ∀ permission, cfg.can .user permission = false)
include nothing

-- The rows after a step of one of this user's calls.
theorem executed_rows (valid : WorldValid w) (confined : Confined a init w live) (alive : live pid)
    (owed : duty cfg (w.view pid) c) (done : Executed cfg w pid c reply after) :
    after.committed = w.committed ∨ ∃ t request, w.db.txs pid = some t ∧
      w.requests pid = some request ∧
      after.committed = schema.overlay w.committed t.writes ∧ Granted a w.committed request ∧
        Commits cfg request t (w.view pid).events ∧ (∀ row ∈ t.seen, row ∈ w.committed) ∧
          ∀ row ∈ t.writes, Mine a w.committed row := by
  have base := (executed_grows done).base
  rcases executed_log done with same | ⟨rfl,t,running,log⟩
  · exact .inl (by simp only [World.committed,Store.committed,base,same])
  · obtain ⟨request,asked,_,_,_,t',running',commits⟩ := owed
    cases running.symm.trans running'
    have fits := valid.db.fits pid t running
    have called := confined.called pid request alive asked
    have granted := commits_granted nothing valid.db.chronicle.keyed fits.current called
      (confined.leaves pid request alive asked) commits
    refine .inr ⟨t,request,running,asked,?_,granted,commits,fits.current,
      granted_writes fits called granted commits⟩
    simp only [World.committed,Store.committed,base,log,Schema.rows]

theorem executed_others (valid : WorldValid w) (confined : Confined a init w live)
    (alive : live pid) (owed : duty cfg (w.view pid) c) (done : Executed cfg w pid c reply after)
    (other : Other a row) : row ∈ after.committed ↔ row ∈ w.committed := by
  rcases executed_rows nothing valid confined alive owed done with same |
    ⟨t,request,_,_,rows,_,_,_,mine⟩
  · rw [same]
  · rw [rows]
    exact mine_overlay valid.db.chronicle.keyed mine other

theorem executed_unnamed (valid : WorldValid w) (confined : Confined a init w live)
    (alive : live pid) (owed : duty cfg (w.view pid) c) (done : Executed cfg w pid c reply after)
    (image : OthersImage a init.committed path) (member : .user row ∈ after.committed)
    (own : row.user.id = a) : picture (.user row) ≠ some path := by
  rcases executed_rows nothing valid confined alive owed done with same |
    ⟨t,request,_,asked,rows,granted,commits,current,_⟩
  · exact confined.unnamed path image row (same ▸ member) own
  · intro named
    rw [rows,Schema.mem_overlay] at member
    rcases member with wrote | ⟨member,_⟩
    · rcases written_picture granted asked commits wrote named with ⟨old,seen,mine,also⟩ |
        ⟨n,read,old,noted,seen,mine,also⟩ | uploading
      · exact confined.unnamed path image old (current _ seen) mine also
      · exact confined.unread path image pid n read old alive (mem_own.mp noted) seen mine also
      · exact (confined.unheld path image pid alive).1 uploading
    · exact confined.unnamed path image row member own named

theorem executed_replaces (valid : WorldValid w) (confined : Confined a init w live)
    (alive : live pid) (owed : duty cfg (w.view pid) c) (done : Executed cfg w pid c reply after)
    (image : OthersImage a init.committed path) : ¬Replaces (after.view pid) path := by
  rintro ⟨request,userID,prev,asked,mine,⟨t,made,seen,same⟩,named⟩
  have asked : w.requests pid = some request := executed_requests done ▸ asked
  rcases executed_log done with log | ⟨rfl,t',running,log⟩
  · have made : (w.view pid).made = some t := by
      rw [← made]
      simp only [World.view,World.made,log]
    exact (confined.unheld path image pid alive).2 ⟨request,userID,prev,asked,mine,
      ⟨t,made,seen,same⟩,named⟩
  · have equal : t' = t := by simpa [World.view,World.made,log] using made
    subst equal
    obtain ⟨request',asked',_,_,_,t'',running',commits⟩ := owed
    cases asked.symm.trans asked'
    cases running.symm.trans running'
    have fits := valid.db.fits pid t' running
    have granted := commits_granted nothing valid.db.chronicle.keyed fits.current
      (confined.called pid request alive asked) (confined.leaves pid request alive asked) commits
    have self : userID = a := by
      cases request with
      | changeProfilePicture => cases mine; exact granted
      | deleteProfilePicture => cases mine; exact granted
      | _ => cases mine
    exact confined.unnamed path image ⟨prev,none⟩ (fits.current _ seen) (same.trans self) named

theorem executed_confined (valid : WorldValid w) (confined : Confined a init w live)
    (alive : live pid) (owed : duty cfg (w.view pid) c)
    (fresh : ∀ id, choice = .value id → freshName w pid id)
    (ran : exec cfg w pid c choice = some (after,reply)) : Confined a init after live := by
  have done := exec_executed ran
  have requests := executed_requests done
  have others {row} (other : Other a row) :=
    executed_others nothing valid confined alive owed done other
  have fewer : ∀ sess, .session sess ∈ after.committed → sess.userID ≠ a →
    .session sess ∈ w.committed :=
    fun sess member other => (others (show Other a (.session sess) from other)).mp member
  refine ⟨⟨?_,?_,?_⟩,?_,?_,?_,?_,?_,?_⟩
  · exact fun row other => (others other).trans (confined.untouched.rows row other)
  · exact fun key marker => (executed_others_marker confined alive owed done marker).trans
      (confined.untouched.markers key marker)
  · exact fun path image spared => executed_others_image confined alive owed done image spared
  · rw [requests]
    exact confined.called
  · intro q request living asked sessID leaving sess member same
    rw [requests] at asked
    by_contra other
    exact other (confined.leaves q request living asked sessID leaving sess
      (fewer sess member other) same)
  · intro q request living asked noted
    rw [requests] at asked
    rcases executed_noted done noted with old | ⟨rfl,notes⟩
    · exact (confined.granted q request living asked old).later fewer
    · cases notes
      obtain ⟨request',asked',_,_,_,t,running,commits⟩ := owed
      cases asked.symm.trans asked'
      exact (commits_granted nothing valid.db.chronicle.keyed (valid.db.fits q t running).current
        (confined.called q request living asked)
        (confined.leaves q request living asked) commits).later fewer
  · exact fun path image row member own =>
      executed_unnamed nothing valid confined alive owed done image member own
  · intro path image q n read row living noted member own
    rcases executed_noted done noted with old | ⟨_,notes⟩
    · exact confined.unread path image q n read row living old member own
    · cases notes
      exact confined.unnamed path image row (List.mem_filter.mp member).1 own
  · intro path image q living
    by_cases same : q = pid
    · subst same
      exact ⟨executed_uploads confined alive ran fresh image,
        executed_replaces nothing valid confined alive owed done image⟩
    · rw [executed_frame done same]
      exact confined.unheld path image q living

end Steps

section Runs
variable {cfg : Config} {a : UUID} {init w after : World} {live : Pid → Prop} {pid : Pid}

-- Steps that touch neither rows, nor markers, nor what goroutines know.
theorem Confined.beside (confined : Confined a init w live) (fewer : ∀ q, living q → live q)
    (base : after.db.base = w.db.base) (log : after.db.log = w.db.log)
    (markers : after.markers = w.markers) (requests : after.requests = w.requests)
    (journal : after.journal = w.journal)
    (images : ∀ path, OthersImage a init.committed path → path ∉ init.deletions →
      path ∉ after.deletions ∧ (path ∈ after.objects ↔ path ∈ init.objects)) :
    Confined a init after living := by
  have rows : after.committed = w.committed := by
    simp only [World.committed,Store.committed,base,log]
  have view : ∀ q, (after.view q).request = (w.view q).request ∧
    (after.view q).made = (w.view q).made ∧ (after.view q).events = (w.view q).events :=
    fun q => by simp only [World.view,World.made,log,requests,journal,and_self]
  refine ⟨⟨?_,?_,images⟩,?_,?_,?_,?_,?_,?_⟩
  · exact rows ▸ confined.untouched.rows
  · exact markers ▸ confined.untouched.markers
  · exact fun q request alive asked => confined.called q request (fewer q alive) (requests ▸ asked)
  · exact fun q request alive asked => rows ▸ confined.leaves q request (fewer q alive)
      (requests ▸ asked)
  · exact fun q request alive asked noted => rows ▸ confined.granted q request (fewer q alive)
      (requests ▸ asked) (journal ▸ noted)
  · exact rows ▸ confined.unnamed
  · exact fun path image q n read row alive noted => confined.unread path image q n read row
      (fewer q alive) (journal ▸ noted)
  · intro path image q alive
    obtain ⟨request,made,events⟩ := view q
    rw [ProfilePictures.uploads_iff request fun id => by rw [events],
      ProfilePictures.replaces_iff request made]
    exact confined.unheld path image q (fewer q alive)

theorem Confined.spawned (confined : Confined a init w live) (valid : WorldValid w)
    (accepted : accept w pid request = some after) (called : calls a request = true)
    (leaves : ∀ sessID ∈ loggingOut request, ownSession a w.committed sessID) :
    Confined a init after fun q => q = pid ∨ live q := by
  have view := accept_view valid accepted
  have silent : ∀ event, (pid,event) ∉ w.journal := by
    intro event noted
    have there := mem_own.mpr noted
    rw [(valid.unborn pid (accept_parts accepted).1).2] at there
    cases there
  obtain ⟨_,rfl⟩ := accept_parts accepted
  have asked {q other} (wanted : Function.update w.requests pid (some request) q = some other)
      (alive : q = pid ∨ live q) : q = pid ∧ other = request ∨ live q ∧
      w.requests q = some other := by
    by_cases same : q = pid
    · subst same
      exact .inl ⟨rfl,by simpa using wanted.symm⟩
    · exact .inr ⟨alive.resolve_left same,by simpa [Function.update_of_ne same] using wanted⟩
  refine ⟨⟨confined.untouched.rows,confined.untouched.markers,confined.untouched.images⟩,?_,?_,?_,
    confined.unnamed,?_,?_⟩
  · intro q other alive wanted
    rcases asked wanted alive with ⟨_,rfl⟩ | ⟨alive,wanted⟩
    · exact called
    · exact confined.called q other alive wanted
  · intro q other alive wanted
    rcases asked wanted alive with ⟨_,rfl⟩ | ⟨alive,wanted⟩
    · exact leaves
    · exact confined.leaves q other alive wanted
  · intro q other alive wanted noted
    rcases asked wanted alive with ⟨rfl,_⟩ | ⟨alive,wanted⟩
    · exact absurd noted (silent _)
    · exact confined.granted q other alive wanted noted
  · intro path image q n read row alive noted
    rcases alive with rfl | alive
    · exact absurd noted (silent _)
    · exact confined.unread path image q n read row alive noted
  · intro path image q alive
    by_cases same : q = pid
    · subst same
      rw [view]
      constructor
      · rintro ⟨_,_,_,_,_,drawn,_⟩
        cases drawn
      · rintro ⟨_,_,_,_,_,⟨_,made,_⟩,_⟩
        cases made
    · rw [accept_frame accepted same]
      exact confined.unheld path image q (alive.resolve_left same)

theorem owned_all {rows : List Row}
    (all : rows.all (owned a sessID) = true) : ownSession a rows sessID := by
  intro sess member same
  have passes := List.all_eq_true.mp all _ member
  simpa [owned,same] using passes

theorem reached_confined {init s : Api} (nothing : ∀ permission, cfg.can .user permission = false)
    (valid : WorldValid init.shared) (idle : ∀ pid, init.threads pid = none)
    (path : Reached (api cfg) (within a) init s) :
    Confined a init.shared s.shared fun pid => s.threads pid ≠ none := by
  have start : Confined a init.shared init.shared fun pid => init.threads pid ≠ none :=
    ⟨⟨fun _ _ => .rfl,fun _ _ => rfl,fun _ _ spared => ⟨spared,.rfl⟩⟩,
      fun pid _ alive => absurd (idle pid) alive,fun pid _ alive => absurd (idle pid) alive,
      fun pid _ alive => absurd (idle pid) alive,fun _ image => image.unshared,
      fun _ _ pid _ _ _ alive => absurd (idle pid) alive,fun _ _ pid alive =>
      absurd (idle pid) alive⟩
  refine path.invariant (fun s => Confined a init.shared s.shared
    fun pid => s.threads pid ≠ none) start fun {s act next} prior confined allowed moves => ?_
  obtain ⟨valid,meets⟩ := reached_keeps valid idle prior
  have alive {pid code} (here : s.threads pid = some code) : s.threads pid ≠ none := by
    rw [here]; nofun
  cases moves with
  | @spawn pid request shared accepted =>
      have grown := confined.spawned valid accepted allowed.1 fun sessID leaving =>
        owned_all (allowed.2 sessID (by simpa using leaving))
      refine grown.beside (fun q living => ?_) rfl rfl rfl rfl rfl grown.untouched.images
      by_cases same : q = pid
      · exact .inl same
      · exact .inr (by simpa [Function.update_of_ne same] using living)
  | wait here ran =>
      exact executed_confined nothing valid confined (alive here) (meets_duty (meets _ _ here))
        (fun id same => allowed id (by simp [same,drawnBy])) ran
  | @reply pid c rest choice shared answer here ran =>
      have stepped := executed_confined nothing valid confined (alive here)
        (meets_duty (meets _ _ here)) (fun id same => allowed id (by simp [same,drawnBy])) ran
      refine stepped.beside (fun q living => ?_) rfl rfl rfl rfl rfl stepped.untouched.images
      by_cases same : q = pid
      · exact same ▸ alive here
      · simpa [Function.update_of_ne same] using living
  | @kill pid code here =>
      refine confined.beside (fun q living => ?_) rfl rfl rfl rfl rfl confined.untouched.images
      by_cases same : q = pid
      · exact same ▸ alive here
      · simpa [Function.update_of_ne same] using living
  | @env event shared ran =>
      cases event with
      | tick elapsed =>
          cases ran
          exact confined.beside (fun _ living =>
            living) rfl rfl rfl rfl rfl confined.untouched.images
      | deleted gone =>
          obtain ⟨pending,rfl⟩ := (Option.ite_none_right_eq_some.mp ran).imp_right Option.some.inj
          refine confined.beside (fun _ living => living) rfl rfl rfl rfl rfl
            fun path image spared => ?_
          obtain ⟨kept,stored⟩ := confined.untouched.images path image spared
          refine ⟨kept,?_⟩
          have different : path ≠ gone := by
            rintro rfl
            exact kept pending
          rw [← stored,List.mem_filter]
          simp [different]

end Runs

section Roles
variable {cfg : Config} {init w after : World} {pid : Pid} {c : Cmd} {reply : Option (Reply c)}

-- Accounts keep their role, and every later account has the role `user`.
structure RolesKept (init w : World) : Prop where
  known : ∀ row, .user row ∈ w.committed →
    (∃ old, .user old ∈ init.committed ∧ old.user.id = row.user.id ∧
    row.user.role = old.user.role) ∨ (∀ old, .user old ∈ init.committed →
    old.user.id ≠ row.user.id) ∧ row.user.role = .user
  keys : ∀ old, .user old ∈ init.committed → .user old.user.id ∈ schema.keys w.committed

theorem RolesKept.executed (kept : RolesKept init w) (valid : WorldValid w)
    (owed : duty cfg (w.view pid) c)
    (done : Executed cfg w pid c reply after) : RolesKept init after := by
  have base := (executed_grows done).base
  rcases executed_log done with same | ⟨rfl,t,running,log⟩
  · have rows : after.committed = w.committed := by
      simp only [World.committed,Store.committed,base,same]
    exact ⟨rows ▸ kept.known,rows ▸ kept.keys⟩
  · obtain ⟨request,_,_,_,_,t',running',commits⟩ := owed
    cases running.symm.trans running'
    have fits := valid.db.fits pid t running
    have rows : after.committed = schema.overlay w.committed t.writes := by
      simp only [World.committed,Store.committed,base,log,Schema.rows]
    refine ⟨fun row member => ?_,fun old there => ?_⟩
    · rw [rows,Schema.mem_overlay] at member
      rcases member with wrote | ⟨member,_⟩
      · rcases user_written commits wrote with ⟨prev,seen,role,step⟩ | ⟨_,_,_,_,_,role,enrolled⟩
        · rw [role,step.1]
          exact kept.known prev (fits.current _ seen)
        · refine .inr ⟨fun old there same => ?_,role⟩
          have fresh := (fits.owned (.user row) wrote).resolve_left enrolled.unheld
          have taken := kept.keys old there
          rw [same] at taken
          exact fresh taken
      · exact kept.known row member
    · rw [rows]
      exact Schema.overlay_keys t.writes (kept.keys old there)

theorem reached_roles {init s : Api} (valid : WorldValid init.shared)
    (idle : ∀ pid, init.threads pid = none) (path : Reached (api cfg) allow init s) :
    RolesKept init.shared s.shared := by
  have start : RolesKept init.shared init.shared :=
    ⟨fun row member => .inl ⟨row,member,rfl,rfl⟩,fun old there => Schema.mem_keys.mpr ⟨_,there,rfl⟩⟩
  refine reached_world (RolesKept init.shared) start
    (fun {s act after} prior kept _ turns => ?_) path
  cases turns with
  | executed here ran =>
      obtain ⟨valid,meets⟩ := reached_keeps valid idle prior
      exact kept.executed valid (meets_duty (meets _ _ here)) (exec_executed ran)
  | _ => exact ⟨kept.known,kept.keys⟩

end Roles
end RestApi.Confinement
