import RestApi.Confinement
import RestApi.UserWrites

namespace RestApi.PlainUser
open Pool Program RowStore Serial Confinement

section Requests
variable {cfg : Config} {a : UUID} {ctx : Ctx}

-- The account a request names, where it names one.
def aimed : Request → Option UUID
  | .changePassword _ userID _ _ => some userID
  | .revokeUserSessions _ userID => some userID
  | .updateUser _ userID _ _ _ => some userID
  | .deleteUser _ userID => some userID
  | .changeProfilePicture _ userID _ => some userID
  | .deleteProfilePicture _ userID => some userID
  | _ => none

theorem aimed_refused (nothing : ∀ permission, cfg.can .user permission = false)
    (asks : calls a request = true) (target : aimed request = some b) (other : b ≠ a) :
    serve cfg request = .fail .unauthorizedPermission := by
  cases request with
  | changePassword ctx userID password newPassword =>
      cases target
      rw [serve,AuthService.changePassword,requireSelfOr_refuses nothing asks other]
      rfl
  | revokeUserSessions ctx userID =>
      rw [serve,AuthService.revokeUserSessions,require_refuses nothing asks]
      rfl
  | updateUser ctx userID name phone gender =>
      cases target
      rw [serve,UserService.updateUser,requireSelfOr_refuses nothing asks other]
      rfl
  | deleteUser ctx userID =>
      rw [serve,UserService.deleteUser,require_refuses nothing asks]
      rfl
  | changeProfilePicture ctx userID ext =>
      cases target
      rw [serve,UserService.changeProfilePicture,requireSelfOr_refuses nothing asks other]
      rfl
  | deleteProfilePicture ctx userID =>
      cases target
      rw [serve,UserService.deleteProfilePicture,requireSelfOr_refuses nothing asks other]
      rfl
  | _ => cases target

theorem transact_returns {body : Service Value} {good : Value → Prop} (first : body.Returns good) :
    (Service.transact body).Returns good := by
  intro reply
  cases reply with
  | error err => trivial
  | ok _ =>
      refine returns_settle first (fun value kept reply => ?_) fun _ _ => trivial
      cases reply with
      | error err => trivial
      | ok _ => exact kept

-- None of these calls hands anything back.
theorem calls_silent (asks : calls a request = true) : (serve cfg request).Returns (· = .nil) := by
  cases request with
  | logout ctx sessID => exact returns_bind fun _ => returns_bind fun _ => returns_bind fun _ => rfl
  | changePassword ctx userID password newPassword =>
      exact returns_bind fun _ => returns_bind fun _ => returns_bind fun _ => returns_bind fun _ =>
        returns_bind fun _ => returns_bind fun _ => returns_bind fun _ => rfl
  | revokeUserSessions ctx userID =>
      exact returns_bind fun _ => returns_bind fun _ => returns_bind fun _ => returns_bind
        fun _ => rfl
  | revokeSession ctx sessID =>
      exact returns_bind fun _ => returns_bind fun _ => returns_bind fun _ => rfl
  | updateUser ctx userID name phone gender =>
      exact returns_bind fun _ => transact_returns
        (returns_bind fun _ => returns_bind fun _ => returns_bind fun _ => returns_bind
        fun _ => rfl)
  | deleteUser ctx userID =>
      exact returns_bind fun _ => returns_bind fun _ => returns_bind fun _ => returns_bind
        fun _ => rfl
  | changeProfilePicture ctx userID ext =>
      refine returns_bind fun _ => returns_bind fun _ => returns_bind fun _ => returns_bind
        fun result => ?_
      cases result with
      | error err => exact returns_bind fun _ => trivial
      | ok prevImage => cases prevImage with
          | none => exact rfl
          | some image => exact returns_bind fun _ => rfl
  | deleteProfilePicture ctx userID =>
      refine returns_bind fun _ => returns_bind fun prevImage => ?_
      cases prevImage with
      | none => exact rfl
      | some image => exact returns_bind fun _ => rfl
  | _ => cases asks

end Requests

section Foreign
variable {cfg : Config} {a : UUID} {w after : World} {pid : Pid} {sess : Session} {floor : Nat}

-- The permission error, unless the database itself refused a statement.
def Refusal (err : Err) : Prop :=
  err = .unauthorizedPermission ∨ ∃ text cause, err = .wrapped text (.sql cause)

-- Where RevokeSession can be when the session is somebody else's. `floor` is how
-- many commits there were when the run began.
inductive Refusing (cfg : Config) (a : UUID) (floor : Nat) (v : View) (sessID : UUID)
    (code : Service Value) : Prop where
  | asked (same : code = serve cfg (.revokeSession ctx sessID)) (asks : plain a ctx = true)
  | locking (same : code = .call (.lock (sessionWithID sessID)) rest) (running : v.tx = some t)
      (since : floor ≤ t.since)
      (sofar : Progress schema (sessionWithID sessID) none (.empty began opened) t)
      (found : ∀ sess : Session, sess.userID ≠ a → rest (.ok [.session sess]) = .call .rollback
        fun _ => .fail .unauthorizedPermission)
      (failed : ∀ err, rest (.error err) = .call .rollback fun _ => .fail
        (.wrapped "session by id" (.sql err)))
  | undoing (same : code = .call .rollback fun _ => .fail err) (refused : Refusal err)
  | ended (same : code = .fail err) (refused : Refusal err)

-- Another's session, in the tables all along.
structure Standing (a : UUID) (floor : Nat) (sess : Session) (w : World) : Prop where
  owner : sess.userID ≠ a
  stored : ∀ n, floor ≤ n → n ≤ w.db.log.length → .session sess ∈ schema.rowsAt w.db.base w.db.log n
  grown : floor ≤ w.db.log.length

theorem Standing.current (standing : Standing a floor sess w) : .session sess ∈ w.committed := by
  have now := standing.stored _ standing.grown le_rfl
  rwa [Schema.rowsAt_length] at now

theorem session_only {row : Row} (passes : sessionWithID sess.id row = true) :
    schema.key row = schema.key (.session sess) := by
  cases row with
  | session found => exact congrArg Key.session (by simpa [sessionWithID] using passes)
  | _ => cases passes

theorem since_kept {t next : Tx Row Key}
    (stepped : StatementStep schema test change t next) : next.since = t.since := by
  cases stepped with
  | start => rfl
  | visit scanning next version own kept =>
      have since {found : Option Row} {time : Int} : (t.lock schema found time).since = t.since :=
        (lock_frame t found time).2.2.1
      simp only [Tx.visited]
      split
      · split
        · exact since
        · exact since
      · exact since

-- The code after a step of its command.
def onward (c : Cmd) (next : Reply c → Service Value) : Option (Reply c) → Service Value
  | none => .call c next
  | some answer => next answer

theorem refusing_locked {reply : Option (Except SqlError (List Row))}
    {rest : Except SqlError (List Row) → Service Value} {t : Tx Row Key} (valid : WorldValid w)
    (validAfter : WorldValid after) (log : after.db.log = w.db.log)
    (base : after.db.base = w.db.base) (standing : Standing a floor sess w)
    (running : w.db.txs pid = some t) (since : floor ≤ t.since)
    (sofar : Progress schema (sessionWithID sess.id) none (.empty began opened) t)
    (found : ∀ sess : Session, sess.userID ≠ a → rest (.ok [.session sess]) = .call .rollback
      fun _ => .fail .unauthorizedPermission)
    (failed : ∀ err, rest (.error err) = .call .rollback fun _ => .fail
      (.wrapped "session by id" (.sql err)))
    (swept : Swept w pid (sessionWithID sess.id) none reply after) :
    Refusing cfg a floor (after.view pid) sess.id
      (onward (.lock (sessionWithID sess.id)) rest reply) := by
  have statement := swept_statement valid swept
  generalize atEnd : after.view pid = v at statement
  cases statement with
  | step here stepped =>
      cases running.symm.trans here
      exact .locking rfl (show (View.within _ _).tx = _ from rfl) (since_kept stepped ▸ since)
        (step_progress rfl sofar stepped) found failed
  | @done t' scan here scanning spent keyed =>
      cases running.symm.trans here
      have open' : after.db.txs pid = some (t.finished scan) := by
        have tx := congrArg View.tx atEnd
        exact tx
      have scanningNow : Scanning schema (sessionWithID sess.id) none
          (.empty began opened) t scan := by
        rcases sofar with rfl | ⟨scan',sofar⟩
        · cases scanning
        · cases sofar.scanning.symm.trans scanning
          exact sofar
      have ran : Ran schema (sessionWithID sess.id) none (.empty began opened)
        (t.finished scan) scan := ⟨t,⟨scanningNow,spent,keyed⟩,rfl⟩
      have fits := validAfter.db.fits pid _ open'
      rw [log,base] at fits
      obtain ⟨early,late,_⟩ := fits.scans scan (List.mem_append_right _ List.mem_cons_self)
      have hits : scan.hits = [.session sess] :=
        ran.finds_point rfl fits valid.db.chronicle.keyed standing.current
        (standing.stored scan.start (since.trans early) late) (by simp [sessionWithID]) fun other =>
        session_only
      refine .undoing ?_ (.inl rfl)
      change rest (.ok scan.hits) = _
      rw [hits]
      exact found sess standing.owner
  | failed => exact .undoing (failed _) (.inr ⟨_,_,rfl⟩)

theorem refusing_executed {c : Cmd} {next : Reply c → Service Value} {reply : Option (Reply c)}
    (nothing : ∀ permission, cfg.can .user permission = false) (valid : WorldValid w)
    (validAfter : WorldValid after) (standing : Standing a floor sess w)
    (stage : Refusing cfg a floor (w.view pid) sess.id (.call c next))
    (done : Executed cfg w pid c reply after) :
    Refusing cfg a floor (after.view pid) sess.id (onward c next reply) := by
  cases stage with
  | asked same asks =>
      cases same
      cases done with
      | opened ran =>
          obtain ⟨_,rfl⟩ := openTx_parts ran
          refine .locking rfl (by simp only [World.view,Function.update_self]; rfl) standing.grown
            (.inl rfl) (fun sess other => ?_) fun err => rfl
          simp only [scanOne,Row.session?,settle,Program.bind,bind_eq]
          rw [requireSelfOr_refuses nothing asks other]
          rfl
      | unopened => exact .ended rfl (.inr ⟨_,_,rfl⟩)
  | locking same running since sofar found failed =>
      cases same
      cases done with
      | lock swept =>
          have done : Executed cfg w pid (.lock (sessionWithID sess.id)) reply after := .lock swept
          have log := (executed_log done).resolve_right (by rintro ⟨⟨⟩,_⟩)
          exact refusing_locked valid validAfter log
            (executed_grows done).base standing running since sofar found failed swept
  | undoing same refused =>
      cases same
      cases done
      exact .ended rfl refused
  | ended same _ => cases same

theorem turns_log {s : Api} (turns : Turns cfg s act after) :
    after.db.log = s.shared.db.log ∨ ∃ entry, after.db.log = entry :: s.shared.db.log := by
  cases turns with
  | executed _ ran => exact (executed_log (exec_executed ran)).imp_right fun ⟨_,_,_,log⟩ => ⟨_,log⟩
  | _ => exact .inl rfl

section Runs
variable {init s : Api} (nothing : ∀ permission, cfg.can .user permission = false)
  (valid : WorldValid init.shared) (idle : ∀ pid, init.threads pid = none)
  (stored : .session sess ∈ init.shared.committed) (owner : sess.userID ≠ a)
include nothing valid idle stored owner

theorem reached_standing (path : Reached (api cfg) (within a) init s) :
    Standing a init.shared.db.log.length sess s.shared := by
  induction path with
  | refl =>
      refine ⟨owner,fun n low high => ?_,le_rfl⟩
      rw [Nat.le_antisymm high low,Schema.rowsAt_length]
      exact stored
  | @step s act next prior allowed advanced ih =>
      have now := ((reached_confined nothing valid idle
        (.step prior allowed advanced)).untouched.rows (.session sess) owner).mpr stored
      have base := (moves_grows (advance_moves advanced)).base
      rcases turns_log (moves_turns (advance_moves advanced)) with log | ⟨entry,log⟩
      · refine ⟨owner,fun n low high => ?_,log ▸ ih.grown⟩
        rw [log] at high ⊢
        rw [base]
        exact ih.stored n low high
      · refine ⟨owner,fun n low high => ?_,?_⟩
        · by_cases past : n ≤ s.shared.db.log.length
          · rw [log,base,Schema.rowsAt_cons past]
            exact ih.stored n low past
          · have last : n = next.shared.db.log.length := by
              rw [log,List.length_cons] at high ⊢
              omega
            rw [last,Schema.rowsAt_length]
            exact now
        · rw [log,List.length_cons]
          exact Nat.le_succ_of_le ih.grown

theorem reached_refusing (path : Reached (api cfg) (within a) init s) :
    ∀ pid ctx code, s.threads pid = some code →
    s.shared.requests pid = some (.revokeSession ctx sess.id) →
    Refusing cfg a init.shared.db.log.length (s.shared.view pid) sess.id code := by
  induction path with
  | refl =>
      intro pid ctx code here
      rw [idle] at here
      cases here
  | @step s act next prior allowed advanced ih =>
      have standing := reached_standing nothing valid idle stored owner prior
      have keptNow := (reached_keeps valid idle prior).1
      have keptNext := (reached_keeps valid idle (.step prior allowed advanced)).1
      intro other ctx code here asked
      cases advance_moves advanced with
      | @spawn pid request shared accepted =>
          obtain ⟨_,rfl⟩ := accept_parts accepted
          rcases updated_thread here with ⟨rfl,started⟩ | ⟨different,there⟩
          · cases started
            simp only [Function.update_self,Option.some.injEq] at asked
            subst asked
            exact .asked rfl allowed.1
          · rw [accept_frame accepted different]
            simp only [Function.update_of_ne different] at asked
            exact ih other ctx code there asked
      | @wait pid c rest choice shared there ran =>
          have done := exec_executed ran
          rw [executed_requests done] at asked
          by_cases same : other = pid
          · subst same
            cases there.symm.trans here
            exact refusing_executed nothing keptNow keptNext standing
              (ih other ctx _ here asked) done
          · rw [executed_frame done same]
            exact ih other ctx code here asked
      | @reply pid c rest choice shared answer there ran =>
          have done := exec_executed ran
          rw [executed_requests done] at asked
          rcases updated_thread here with ⟨rfl,continued⟩ | ⟨different,here⟩
          · cases continued
            exact refusing_executed nothing keptNow keptNext standing
              (ih other ctx _ there asked) done
          · rw [executed_frame done different]
            exact ih other ctx code here asked
      | @kill pid gone _ =>
          rcases updated_thread here with ⟨_,gone⟩ | ⟨different,there⟩
          · cases gone
          · change Refusing cfg a _ ((s.shared.abort pid).view other) _ _
            rw [abandon_frame _ different]
            exact ih other ctx code there asked
      | env ran =>
          rw [surroundings_view ran]
          rcases surroundings_parts ran with ⟨elapsed,rfl⟩ | ⟨objects,rfl⟩
          · exact ih other ctx code here asked
          · exact ih other ctx code here asked

end Runs
end Foreign

section Alone
variable {cfg : Config} {a : UUID} {ctx : Ctx} {told : Event → Prop} {rows : Finset Row}
  {test : Row → Bool} {row : Row}

theorem finds_only {found : List Row} (member : row ∈ rows) (passes : test row = true)
    (only : ∀ other ∈ rows, test other = true → other = row) :
    Finds rows test found ↔ found = [row] := by
  constructor
  · intro finds
    have inside := (finds.2 row).mpr ⟨member,passes⟩
    have all : ∀ other ∈ found, other = row := fun other there =>
      only other ((finds.2 other).mp there).1 ((finds.2 other).mp there).2
    match found with
    | [] => cases inside
    | [one] => rw [all one List.mem_cons_self]
    | one :: two :: rest =>
        have distinct := finds.1
        rw [all one (by simp),all two (by simp)] at distinct
        simp at distinct
  · rintro rfl
    refine ⟨List.nodup_singleton row,fun other => ?_⟩
    rw [List.mem_singleton]
    exact ⟨fun same => same ▸ ⟨member,passes⟩,fun ⟨there,also⟩ => only other there also⟩

-- A session of somebody else's is found, refused and left as it is.
theorem revokeSession_refused (nothing : ∀ permission, cfg.can .user permission = false)
    (asks : plain a ctx = true) (legal : Legal rows) (stored : .session sess ∈ rows)
    (owner : sess.userID ≠ a) :
    Runs (Atomic cfg told) (serve cfg (.revokeSession ctx sess.id)) ⟨rows,none⟩ result last ↔
      result = .error .unauthorizedPermission ∧ last = ⟨rows,none⟩ := by
  have finds {found : List Row} : Finds rows (sessionWithID sess.id) found ↔
    found = [.session sess] := finds_only stored (by simp [sessionWithID]) fun other there passes =>
    (legal other there _ stored).1 (session_only passes)
  have refused := requireSelfOr_refuses nothing asks owner .revokeUserSessions
  constructor
  · intro ran
    cases ran with
    | call opened rest =>
        cases opened with
        | opened idle =>
            cases rest with
            | call locked rest =>
                cases locked with
                | locked running found =>
                    cases running
                    cases finds.mp found
                    simp only [scanOne,Row.session?,settle,Program.bind,bind_eq,refused] at rest
                    cases rest with
                    | call undone rest =>
                        cases undone with
                        | rolledBack => cases rest; exact ⟨rfl,rfl⟩
                        | outside elsewhere => cases elsewhere
                | outside elsewhere => cases elsewhere
        | outside elsewhere => cases elsewhere
  · rintro ⟨rfl,rfl⟩
    have opened : Atomic cfg told ⟨rows,none⟩ .openTx (some (.ok ())) ⟨rows,some (0,rows)⟩ :=
      .opened rfl
    refine .call opened (.call (.locked rfl (finds.mpr rfl)) ?_)
    simp only [scanOne,Row.session?,settle,Program.bind,bind_eq,refused]
    exact .call .rolledBack .fail

-- The live account of an address is nobody else's.
theorem email_only (legal : Legal rows) (stored : .user usr ∈ rows) (live : usr.deletedAt = none)
    (there : row ∈ rows)
    (passes : liveUser (fun u => u.email = usr.user.email) row = true) : row = .user usr := by
  cases row with
  | user other =>
      simp only [liveUser,Bool.and_eq_true,Option.isNone_iff_eq_none,decide_eq_true_eq] at passes
      by_cases same : Row.key (.user other) = Row.key (.user usr)
      · exact (legal _ there _ stored).1 same
      · have apart := (legal _ there _ stored).2 same
        simp [schema,Row.violation,passes.1,passes.2,live] at apart
  | _ => cases passes

theorem getUserByEmail_refused (nothing : ∀ permission, cfg.can .user permission = false)
    (asks : plain a ctx = true) (legal : Legal rows) (stored : .user usr ∈ rows)
    (live : usr.deletedAt = none) (other : usr.user.id ≠ a) :
    Runs (Atomic cfg told) (look cfg repo ctx (.getUserByEmail usr.user.email))
      ⟨rows,none⟩ result last ↔
      result = .error .unauthorizedPermission ∧ last = ⟨rows,none⟩ := by
  have finds {found : List Row} : Finds rows (liveUser fun u => u.email = usr.user.email) found ↔
    found = [.user usr] := finds_only stored (by simp [liveUser,live]) fun row there passes =>
    email_only legal stored live there passes
  have refused := requireSelfOr_refuses nothing asks other .userRead
  constructor
  · intro ran
    cases ran with
    | call selected rest =>
        cases selected with
        | selected found =>
            cases finds.mp found
            simp only [scanOne,Row.user?,settle,bind_eq,Program.bind,refused] at rest
            cases rest
            exact ⟨rfl,rfl⟩
        | outside elsewhere => cases elsewhere
  · rintro ⟨rfl,rfl⟩
    refine .call (.selected (finds.mpr rfl)) ?_
    simp only [scanOne,Row.user?,settle,bind_eq,Program.bind,refused]
    exact .fail

end Alone

section Lookups
variable {cfg : Config} {a : UUID} {ctx : Ctx} {repo : Listings} {lookup : Lookup} {v : View}

-- A lookup that names somebody else, or everybody.
def Beyond (a : UUID) : Lookup → Prop
  | .listUser _ => True
  | .listEntries _ => True
  | .getUserByID userID => userID ≠ a
  | .listUserSessions userID => userID ≠ a
  | .getUserByEmail _ => False

def Own (a : UUID) : Found → Prop
  | .user usr => usr.id = a
  | .sessions sessions => ∀ sess ∈ sessions, sess.userID = a
  | _ => False

def Reading : Cmd → Prop
  | .clock => True
  | .select _ => True
  | _ => False

theorem look_refused (nothing : ∀ permission, cfg.can .user permission = false)
    (asks : plain a ctx = true) (beyond : Beyond a lookup) :
    look cfg repo ctx lookup = .fail .unauthorizedPermission := by
  cases lookup with
  | listUser search =>
      rw [look,UserService.listUser,require_refuses nothing asks]
      rfl
  | getUserByID userID =>
      rw [look,UserService.getUserByID,requireSelfOr_refuses nothing asks beyond]
      rfl
  | getUserByEmail email => cases beyond
  | listUserSessions userID =>
      rw [look,AuthService.listUserSessions,requireSelfOr_refuses nothing asks beyond]
      rfl
  | listEntries search =>
      rw [look,AuditService.list,require_refuses nothing asks]
      rfl

-- It reads, and what it answers with is this user's own.
def Shows (cfg : Config) (a : UUID) (code : Service Found) (v : View) : Prop :=
  Meets (Local cfg) (fun _ c => Reading c) (fun _ result => ∀ found, result = .ok found →
    Own a found) code v

theorem shows_fail (v : View) (err : Err) : Shows cfg a (.fail err) v := nofun

theorem query_shows {next : User → Service Found}
    (found : ∀ usr after, test usr = true → Shows cfg a (next usr) after) :
    Shows cfg a ((getUserBy .pool test).bind next) v := by
  intro middle _
  refine ⟨trivial,fun reply after stepped => ?_⟩
  cases stepped with
  | unselected => exact shows_fail _ _
  | selected passed =>
      rename_i rows _
      match rows with
      | [] => exact shows_fail _ _
      | [.user row] =>
          have passes := passed _ List.mem_cons_self
          simp only [liveUser,Bool.and_eq_true] at passes
          exact found row.user _ passes.2
      | [.session _] => exact shows_fail _ _
      | [.registration _] => exact shows_fail _ _
      | [.recovery _] => exact shows_fail _ _
      | [.audit _] => exact shows_fail _ _
      | _ :: _ :: _ => exact shows_fail _ _

theorem sessions_shows (v : View) : Shows cfg a (Found.sessions <$> listSessions a) v := by
  intro _ _
  refine ⟨trivial,fun started after _ => ?_⟩
  intro _ _
  refine ⟨trivial,fun reply after stepped => ?_⟩
  cases stepped with
  | unselected => exact shows_fail _ _
  | selected passed =>
      rintro found ⟨⟩ sess member
      simp only [List.mem_mergeSort,List.mem_map,List.mem_filterMap] at member
      obtain ⟨whole,⟨row,there,same⟩,rfl⟩ := member
      have passes := passed row there
      cases row with
      | session stored =>
          cases same
          simp only [listedSession,Bool.and_eq_true,decide_eq_true_eq] at passes
          exact passes.1.1
      | _ => cases same

theorem look_shows (nothing : ∀ permission, cfg.can .user permission = false)
    (asks : plain a ctx = true) (lookup : Lookup) (v : View) :
    Shows cfg a (look cfg repo ctx lookup) v := by
  by_cases beyond : Beyond a lookup
  · rw [look_refused nothing asks beyond]
    exact shows_fail v _
  obtain ⟨_,actor⟩ := plain_actor asks
  have permitted (permission : Permission) : requireSelfOr cfg ctx a permission = .done () := by
    simp [requireSelfOr,actor]
  cases lookup with
  | listUser search => exact absurd trivial beyond
  | listEntries search => exact absurd trivial beyond
  | getUserByID userID =>
      cases not_not.mp beyond
      rw [look,UserService.getUserByID,permitted]
      refine query_shows fun usr after same => ?_
      rintro found ⟨⟩
      exact (of_decide_eq_true same : usr.id = a)
  | listUserSessions userID =>
      cases not_not.mp beyond
      rw [look,AuthService.listUserSessions,permitted]
      exact sessions_shows v
  | getUserByEmail email =>
      change Shows cfg a (((getByEmail .pool email).bind
        fun usr => (requireSelfOr cfg ctx usr.id .userRead).bind fun _ => .done usr).bind fun usr =>
        .done (.user usr)) v
      rw [Program.bind_assoc]
      refine query_shows fun usr after _ => ?_
      by_cases mine : usr.id = a
      · rw [mine,permitted]
        rintro found ⟨⟩
        exact mine
      · rw [requireSelfOr_refuses nothing asks mine]
        exact shows_fail _ _

end Lookups

-- From any tables that respect their indexes, with no request in progress.
structure Begins (cfg : Config) (allow : Api → Act Request Choice Surroundings → Prop)
    (init s : Api) : Prop where
  valid : WorldValid init.shared
  idle : ∀ pid, init.threads pid = none
  path : Reached (api cfg) allow init s

-- What a user without permissions can do to the others, and learn of them.
structure Bounds (cfg : Config) (a : UUID) : Prop where
  untouched : ∀ init s, Begins cfg (within a) init s → Untouched a init.shared s.shared
  silent : ∀ init s, Begins cfg (within a) init s →
    ∀ pid value, s.threads pid = some (.done value) → value = .nil
  shown : ∀ repo ctx lookup v, plain a ctx = true → Shows cfg a (look cfg repo ctx lookup) v
  accounts : ∀ request b, calls a request = true → aimed request = some b → b ≠ a →
    serve cfg request = .fail .unauthorizedPermission
  lookups : ∀ repo ctx lookup, plain a ctx = true → Beyond a lookup →
    look cfg repo ctx lookup = .fail .unauthorizedPermission
  emails : ∀ told rows repo ctx usr result last, plain a ctx = true → Legal rows →
    .user usr ∈ rows → usr.deletedAt = none → usr.user.id ≠ a →
    (Runs (Atomic cfg told) (look cfg repo ctx (.getUserByEmail usr.user.email))
    ⟨rows,none⟩ result last ↔ result = .error .unauthorizedPermission ∧ last = ⟨rows,none⟩)
  sessions : ∀ told rows ctx sess result last, plain a ctx = true → Legal rows →
    .session sess ∈ rows → sess.userID ≠ a →
    (Runs (Atomic cfg told) (serve cfg (.revokeSession ctx sess.id)) ⟨rows,none⟩ result last ↔
    result = .error .unauthorizedPermission ∧ last = ⟨rows,none⟩)
  -- Amid other requests the statements can also wait, or fail by themselves.
  interleaved : ∀ init s, Begins cfg (within a) init s →
    ∀ pid ctx sess, .session sess ∈ init.shared.committed → sess.userID ≠ a →
    s.shared.requests pid = some (.revokeSession ctx sess.id) →
    (∀ value, s.threads pid ≠ some (.done value)) ∧ ∀ err, s.threads pid = some (.fail err) →
    Refusal err
  roles : ∀ allow init s, Begins cfg allow init s → RolesKept init.shared s.shared

theorem Refusing.ends {v : View} {code : Service Value}
    (stage : Refusing cfg a floor v sessID code) :
    (∀ value, code ≠ .done value) ∧ ∀ err, code = .fail err → Refusal err := by
  cases stage with
  | asked same _ =>
      rw [same]
      exact ⟨nofun,nofun⟩
  | locking same =>
      rw [same]
      exact ⟨nofun,nofun⟩
  | undoing same _ =>
      rw [same]
      exact ⟨nofun,nofun⟩
  | ended same refused =>
      rw [same]
      refine ⟨nofun,?_⟩
      rintro err ⟨⟩
      exact refused

theorem plain_user_bounded (cfg : Config) (order : List Entity) (a : UUID) :
    Bounds (authorized cfg order) a where
  untouched init s run :=
    (reached_confined (user_unauthorized cfg order) run.valid run.idle run.path).untouched
  silent init s run pid value ended := show Returns (· = .nil) (.done value : Service Value) from
    reached_returns (fun _ _ _ allowed => calls_silent allowed.1) run.idle run.path pid _ ended
  shown repo ctx lookup v asks := look_shows (user_unauthorized cfg order) asks lookup v
  accounts request b asks target other :=
    aimed_refused (user_unauthorized cfg order) asks target other
  lookups repo ctx lookup asks beyond := look_refused (user_unauthorized cfg order) asks beyond
  emails told rows repo ctx usr result last asks legal stored live other :=
    getUserByEmail_refused (user_unauthorized cfg order) asks legal stored live other
  sessions told rows ctx sess result last asks legal stored owner :=
    revokeSession_refused (user_unauthorized cfg order) asks legal stored owner
  interleaved init s run pid ctx sess stored owner asked := by
    have stage := reached_refusing (user_unauthorized cfg order) run.valid run.idle stored owner
      run.path pid ctx
    refine ⟨fun value ended => ?_,fun err ended => ?_⟩
    · exact (stage _ ended asked).ends.1 value rfl
    · exact (stage _ ended asked).ends.2 err rfl
  roles allow init s run := reached_roles run.valid run.idle run.path

namespace Controls
open RestApi.Controls ProfilePictures

def bob : User := {ann with id := "u2",email := "b@x",profilePicture := some "bob.png"}

abbrev wired : Config := authorized config [.auth,.user,.audit]
abbrev init (rows : List Row) : Api :=
  gallery rows 0 ["u1","u2"] (1000*second) ["profiles/old.png","profiles/bob.png"] []

theorem init_valid {rows : List Row} (keyed : schema.Keyed rows) (apart : schema.Apart rows) :
    WorldValid (init rows).shared :=
  (start_valid keyed apart).beside rfl rfl rfl rfl rfl

abbrev rows : List Row := [.user ⟨pictured,none⟩,.user ⟨bob,none⟩]

-- Ann has a new picture, and Bob's is where it was.
theorem plain_user_bounded_picture : ∃ s, Reached (api wired) (within "u1") (init rows) s ∧
    s.shared.objects = ["profiles/new.png","profiles/bob.png"] ∧
      Untouched "u1" (init rows).shared s.shared := by
  obtain ⟨s,path,found⟩ := run_finds (api wired) (within "u1") (init rows) (repictured 0)
    (fun s => s.shared.objects = ["profiles/new.png","profiles/bob.png"]) (by decide +kernel)
  refine ⟨s,path,found,(plain_user_bounded config [.auth,.user,.audit] "u1").untouched _ _
    ⟨init_valid ?_ ?_,fun _ => rfl,path⟩⟩
  · simp [Schema.Keyed,schema,Row.key,pictured,bob,ann]
  · simp [Schema.Apart,schema,Row.key,Row.violation,pictured,bob,ann]

def sharer : User := {bob with profilePicture := some "old.png"}
abbrev sharing : List Row := [.user ⟨pictured,none⟩,.user ⟨sharer,none⟩]

-- A start in which both rows name one image: Ann's change takes Bob's away.
theorem others_picture_deleted : WorldValid (init sharing).shared ∧
    (∀ pid, (init sharing).threads pid = none) ∧
    picture (.user ⟨sharer,none⟩) = some "profiles/old.png" ∧
      "profiles/old.png" ∈ (init sharing).shared.objects ∧
    ∃ s, Reached (api wired) (within "u1") (init sharing) s ∧
      .user ⟨sharer,none⟩ ∈ s.shared.committed ∧ "profiles/old.png" ∉ s.shared.objects := by
  refine ⟨init_valid ?_ ?_,fun _ => rfl,by decide,by decide,?_⟩
  · simp [Schema.Keyed,schema,Row.key,pictured,sharer,bob,ann]
  · simp [Schema.Apart,schema,Row.key,Row.violation,pictured,sharer,bob,ann]
  · exact run_finds (api wired) (within "u1") (init sharing) (repictured 0)
      (fun s => .user ⟨sharer,none⟩ ∈ s.shared.committed ∧ "profiles/old.png" ∉ s.shared.objects)
        (by decide +kernel)

end Controls
end RestApi.PlainUser
