import RestApi.History
import RestApi.Inputs
import RestApi.Replies
import RestApi.RowProperty

namespace RestApi.Columns
open Pool Program RowStore Service

section Constraints

-- VARCHAR(n) takes n characters; of a longer text the rest may only be spaces, which are cut.
def Within (limit : Nat) (text : String) : Prop := ∀ c ∈ text.toList.drop limit, c = ' '

instance (limit : Nat) (text : String) : Decidable (Within limit text) :=
  List.decidableBAll (· = ' ') (text.toList.drop limit)

-- NOT NULL is in the types: a nullable column is an Option.
def UserFits (u : User) : Prop :=
  Within 100 u.name ∧ Within 50 u.email ∧ (∀ phone ∈ u.phone, Within 30 phone) ∧
    Within 255 u.password ∧ (∀ image ∈ u.profilePicture, Within 255 image) ∧
    u.role.text ∈ ["admin","user","system"] ∧ ∀ g ∈ u.gender, g ∈ ["M","F","O"]

def RowFits : Row → Prop
  | .user row => UserFits row.user
  | .session row => Within 255 row.userAgent
  | .registration row => Within 100 row.name ∧ Within 50 row.email
  | .recovery _ => True
  | .audit _ => True

instance (u : User) : Decidable (UserFits u) := inferInstanceAs (Decidable (_ ∧ _))

instance : DecidablePred RowFits
  | .user row => inferInstanceAs (Decidable (UserFits row.user))
  | .session row => inferInstanceAs (Decidable (Within 255 row.userAgent))
  | .registration row => inferInstanceAs (Decidable (Within 100 row.name ∧ Within 50 row.email))
  | .recovery _ => isTrue trivial
  | .audit _ => isTrue trivial

-- The rows of users, sessions and registration_tokens.
def Limited : Row → Bool
  | .user _ => true
  | .session _ => true
  | .registration _ => true
  | .recovery _ => false
  | .audit _ => false

inductive Verb where
  | insert
  | update
  deriving DecidableEq, Repr

-- The requests that write those rows, logging out and revoking included, which update a
-- session too.
def Covered : Request → Bool
  | .register _ _ _ => true
  | .completeRegistration _ _ _ => true
  | .login _ _ _ => true
  | .refreshAccessToken _ _ => true
  | .logout _ _ => true
  | .revokeSession _ _ => true
  | .updateUser _ _ _ _ _ => true
  | _ => false

-- The texts of a request that go into a column by an INSERT or an UPDATE, each with the
-- limit of that column.
def texts : Verb → Request → List (Nat × String)
  | .insert,.register _ name email => [(100,name),(50,email)]
  | .insert,.login ctx _ _ => ctx.audit.toList.map fun a => (255,a.userAgent)
  | .update,.refreshAccessToken ctx _ => ctx.audit.toList.map fun a => (255,a.userAgent)
  | .update,.updateUser _ _ name phone _ => [(100,name),(30,phone)]
  | _,_ => []

def Sized (verb : Verb) (request : Request) : Prop :=
  ∀ text ∈ texts verb request, Within text.1 text.2

instance (verb : Verb) (request : Request) : Decidable (Sized verb request) :=
  inferInstanceAs (Decidable (∀ text ∈ texts verb request, Within text.1 text.2))

theorem within_short (short : text.length ≤ limit) : Within limit text := by
  have none' : text.toList.drop limit = [] := List.drop_eq_nil_of_le short
  intro c member
  rw [none'] at member
  cases member

theorem fits_unlimited {row : Row} (free : ¬Limited row) : RowFits row := by
  cases row with
  | recovery _ => trivial
  | audit _ => trivial
  | _ => exact absurd rfl free

theorem sized_free (free : texts verb request = []) : Sized verb request := by
  intro text member
  rw [free] at member
  cases member

theorem sized_agent {ctx : Ctx} {a : AuditContext}
    (texted : texts verb request = ctx.audit.toList.map fun a => (255,a.userAgent))
    (given : ctx.audit = some a) : Sized verb request ↔ Within 255 a.userAgent := by
  simp [Sized,texted,given]

end Constraints

-- What a table shows fits its columns; a bcrypt digest is 60 characters long.
def Shown : (c : Cmd) → Reply c → Prop
  | .select _,.ok rows => ∀ row ∈ rows, RowFits row
  | .lock _,.ok rows => ∀ row ∈ rows, RowFits row
  | .bcrypt _,.ok digest => digest.length ≤ 60
  | _,_ => True

-- The rows a statement writes fit exactly when the texts of the request do.
def Exactly (request : Request) : Cmd → Prop
  | .insert make =>
      ∀ began serial, Limited (make began serial) →
        (RowFits (make began serial) ↔ Sized .insert request)
  | .update test change =>
      ∀ began row, RowFits row → (Sized .update request → RowFits (change began row)) ∧
      (test row → RowFits (change began row) → Sized .update request)
  | _ => True

def Owes (v : Option Request) (c : Cmd) : Prop := ∀ request ∈ v, Covered request → Exactly request c

theorem owes_judged : Judges Owes fun _ => False where
  free v c writes _ _ _ := by cases c <;> trivial
  spares _ _ := id
  through _ _ := id

section Statements
variable {request : Request} {test : Row → Bool} {change : Time → Row → Row}
  {make : Time → Nat → Row}

theorem insert_owes (exact' : ∀ began serial, RowFits (make began serial) ↔ Sized .insert request) :
    Owes (some request) (.insert make) := by
  rintro _ ⟨⟩ _ began serial _
  exact exact' began serial

theorem update_owes
    (keeps : ∀ began row, RowFits row → Sized .update request → RowFits (change began row))
    (only : ∀ began row, test row → RowFits (change began row) → Sized .update request) :
    Owes (some request) (.update test change) := by
  rintro _ ⟨⟩ _ began row fits
  exact ⟨keeps began row fits,only began row⟩

theorem audit_owes (make : Time → Nat → AuditEntry) :
    Owes v (.insert fun began serial => .audit (make began serial)) := by
  rintro _ _ _ _ _ ⟨⟩

-- A statement that carries no text of the request.
theorem free_owes (free : texts .update request = [])
    (keeps : ∀ began row, RowFits row → RowFits (change began row)) :
    Owes (some request) (.update test change) :=
  update_owes (fun began row fits _ => keeps began row fits) fun _ _ _ _ => sized_free free

theorem supersede_fits (began : Time) (row : Row) (fits : RowFits row) :
    RowFits (supersede began row) := by
  cases row <;> exact fits

theorem useRegistration_fits (usedAt : Option Time) (began : Time) (row : Row)
    (fits : RowFits row) : RowFits (useRegistration usedAt began row) := by
  cases row <;> exact fits

theorem role_fits (role : Role) : role.text ∈ ["admin","user","system"] := by cases role <;> decide

theorem rewriteUser_owes {u : User} (exact' : UserFits u ↔ Sized .update request) :
    Owes (some request) (.update (userWithID u.id) (rewriteUser u)) := by
  have same (row : UserRow) (began : Time) : RowFits (rewriteUser u began (.user row)) ↔
      Sized .update request := by
    rw [← exact']
    constructor
    · intro fits
      exact ⟨fits.1,fits.2.1,fits.2.2.1,fits.2.2.2.1,fits.2.2.2.2.1,role_fits _,fits.2.2.2.2.2.2⟩
    · intro fits
      exact ⟨fits.1,fits.2.1,fits.2.2.1,fits.2.2.2.1,fits.2.2.2.2.1,role_fits _,fits.2.2.2.2.2.2⟩
  apply update_owes
  · intro began row old sized
    cases row with
    | user row => exact (same row began).mpr sized
    | _ => exact old
  · intro began row passes fits
    cases row with
    | user row => exact (same row began).mp fits
    | _ => cases passes

theorem rewriteSession_owes {sess : Session}
    (exact' : Within 255 sess.userAgent ↔ Sized .update request) :
    Owes (some request) (.update (sessionWithID sess.id) (rewriteSession sess)) := by
  apply update_owes
  · intro began row old sized
    cases row with
    | session row => exact exact'.mpr sized
    | _ => exact old
  · intro began row passes fits
    cases row with
    | session row => exact exact'.mp fits
    | _ => cases passes

end Statements

section Requests
variable {cfg : Config} {v : Option Request}

-- A row that came out of a table.
theorem shown_fits {test : Row → Bool} {row : Row}
    (shown : Shown (.select test) (.ok [row]) ∨ Shown (.lock test) (.ok [row])) : RowFits row := by
  rcases shown with shown | shown
  · exact shown row List.mem_cons_self
  · exact shown row List.mem_cons_self

theorem getUserBy_fits (conn : Conn) (test : User → Bool) :
    Yields Shown Owes (fun _ => False) v UserFits (getUserBy conn test) := by
  refine yields_mono ?_ (query_yields owes_judged rfl conn)
  rintro u ⟨row,picked,shown⟩
  have fits := shown_fits shown
  cases row with
  | user row =>
      cases picked
      exact fits
  | _ => cases picked

theorem session_fits (conn : Conn) (test : Row → Bool) (text : String) :
    Yields Shown Owes (fun _ => False) v (fun sess : Session => Within 255 sess.userAgent)
      (query conn test (scanOne Row.session? .notFound text)) := by
  refine yields_mono ?_ (query_yields owes_judged rfl conn)
  rintro sess ⟨row,picked,shown⟩
  have fits := shown_fits shown
  cases row with
  | session row =>
      cases picked
      exact fits
  | _ => cases picked

theorem registration_fits (conn : Conn) (hash : String) :
    Yields Shown Owes (fun _ => False) v (fun token => Within 100 token.name ∧
      Within 50 token.email)
      (getRegistrationToken conn hash) := by
  refine yields_mono ?_ (query_yields owes_judged rfl conn)
  rintro token ⟨row,picked,shown⟩
  have fits := shown_fits shown
  cases row with
  | registration row =>
      cases picked
      exact fits
  | _ => cases picked

theorem register_fits (ctx : Ctx) (name email : String) :
    Yields Shown Owes (fun _ => False) (some (.register ctx name email)) (fun _ => True)
      (AuthService.register cfg ctx name email) := by
  have invites : Yields Shown Owes (fun _ => False) (some (.register ctx name email))
      (fun _ => True) (AuthService.invite cfg ctx name email) := by
    refine transact_yields owes_judged (yields_bind (yields_attempt (getUserBy_fits .tx _))
      fun result _ => ?_)
    cases result with
    | ok _ => exact id
    | error err =>
        dsimp only
        split
        · exact id
        · refine yields_then (wrapping_yields owes_judged
            (meets_heard (free_owes rfl supersede_fits) fun _ _ => execute_yields owes_judged _ _))
            fun _ => yields_bind (wrapping_yields owes_judged
            (newRegistrationToken_yields owes_judged name email)) fun made named => ?_
          obtain ⟨rfl,rfl⟩ := named
          have stored (began : Time) (serial : Nat) :
              RowFits (.registration {made.1 with id := serial,usedAt := none,revokedAt := none}) ↔
                Sized .insert (.register ctx made.1.name made.1.email) := by
                  simp [RowFits,Sized,texts]
          exact yields_then (wrapping_yields owes_judged
            (storeRegistrationToken_yields owes_judged (insert_owes stored))) fun _ =>
            yields_then (recordAudit_yields owes_judged audit_owes) fun _ => trivial
  have mails : ∀ raw, Yields Shown Owes (fun _ => False) (some (.register ctx name email))
    (fun _ => True) (do
      wrapping "registration succeeded but failed to send completion email" (produceEvent
        ⟨"email.user_registration",email,name,cfg.completeRegistrationFormEndpoint ++ "?token=" ++
          raw,cfg.registrationTokenTTL⟩)
      return Value.nil) := fun raw =>
    yields_then (wrapping_yields owes_judged (produceEvent_yields owes_judged _)) fun _ => trivial
  unfold AuthService.register
  dsimp only
  split
  · exact yields_then (require_yields owes_judged _) fun _ => yields_then invites mails
  · exact yields_then invites mails

theorem completeRegistration_fits (ctx : Ctx) (text password : String) :
    Yields Shown Owes (fun _ => False) (some (.completeRegistration ctx text password))
      (fun _ => True)
      (AuthService.completeRegistration cfg ctx text password) := by
  refine transact_yields owes_judged (yields_bind (yields_attempt (registration_fits .tx _))
    fun result settled => ?_)
  cases result with
  | error err => exact id
  | ok token =>
      refine yields_then (now_yields owes_judged) fun checkedAt => ?_
      split
      · exact id
      · refine yields_bind (hashPassword_yields owes_judged fun _ _ => False.elim)
          fun digest hashed => yields_bind (newUser_yields owes_judged fun _ _ _ _ => id)
          fun u made => yields_bind (useToken_yields owes_judged token) fun used _ =>
          yields_then (meets_heard (free_owes rfl (useRegistration_fits _))
          fun _ _ => execute_yields owes_judged _ _) fun _ =>
          yields_then (storeUser_yields owes_judged (insert_owes fun began serial => ?_))
          fun stored => yields_then (recordAudit_yields owes_judged audit_owes) fun _ => trivial
        obtain ⟨id,verified,rfl⟩ := made
        have short : Within 255 digest := within_short (Nat.le_trans hashed (by decide))
        exact ⟨fun _ => sized_free rfl,fun _ => ⟨settled.1,settled.2,nofun,short,nofun,role_fits _,
          nofun⟩⟩

theorem login_fits (ctx : Ctx) (email password : String) :
    Yields Shown Owes (fun _ => False) (some (.login ctx email password)) (fun _ => True)
      (AuthService.login cfg ctx email password) := by
  refine yields_bind (yields_attempt (getUserBy_fits .pool _)) fun result _ => ?_
  cases result with
  | error err => exact id
  | ok usr =>
      refine yields_then (verifyPassword_yields owes_judged password _) fun _ =>
        yields_bind (newSession_yields owes_judged) fun made given =>
        yields_then (signAccessToken_yields owes_judged _ _ _) fun _ =>
        yields_then (transact_yields owes_judged (yields_then
          (meets_heard (insert_owes fun began serial => ?_)
            fun _ _ => execute_yields owes_judged _ _) fun _ =>
            recordAudit_yields owes_judged audit_owes)) fun _ => trivial
      obtain ⟨a,there,same⟩ := given
      rw [sized_agent rfl there,← same]
      exact Iff.rfl

theorem refreshAccessToken_fits (ctx : Ctx) (text : String) :
    Yields Shown Owes (fun _ => False) (some (.refreshAccessToken ctx text)) (fun _ => True)
      (AuthService.refreshAccessToken cfg ctx text) := by
  refine transact_yields owes_judged (yields_bind (yields_attempt (session_fits .tx _ _))
    fun result _ => ?_)
  cases result with
  | error err => exact id
  | ok sess =>
      refine yields_then (now_yields owes_judged) fun checkedAt => ?_
      split
      · exact id
      · split
        · exact id
        · refine yields_bind (getUserBy_fits .tx _) fun u _ =>
            yields_then (signAccessToken_yields owes_judged _ _ _) fun _ =>
            yields_bind (rotate_yields owes_judged sess) fun made given =>
            yields_then (meets_heard (rewriteSession_owes ?_)
            fun _ _ => execute_yields owes_judged _ _) fun _ => trivial
          obtain ⟨a,hash,accessed,there,same⟩ := given
          rw [sized_agent rfl there,same]

theorem endSession_fits {request : Request} (free : texts .update request = []) (ctx : Ctx)
    {sess : Session} (fits : Within 255 sess.userAgent) (record : AuditRecord) :
    Yields Shown Owes (fun _ => False) (some request) (fun _ => True)
      (AuthService.endSession ctx sess record) := by
  have kept : Within 255 sess.userAgent ↔ Sized .update request :=
    ⟨fun _ => sized_free free,fun _ => fits⟩
  refine yields_then (now_yields owes_judged) fun checkedAt => ?_
  split
  · trivial
  · exact yields_then (now_yields owes_judged) fun revokedAt =>
      yields_then (meets_heard (rewriteSession_owes kept) fun _ _ => execute_yields owes_judged _ _)
        fun _ =>
      recordAudit_yields owes_judged audit_owes

theorem logout_fits (ctx : Ctx) (sessID : UUID) :
    Yields Shown Owes (fun _ => False) (some (.logout ctx sessID)) (fun _ => True)
      (AuthService.logout cfg ctx sessID) :=
  yields_then (transact_yields owes_judged
    (yields_bind (session_fits .tx _ _) fun _ fits => endSession_fits rfl ctx fits _)) fun _ =>
    yields_then (cleanupDeadline_yields owes_judged) fun deadline =>
    yields_bind (yields_attempt (revokeSessionMarker_yields owes_judged sessID deadline)) fun _ _ =>
    trivial

theorem revokeSession_fits (ctx : Ctx) (sessID : UUID) :
    Yields Shown Owes (fun _ => False) (some (.revokeSession ctx sessID)) (fun _ => True)
      (AuthService.revokeSession cfg ctx sessID) :=
  yields_then (transact_yields owes_judged (yields_bind (session_fits .tx _ _) fun _ fits =>
      yields_then (requireSelfOr_yields owes_judged _ _) fun _ => endSession_fits rfl ctx fits _))
        fun _ =>
    yields_then (cleanupDeadline_yields owes_judged) fun deadline =>
    yields_then (revokeSessionMarker_yields owes_judged sessID deadline) fun _ => trivial

-- User.validate lets only the genders of the column through.
theorem validate_gender {u : User} (valid : User.validate cfg u = .ok ()) :
    ∀ g ∈ u.gender, g ∈ ["M","F","O"] := by
  intro g member
  unfold User.validate at valid
  split_ifs at valid with _ _ _ _ wrong
  rw [Option.mem_def.mp member] at wrong
  have known : Gender.isValid g = true := by simpa using wrong
  simpa [Gender.isValid,or_assoc] using known

theorem setNullable_within :
    (∀ value ∈ setNullable text, Within limit value) ↔ Within limit text := by
  unfold setNullable
  split
  · rename_i empty
    subst empty
    exact ⟨fun _ => within_short (Nat.zero_le _),nofun⟩
  · simp

theorem updateUser_fits (ctx : Ctx) (userID : UUID) (name phone gender : String) :
    Yields Shown Owes (fun _ => False) (some (.updateUser ctx userID name phone gender))
      (fun _ => True)
      (UserService.updateUser cfg ctx userID name phone gender) := by
  refine yields_then (requireSelfOr_yields owes_judged userID _) fun _ =>
    transact_yields owes_judged (yields_bind (getUserBy_fits .tx _) fun prev fits => yields_bind
    (checked_yields fun _ _ => id) fun _ valid =>
    yields_then (updateUserRow_yields owes_judged (rewriteUser_owes ?_)) fun stored =>
    yields_then (recordAudit_yields owes_judged audit_owes) fun _ => trivial)
  have both : Sized .update (.updateUser ctx userID name phone gender) ↔ Within 100 name ∧
      Within 30 phone := by
    simp [Sized,texts]
  rw [both]
  constructor
  · intro written
    exact ⟨written.1,setNullable_within.mp written.2.2.1⟩
  · intro sized
    exact ⟨sized.1,fits.2.1,setNullable_within.mpr sized.2,fits.2.2.2.1,fits.2.2.2.2.1,role_fits _,
      validate_gender valid⟩

theorem serve_fits (request : Request) :
    Meets (Heard Shown) Owes (fun _ _ => True) (serve cfg request) (some request) := by
  have whole (fits : Yields Shown Owes (fun _ => False) (some request) (fun _ => True)
    (serve cfg request)) : Meets (Heard Shown) Owes (fun _ _ => True) (serve cfg request)
    (some request) := meets_mono (fun _ _ owed => owed) (fun _ _ _ => trivial) fits
  by_cases covered : Covered request
  · apply whole
    cases request with
    | register ctx name email => exact register_fits ctx name email
    | completeRegistration ctx text password => exact completeRegistration_fits ctx text password
    | login ctx email password => exact login_fits ctx email password
    | refreshAccessToken ctx text => exact refreshAccessToken_fits ctx text
    | logout ctx sessID => exact logout_fits ctx sessID
    | revokeSession ctx sessID => exact revokeSession_fits ctx sessID
    | updateUser ctx userID name phone gender => exact updateUser_fits ctx userID name phone gender
    | _ => cases covered
  · refine meets_always (fun c => ?_) (fun _ => trivial) _
    rintro _ ⟨⟩ counted
    exact absurd counted covered

end Requests

section Runs
variable {cfg : Config} {w after : World} {pid : Pid} {s : Api}

-- The database itself refuses a row of any other request that does not fit.
def enforced (cfg : Config) (s : Api) : Act Request Choice Surroundings → Prop
  | .step pid choice =>
      (∃ request ∈ s.shared.requests pid, Covered request ∧ Sized .insert request ∧
        Sized .update request) ∨
      ∀ next ∈ advance (api cfg) s (.step pid choice), ∀ t ∈ next.shared.db.txs pid,
        ∀ row ∈ t.writes, RowFits row
  | _ => True

instance (cfg : Config) (s : Api) (act : Act Request Choice Surroundings) :
    Decidable (enforced cfg s act) := by
  unfold enforced
  split <;> infer_instance

theorem executed_written {c : Cmd} {reply : Option (Reply c)} (all : Throughout schema RowFits w.db)
    (done : Executed cfg w pid c reply after)
    (inserts : ∀ make, c = .insert make → ∀ began serial, RowFits (make began serial))
    (updates : ∀ test change, c = .update test change → ∀ began row, RowFits row →
      RowFits (change began row)) :
    ∀ t, after.db.txs pid = some t → ∀ row ∈ t.writes, RowFits row := by
  have idle : ∀ t, (w.abort pid).db.txs pid = some t → ∀ row ∈ t.writes, RowFits row :=
    (rollback_throughout all pid).written pid
  have swept {test : Row → Bool} {change : Option (Time → Row → Row)} {reply after}
      (swept : Swept w pid test change reply after)
      (keeps : ∀ f, change = some f → ∀ began row, RowFits row → RowFits (f began row)) :
      ∀ t, after.db.txs pid = some t → ∀ row ∈ t.writes, RowFits row := by
    cases swept with
    | planned ran => exact (start_throughout all ran).written pid
    | visited _ ran =>
        refine visit_written all (fun f same => ?_) ran
        obtain ⟨g,there,rfl⟩ := Option.map_eq_some_iff.mp same
        exact keeps g there _
    | finished _ ran => exact (finish_throughout all ran).1.written pid
    | aborted => exact idle
  cases done with
  | lock ran => exact swept ran nofun
  | update ran => exact swept ran fun f same => Option.some.inj same ▸ updates _ _ rfl
  | inserted _ ran => exact insert_written all (inserts _ rfl _) ran
  | uninserted => exact idle
  | uncommitted => exact idle
  | rolledBack => exact idle
  | opened ran => exact (openTx_throughout all ran).written pid
  | committed ran => exact (commit_throughout all ran).written pid
  | unconfirmed ran => exact (commit_throughout all ran).written pid
  | _ => exact all.written pid

theorem executed_throughout {c : Cmd} {reply : Option (Reply c)}
    (all : Throughout schema RowFits w.db) (done : Executed cfg w pid c reply after)
    (written : ∀ t, after.db.txs pid = some t → ∀ row ∈ t.writes, RowFits row) :
    Throughout schema RowFits after.db := by
  have swept {test : Row → Bool} {change : Option (Time → Row → Row)} {reply after}
      (swept : Swept w pid test change reply after)
      (written : ∀ t, after.db.txs pid = some t → ∀ row ∈ t.writes, RowFits row) :
      Throughout schema RowFits after.db := by
    cases swept with
    | planned ran => exact start_throughout all ran
    | visited _ ran => exact visit_throughout all ran written
    | finished _ ran => exact (finish_throughout all ran).1
    | aborted => exact rollback_throughout all pid
  cases done with
  | lock ran => exact swept ran written
  | update ran => exact swept ran written
  | inserted _ ran => exact insert_throughout all ran written
  | uninserted => exact rollback_throughout all pid
  | uncommitted => exact rollback_throughout all pid
  | rolledBack => exact rollback_throughout all pid
  | opened ran => exact openTx_throughout all ran
  | committed ran => exact commit_throughout all ran
  | unconfirmed ran => exact commit_throughout all ran
  | _ => exact all

theorem executed_shown {c : Cmd} {answer : Reply c}
    (digests : ∀ digest plain, cfg.compareHashAndPassword digest plain = true → digest.length ≤ 60)
    (all : Throughout schema RowFits w.db)
    (done : Executed cfg w pid c (some answer) after) : Shown c answer := by
  cases done with
  | hashed _ verifies => exact digests _ _ verifies
  | selected => exact fun row member => all.committed row (List.mem_filter.mp member).1
  | lock swept =>
      cases swept with
      | finished _ ran => exact (finish_throughout all ran).2
      | aborted => trivial
  | _ => trivial

theorem enforced_written {c : Cmd} {next : Reply c → Service Value} {reply : Option (Reply c)}
    (all : Throughout schema RowFits s.shared.db) (here : s.threads pid = some (.call c next))
    (owed : Owes (s.shared.requests pid) c) (allowed : enforced cfg s (.step pid choice))
    (ran : exec cfg s.shared pid c choice = some (after,reply)) :
    ∀ t, after.db.txs pid = some t → ∀ row ∈ t.writes, RowFits row := by
  rcases allowed with ⟨request,asked,covered,inserted,updated⟩ | checked
  · have exact' := owed request asked covered
    refine executed_written all (exec_executed ran) ?_ ?_
    · rintro make rfl began serial
      by_cases limited : Limited (make began serial)
      · exact (exact' began serial limited).mpr inserted
      · exact fits_unlimited limited
    · rintro test change rfl began row fits
      exact (exact' began row fits).1 updated
  · have advanced : advance (api cfg) s (.step pid choice) =
      some (resume s pid c next (after,reply)) := by
      simp only [advance,here]
      exact congrArg (Option.map (resume s pid c next)) ran
    have shared : (resume s pid c next (after,reply)).shared = after := by cases reply <;> rfl
    have written := checked _ advanced
    rw [shared] at written
    exact written

theorem fitting_sound
   
    (digests : ∀ digest plain, cfg.compareHashAndPassword digest plain = true →
      digest.length ≤ 60) : Sound (api cfg) (enforced cfg)
      (fun w => Throughout schema RowFits w.db) World.requests (Heard Shown) Owes
      (fun _ _ => True) := by
  refine heard_sound serve_fits (fun all accepted => ?_) (fun all here owed allowed ran => ?_)
    (fun pid all => rollback_throughout all pid) fun {w event after} all ran => ?_
  · obtain ⟨_,rfl⟩ := accept_parts accepted
    exact all
  · refine ⟨executed_throughout all (exec_executed ran) (enforced_written all here owed allowed ran),
      fun answer same => ?_⟩
    exact executed_shown digests all (exec_executed (same ▸ ran))
  · cases event with
    | tick elapsed =>
        cases ran
        exact tick_throughout all elapsed
    | deleted path =>
        obtain ⟨_,same⟩ := Option.ite_none_right_eq_some.mp ran
        cases same
        exact all

end Runs

namespace Controls
open RestApi.Controls

-- One digest for every password.
def compact : Config := {config with compareHashAndPassword := fun hash _ => hash = "$"}

def ann : User := ⟨"u1","Ann","a@x",none,"$",none,none,.user,none,0,0⟩
abbrev init : Api := boot [.user ⟨ann,none⟩] 1 [] (1000*second)

def letters (length : Nat) : String := String.ofList (List.replicate length 'm')

theorem letters_long (long : limit < length) : ¬Within limit (letters length) := by
  intro within
  have dropped : (letters length).toList.drop limit = List.replicate (length - limit) 'm' := by
    rw [letters,String.toList_ofList,List.drop_replicate]
  have blank := within 'm' (dropped ▸ List.mem_replicate.mpr ⟨by omega,rfl⟩)
  exact absurd blank (by decide)

-- Enough of the email tag for the addresses here: something before the sign, a dot after it.
def isEmail (text : String) : Bool :=
  let domain := text.toList.dropWhile (· ≠ '@')
  domain.length < text.length && domain.contains '.'

def register (length : Nat) : Request := .register ⟨none,none⟩ (letters length) "b@x.io"
def login (length : Nat) : Request :=
  .login ⟨none,some ⟨"127.0.0.1","r1",letters length⟩⟩ "a@x" "secret"

def registering (length : Nat) : List (Act Request Choice Surroundings) :=
  [.spawn 0 (register length),.step 0 .runs,.step 0 (.plan []),.step 0 .runs,.step 0 (.plan []),
    .step 0 .runs,.step 0 (.value "t1"),.step 0 .runs]

def entering (length : Nat) : List (Act Request Choice Surroundings) :=
  [.spawn 0 (login length),.step 0 .runs,.step 0 (.value "s1"),.step 0 (.value "t1"),.step 0 .runs,
    .step 0 .runs,.step 0 .runs,.step 0 .runs]

-- The row a goroutine is about to insert.
def pending (s : Api) (pid : Pid) : Option Row := match s.threads pid with
  | some (.call (.insert make) _) => some (make s.shared.db.now s.shared.db.serial)
  | _ => none

theorem pending_insert {s : Api} (here : pending s pid = some row) :
    ∃ make next, s.threads pid = some (.call (.insert make) next) ∧
    make s.shared.db.now s.shared.db.serial = row := by
  unfold pending at here
  split at here
  · cases here
    exact ⟨_,_,by assumption,rfl⟩
  · cases here

theorem registering_pending (length : Nat) :
    (run (api compact) (fun _ _ => True) init (registering length)).bind (pending · 0) =
    some (.registration ⟨1,letters length,"b@x.io","#regt_t1",1000*second,1900*second,none,none⟩) :=
  rfl

theorem entering_pending (length : Nat) :
    (run (api compact) (fun _ _ => True) init (entering length)).bind (pending · 0) =
    some (.session ⟨"s1","u1","#rt_t1","127.0.0.1",letters length,1000*second,1000*second,
      4600*second,none⟩) :=
  rfl

end Controls
end RestApi.Columns
