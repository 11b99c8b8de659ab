import RestApi.ErrorResponses
import RestApi.History

namespace RestApi.Http
open Pool Program Service

abbrev Codes := List (Nat × String)

-- An error without an application error behind it is nobody's business.
def covered (docs : Codes) (err : Err) : Bool := match declared err.root with
  | none => true
  | some e => (e.response.status,e.response.code) ∈ docs

-- Code that fails with nothing but the errors it is known for.
abbrev Documented (docs : Codes) (good : α → Prop) (program : Service α) : Prop :=
  Yields (fun _ _ => True) (fun _ _ => True) (fun err => covered docs err = false) none good program

theorem documented_fail {docs : Codes} {good : α → Prop} {err : Err}
    (known : covered docs err = true) : Documented docs good (.fail err) := by
  intro unknown
  cases known.symm.trans unknown

theorem documented_call {docs : Codes} {good : α → Prop} {c : Cmd} {next : Reply c → Service α}
    (continues : ∀ reply, Documented docs good (next reply)) :
    Documented docs good (.call c next) :=
  meets_heard trivial fun reply _ => continues reply

-- The errors that are dealt with on the spot need not be documented.
theorem attempt_documented {docs inner : Codes} {good : α → Prop} {program : Service α}
    (first : Documented inner good program) :
    Documented docs (Settled (fun err => covered inner err = false) good) (attempt program) :=
  meets_settle (meets_mono (fun _ _ owed => owed) (fun _ _ settled => settled) first)

theorem attempt_any {docs : Codes} (program : Service α) :
    Documented docs (fun _ => True) (attempt program) := by
  induction program with
  | done value => trivial
  | fail err => trivial
  | call c rest ih => exact documented_call ih

theorem isNotFound_root (err : Err) : err.isNotFound = decide (err.root = .notFound) := by
  induction err with
  | wrapped text err ih => exact ih
  | _ => rfl

theorem declared_missing (known : declared err = some e)
    (code : e.response.code = "RESOURCE_NOT_FOUND") : err = .notFound := by
  cases err <;> cases known <;> first | rfl | exact absurd code (by decide)

-- What is left of a look-up's error when a missing row is another error's matter.
theorem covered_other {docs : Codes} {err : Err}
    (looked : ¬covered ((404,"RESOURCE_NOT_FOUND") :: docs) err = false)
    (present : err.isNotFound = false) : covered docs err = true := by
  rw [isNotFound_root,decide_eq_false_iff_not] at present
  simp only [covered,Bool.not_eq_false] at looked ⊢
  split
  · rfl
  · rename_i e behind
    simp only [behind,decide_eq_true_eq,List.mem_cons,Prod.mk.injEq] at looked
    rcases looked with ⟨_,code⟩ | listed
    · exact absurd (declared_missing behind code) present
    · exact decide_eq_true listed

theorem covered_found {docs : Codes} {other : Err} (known : covered docs other = true) (err : Err)
    (looked : ¬covered ((404,"RESOURCE_NOT_FOUND") :: docs) err = false) :
    covered docs (if err.isNotFound then other else err) = true := by
  split
  · exact known
  · exact covered_other looked (Bool.eq_false_iff.mpr ‹_›)

section Commands
variable {docs : Codes} {cfg : Config} {ctx : Ctx}

theorem wrapping_documented {program : Service α} {good : α → Prop} (text : String)
    (first : Documented docs good program) : Documented docs good (wrapping text program) := by
  refine yields_settle first fun result settled => ?_
  cases result with
  | ok value => exact settled
  | error err => exact settled

theorem now_documented : Documented docs (fun _ => True) now := documented_call fun _ => trivial

theorem newUUID_documented : Documented docs (fun _ => True) newUUID := by
  refine documented_call fun reply => ?_
  cases reply with
  | ok id => trivial
  | error _ => exact documented_fail rfl

theorem generateOpaqueToken_documented (label : String) :
    Documented docs (fun _ => True) (generateOpaqueToken label) := by
  refine documented_call fun reply => ?_
  cases reply with
  | ok raw => trivial
  | error _ => exact documented_fail rfl

theorem hashPassword_documented (plain : String) :
    Documented docs (fun _ => True) (hashPassword plain) := by
  refine documented_call fun reply => ?_
  cases reply with
  | ok digest => trivial
  | error _ => exact documented_fail rfl

theorem verifyPassword_documented (known : covered docs .wrongCredentials = true)
    (plain hashed : String) :
    Documented docs (fun _ => True) (verifyPassword cfg plain hashed) := by
  unfold verifyPassword
  split
  · trivial
  · exact documented_fail known

theorem transact_documented {body : Service α} {good : α → Prop}
    (inside : Documented docs good body) : Documented docs good (transact body) := by
  refine documented_call fun reply => ?_
  cases reply with
  | error err => exact documented_fail rfl
  | ok _ =>
      refine yields_settle inside fun result settled => ?_
      cases result with
      | error err => exact documented_call fun _ => settled
      | ok value =>
          refine documented_call fun reply => ?_
          cases reply with
          | ok _ => exact settled
          | error err => exact documented_fail rfl

theorem scanOne_documented {pick : Row → Option α} (known : covered docs missing = true)
    (text : String) (reply : Except SqlError (List Row)) :
    Documented docs (fun _ => True) (scanOne pick missing text reply) := by
  unfold scanOne
  split
  · exact documented_fail rfl
  · exact documented_fail known
  · split
    · trivial
    · exact documented_fail rfl
  · exact documented_fail rfl

theorem query_documented {pick : Row → Option α} (known : covered docs missing = true) (conn : Conn)
    (test : Row → Bool) (text : String) :
    Documented docs (fun _ => True) (query conn test (scanOne pick missing text)) := by
  cases conn with
  | pool => exact documented_call fun reply => scanOne_documented known text reply
  | tx => exact documented_call fun reply => scanOne_documented known text reply

-- A look-up whose caller deals with a missing row.
theorem look_documented {pick : Row → Option α} (absent : missing.root = .notFound) (conn : Conn)
    (test : Row → Bool) (text : String) :
    Documented docs (Settled (fun err => covered ((404,"RESOURCE_NOT_FOUND") :: docs) err = false)
      fun _ => True)
      (attempt (query conn test (scanOne pick missing text))) := by
  refine attempt_documented (query_documented ?_ conn test text)
  rw [covered,absent]
  exact decide_eq_true List.mem_cons_self

theorem execute_documented (text : String) (reply : Except SqlError α) :
    Documented docs (fun _ => True) (execute text reply) := by
  cases reply with
  | ok _ => trivial
  | error err => exact documented_fail rfl

theorem storeUser_documented (known : covered docs .emailConflict = true) (u : User) :
    Documented docs (fun _ => True) (storeUser u) := by
  refine documented_call fun reply => ?_
  split
  · trivial
  · exact documented_fail rfl
  · exact documented_fail known
  · exact documented_fail rfl

theorem updateUserRow_documented (known : covered docs .emailConflict = true) (u : User) :
    Documented docs (fun _ => True) (updateUserRow u) := by
  refine documented_call fun reply => ?_
  split
  · trivial
  · exact documented_fail rfl
  · exact documented_fail known
  · exact documented_fail rfl

theorem storeRegistrationToken_documented (token : RegistrationToken) :
    Documented docs (fun _ => True) (storeRegistrationToken token) := by
  refine documented_call fun reply => ?_
  split
  · trivial
  · exact documented_fail rfl
  · exact documented_fail rfl

theorem recordAudit_documented (record : AuditRecord) :
    Documented docs (fun _ => True) (recordAudit ctx record) :=
  documented_call fun _ => execute_documented _ _

theorem require_documented (known : covered docs .unauthorizedPermission = true)
    (permission : Permission) : Documented docs (fun _ => True) (require cfg ctx permission) := by
  unfold require
  split
  · exact documented_fail rfl
  · split
    · trivial
    · exact documented_fail known

theorem requireSelfOr_documented (known : covered docs .unauthorizedPermission = true)
    (userID : UUID) (permission : Permission) :
    Documented docs (fun _ => True) (requireSelfOr cfg ctx userID permission) := by
  unfold requireSelfOr
  split
  · exact documented_fail rfl
  · split
    · trivial
    · split
      · trivial
      · exact documented_fail known

theorem auditContext_documented (text : String) :
    Documented docs (fun _ => True) (auditContext ctx text) := by
  unfold auditContext
  split
  · trivial
  · exact documented_fail rfl

theorem newSession_documented (userID : UUID) :
    Documented docs (fun _ => True) (newSession cfg ctx userID) := by
  unfold newSession
  split
  · exact documented_fail rfl
  · split
    · exact documented_fail rfl
    · exact yields_then newUUID_documented fun _ =>
        yields_then (generateOpaqueToken_documented "rt") fun _ =>
        yields_then (auditContext_documented _) fun _ => yields_then now_documented fun _ => trivial

theorem rotate_documented (session : Session) :
    Documented docs (fun _ => True) (rotate cfg ctx session) :=
  yields_then (generateOpaqueToken_documented "rt") fun _ => yields_then (auditContext_documented _)
    fun _ => yields_then now_documented fun _ => trivial

theorem newRegistrationToken_documented (name email : String) :
    Documented docs (fun _ => True) (newRegistrationToken cfg name email) :=
  yields_then (wrapping_documented _ (generateOpaqueToken_documented "regt")) fun _ =>
    yields_then now_documented fun _ => trivial

theorem newPasswordRecoveryToken_documented (userID : UUID) :
    Documented docs (fun _ => True) (newPasswordRecoveryToken cfg userID) :=
  yields_then (generateOpaqueToken_documented "") fun _ => yields_then now_documented fun _ =>
    trivial

theorem checked_documented (known : ∀ detail, covered docs (.validation detail) = true) (u : User) :
    Documented docs (fun _ => True) (checked (User.validate cfg u)) := by
  unfold User.validate
  split_ifs <;> first | trivial | exact documented_fail (known _)

theorem newUser_documented (known : ∀ detail, covered docs (.validation detail) = true)
    (name email digest : String) :
    Documented docs (fun _ => True) (newUser cfg name email digest) :=
  yields_then newUUID_documented fun _ => yields_then now_documented fun _ =>
    yields_then (checked_documented known _) fun _ => trivial

theorem useToken_documented (known : covered docs .invalidRegistrationToken = true)
    (token : RegistrationToken) : Documented docs (fun _ => True) (useToken token) := by
  refine yields_then now_documented fun _ => ?_
  split
  · exact documented_fail known
  · exact yields_then now_documented fun _ => trivial

theorem signAccessToken_documented (userID sessID : UUID) (role : Role) :
    Documented docs (fun _ => True) (signAccessToken cfg userID sessID role) := by
  refine yields_then now_documented fun _ => documented_call fun reply => ?_
  cases reply with
  | ok _ => trivial
  | error _ => exact documented_fail rfl

theorem produceEvent_documented (message : Message) :
    Documented docs (fun _ => True) (produceEvent message) := by
  refine documented_call fun reply => ?_
  cases reply with
  | ok _ => trivial
  | error _ => exact documented_fail rfl

theorem tryAcquire_documented (key : String) (ttl : Duration) :
    Documented docs (fun _ => True) (tryAcquire key ttl) := by
  unfold tryAcquire
  split
  · exact documented_fail rfl
  · split
    · exact documented_fail rfl
    · refine documented_call fun reply => ?_
      split
      · exact documented_fail rfl
      · refine yields_then now_documented fun _ => ?_
        split
        · trivial
        · refine documented_call fun reply => ?_
          split
          · exact documented_fail rfl
          · trivial

theorem cleanupDeadline_documented : Documented docs (fun _ => True) cleanupDeadline :=
  yields_then now_documented fun _ => trivial

theorem setMarkerCmd_documented (key value text : String) (ttl : Duration) (deadline : Time) :
    Documented docs (fun _ => True) (setMarkerCmd key value text ttl deadline) := by
  refine documented_call fun reply => ?_
  cases reply with
  | ok _ => trivial
  | error _ => exact documented_fail rfl

theorem revokeAllForUser_documented (userID : UUID) (deadline : Time) :
    Documented docs (fun _ => True) (revokeAllForUser cfg userID deadline) := by
  unfold revokeAllForUser
  split
  · trivial
  · exact yields_then now_documented fun _ => setMarkerCmd_documented _ _ _ _ _

theorem revokeSessionMarker_documented (sessionID : UUID) (deadline : Time) :
    Documented docs (fun _ => True) (revokeSessionMarker cfg sessionID deadline) := by
  unfold revokeSessionMarker
  split
  · trivial
  · exact setMarkerCmd_documented _ _ _ _ _

theorem endSession_documented (session : Session) (record : AuditRecord) :
    Documented docs (fun _ => True) (AuthService.endSession ctx session record) := by
  refine yields_then now_documented fun _ => ?_
  split
  · trivial
  · exact yields_then now_documented fun _ =>
      yields_then (documented_call fun _ => execute_documented _ _) fun _ =>
      recordAudit_documented record

-- Markers that are written for good measure.
theorem marked_documented (program : Time → Service Unit) : Documented docs (fun _ => True) (do
      let deadline ← cleanupDeadline
      let _ ← attempt (program deadline)
      return Value.nil) :=
  yields_then cleanupDeadline_documented fun _ => yields_then (attempt_any _) fun _ => trivial

end Commands

-- The application errors each request can end with.
def codes : Request → Codes
  | .register _ _ _ => [(403,"RBAC_UNAUTHORIZED_PERM"),(409,"USER_EMAIL_CONFLICT")]
  | .completeRegistration _ _ _ =>
      [(401,"AUTH_INVALID_REGISTRATION_TOKEN"),(422,"USER_VALIDATION"),(409,"USER_EMAIL_CONFLICT")]
  | .login _ _ _ => [(401,"AUTH_CREDENTIALS")]
  | .refreshAccessToken _ _ => [(401,"AUTH_INVALID_SESSION"),(404,"RESOURCE_NOT_FOUND")]
  | .logout _ _ => [(404,"RESOURCE_NOT_FOUND")]
  | .recoverPassword _ _ => [(429,"AUTH_RECOVERY_THROTTLED"),(404,"RESOURCE_NOT_FOUND")]
  | .resetPassword _ _ _ =>
      [(401,"AUTH_INVALID_RECOV_TOKEN"),(404,"RESOURCE_NOT_FOUND"),(409,"USER_EMAIL_CONFLICT")]
  | .changePassword _ _ _ _ =>
      [(403,"RBAC_UNAUTHORIZED_PERM"),(404,"RESOURCE_NOT_FOUND"),(401,"AUTH_CREDENTIALS"),
        (409,"USER_EMAIL_CONFLICT")]
  | .revokeUserSessions _ _ => [(403,"RBAC_UNAUTHORIZED_PERM")]
  | .revokeSession _ _ => [(403,"RBAC_UNAUTHORIZED_PERM"),(404,"RESOURCE_NOT_FOUND")]
  | .updateUser _ _ _ _ _ =>
      [(403,"RBAC_UNAUTHORIZED_PERM"),(404,"RESOURCE_NOT_FOUND"),(422,"USER_VALIDATION"),
        (409,"USER_EMAIL_CONFLICT")]
  | .deleteUser _ _ => [(403,"RBAC_UNAUTHORIZED_PERM")]
  | .changeProfilePicture _ _ _ =>
      [(403,"RBAC_UNAUTHORIZED_PERM"),(404,"RESOURCE_NOT_FOUND"),(409,"USER_EMAIL_CONFLICT")]
  | .deleteProfilePicture _ _ =>
      [(403,"RBAC_UNAUTHORIZED_PERM"),(404,"RESOURCE_NOT_FOUND"),(409,"USER_EMAIL_CONFLICT")]
  | .authenticate _ => [(401,"AUTH_INVALID"),(401,"AUTH_EXPIRED"),(401,"AUTH_INVALID_SESSION")]

section Requests
variable {cfg : Config} {ctx : Ctx}

theorem register_documented (name email : String) :
    Documented (codes (.register ctx name email)) (fun _ => True)
      (AuthService.register cfg ctx name email) := by
  have invited : Documented (codes (.register ctx name email)) (fun _ => True)
      (AuthService.invite cfg ctx name email) := by
    refine transact_documented (yields_bind (look_documented rfl .tx _ _) fun result looked => ?_)
    cases result with
    | ok _ => exact documented_fail rfl
    | error err =>
        dsimp only
        split
        · rename_i present
          have other : covered (codes (.register ctx name email)) err = true :=
            covered_other looked (by simpa using present)
          exact documented_fail other
        · exact yields_then (wrapping_documented _
            (documented_call fun _ => execute_documented _ _)) fun _ =>
            yields_then (wrapping_documented _ (newRegistrationToken_documented name email))
            fun _ => yields_then (wrapping_documented _ (storeRegistrationToken_documented _))
            fun _ => yields_then (recordAudit_documented _) fun _ => trivial
  have sent (token : String) : Documented (codes (.register ctx name email)) (fun _ => True) (do
      wrapping "registration succeeded but failed to send completion email" (produceEvent
        ⟨"email.user_registration",email,name,cfg.completeRegistrationFormEndpoint ++ "?token=" ++
          token,cfg.registrationTokenTTL⟩)
      return Value.nil) :=
    yields_then (wrapping_documented _ (produceEvent_documented _)) fun _ => trivial
  unfold AuthService.register
  split
  · exact yields_then (require_documented rfl _) fun _ => yields_then invited sent
  · exact yields_then invited sent

theorem completeRegistration_documented (token password : String) :
    Documented (codes (.completeRegistration ctx token password))
    (fun _ => True) (AuthService.completeRegistration cfg ctx token password) := by
  refine transact_documented (yields_bind (look_documented rfl .tx _ _) fun result looked => ?_)
  cases result with
  | error err => exact documented_fail (covered_found rfl err looked)
  | ok regToken =>
      refine yields_then now_documented fun checkedAt => ?_
      split
      · exact documented_fail rfl
      · exact yields_then (hashPassword_documented password) fun _ =>
          yields_then (newUser_documented (fun _ => rfl) _ _ _) fun _ =>
          yields_then (useToken_documented rfl regToken) fun _ =>
          yields_then (documented_call fun _ => execute_documented _ _) fun _ =>
          yields_then (storeUser_documented rfl _) fun _ => yields_then (recordAudit_documented _)
          fun _ => trivial

theorem login_documented (email password : String) :
    Documented (codes (.login ctx email password)) (fun _ => True)
      (AuthService.login cfg ctx email password) := by
  refine yields_bind (look_documented rfl .pool _ _) fun result looked => ?_
  cases result with
  | error err => exact documented_fail (covered_found rfl err looked)
  | ok usr =>
      exact yields_then (verifyPassword_documented rfl password _) fun _ =>
        yields_then (newSession_documented _) fun _ =>
        yields_then (signAccessToken_documented _ _ _) fun _ =>
        yields_then (transact_documented
        (yields_then (documented_call fun _ => execute_documented _ _)
        fun _ => recordAudit_documented _)) fun _ => trivial

theorem refreshAccessToken_documented (refreshToken : String) :
    Documented (codes (.refreshAccessToken ctx refreshToken)) (fun _ => True)
    (AuthService.refreshAccessToken cfg ctx refreshToken) := by
  refine transact_documented (yields_bind (look_documented rfl .tx _ _) fun result looked => ?_)
  cases result with
  | error err => exact documented_fail (covered_found rfl err looked)
  | ok sess =>
      refine yields_then now_documented fun checkedAt => ?_
      split
      · exact documented_fail rfl
      · split
        · exact documented_fail rfl
        · exact yields_then (query_documented rfl .tx _ _) fun _ =>
            yields_then (signAccessToken_documented _ _ _) fun _ =>
            yields_then (rotate_documented sess) fun _ =>
            yields_then (documented_call fun _ => execute_documented _ _) fun _ => trivial

theorem logout_documented (sessID : UUID) :
    Documented (codes (.logout ctx sessID)) (fun _ => True) (AuthService.logout cfg ctx sessID) :=
  yields_then (transact_documented (yields_then (query_documented rfl .tx _ _)
    fun _ => endSession_documented _ _)) fun _ => marked_documented fun deadline =>
    revokeSessionMarker cfg sessID deadline

theorem recoverPassword_documented (email : String) :
    Documented (codes (.recoverPassword ctx email)) (fun _ => True)
      (AuthService.recoverPassword cfg ctx email) := by
  refine yields_then (tryAcquire_documented _ _) fun th => ?_
  split
  · exact documented_fail rfl
  · exact yields_then (transact_documented (yields_then (query_documented rfl .tx _ _) fun _ =>
      yields_then (newPasswordRecoveryToken_documented _) fun _ =>
        yields_then (documented_call fun _ => execute_documented _ _) fun _ =>
      yields_then (recordAudit_documented _) fun _ => trivial)) fun _ =>
        yields_then (produceEvent_documented _) fun _ => trivial

theorem resetPassword_documented (token newPassword : String) :
    Documented (codes (.resetPassword ctx token newPassword)) (fun _ => True)
    (AuthService.resetPassword cfg ctx token newPassword) := by
  refine yields_then (transact_documented (yields_bind (look_documented rfl .tx _ _)
    fun result looked => ?_)) fun _ => marked_documented fun deadline =>
    revokeAllForUser cfg _ deadline
  cases result with
  | error err => exact documented_fail (covered_found rfl err looked)
  | ok found =>
      refine yields_then now_documented fun checkedAt => ?_
      split
      · exact documented_fail rfl
      · exact yields_then (query_documented rfl .tx _ _) fun _ =>
          yields_then (hashPassword_documented newPassword) fun _ => yields_then now_documented
          fun _ => yields_then (documented_call fun _ => execute_documented _ _) fun _ =>
          yields_then (updateUserRow_documented rfl _) fun _ =>
          yields_then (documented_call fun _ => execute_documented _ _) fun _ =>
          yields_then (recordAudit_documented _) fun _ => trivial

theorem changePassword_documented (userID : UUID) (password newPassword : String) :
    Documented (codes (.changePassword ctx userID password newPassword)) (fun _ => True)
      (AuthService.changePassword cfg ctx userID password newPassword) :=
  yields_then (requireSelfOr_documented rfl userID _) fun _ =>
    yields_then (query_documented rfl .pool _ _) fun _ =>
    yields_then (verifyPassword_documented rfl password _) fun _ =>
    yields_then (hashPassword_documented newPassword) fun _ =>
    yields_then (transact_documented (yields_then (updateUserRow_documented rfl _)
    fun _ => yields_then (documented_call fun _ => execute_documented _ _) fun _ =>
    recordAudit_documented _)) fun _ => marked_documented fun deadline =>
    revokeAllForUser cfg userID deadline

theorem revokeUserSessions_documented (userID : UUID) :
    Documented (codes (.revokeUserSessions ctx userID)) (fun _ => True)
    (AuthService.revokeUserSessions cfg ctx userID) :=
  yields_then (require_documented rfl _) fun _ => yields_then (transact_documented
    (yields_then (documented_call fun _ => execute_documented _ _)
      fun _ => recordAudit_documented _)) fun _ =>
    yields_then cleanupDeadline_documented fun deadline =>
      yields_then (revokeAllForUser_documented userID deadline) fun _ => trivial

theorem revokeSession_documented (sessionID : UUID) :
    Documented (codes (.revokeSession ctx sessionID)) (fun _ => True)
      (AuthService.revokeSession cfg ctx sessionID) :=
  yields_then (transact_documented (yields_then (query_documented rfl .tx _ _) fun _ =>
    yields_then (requireSelfOr_documented rfl _ _) fun _ => endSession_documented _ _)) fun _ =>
    yields_then cleanupDeadline_documented fun deadline =>
      yields_then (revokeSessionMarker_documented sessionID deadline) fun _ => trivial

theorem updateUser_documented (userID : UUID) (name phone gender : String) :
    Documented (codes (.updateUser ctx userID name phone gender)) (fun _ => True)
      (UserService.updateUser cfg ctx userID name phone gender) :=
  yields_then (requireSelfOr_documented rfl userID _) fun _ => transact_documented
    (yields_then (query_documented rfl .tx _ _) fun _ => yields_then
    (checked_documented (fun _ => rfl) _) fun _ => yields_then (updateUserRow_documented rfl _)
    fun _ => yields_then (recordAudit_documented _) fun _ => trivial)

theorem deleteUser_documented (userID : UUID) :
    Documented (codes (.deleteUser ctx userID)) (fun _ => True)
      (UserService.deleteUser cfg ctx userID) := by
  refine yields_then (require_documented rfl _) fun _ => yields_then (transact_documented
    (yields_bind (look_documented rfl .tx _ _) fun result looked => ?_)) fun _ =>
    yields_then cleanupDeadline_documented fun deadline =>
      yields_then (revokeAllForUser_documented userID deadline) fun _ => trivial
  cases result with
  | ok usr =>
      exact yields_then (documented_call fun _ => execute_documented _ _) fun _ =>
        yields_then (documented_call fun _ => execute_documented _ _) fun _ =>
          recordAudit_documented _
  | error err =>
      dsimp only
      split
      · trivial
      · rename_i present
        exact documented_fail (covered_other looked (Bool.eq_false_iff.mpr present))

theorem changeProfilePicture_documented (userID : UUID) (ext : String) :
    Documented (codes (.changeProfilePicture ctx userID ext)) (fun _ => True)
      (UserService.changeProfilePicture cfg ctx userID ext) := by
  refine yields_then (requireSelfOr_documented rfl userID _) fun _ => yields_then newUUID_documented
    fun id => yields_then (documented_call fun reply => ?_) fun _ =>
    yields_bind (yields_attempt (show Documented _ (fun _ => True) _ from transact_documented
    (yields_then (query_documented rfl .tx _ _) fun _ => yields_then
    (updateUserRow_documented rfl _) fun _ => yields_then (recordAudit_documented _) fun _ =>
    trivial))) fun result settled => ?_
  · cases reply with
    | ok _ => trivial
    | error _ => exact documented_fail rfl
  · cases result with
    | error err => exact documented_call fun _ => settled
    | ok prevImage =>
        cases prevImage with
        | none => trivial
        | some image => exact documented_call fun _ => trivial

theorem deleteProfilePicture_documented (userID : UUID) :
    Documented (codes (.deleteProfilePicture ctx userID)) (fun _ => True)
      (UserService.deleteProfilePicture cfg ctx userID) := by
  refine yields_then (requireSelfOr_documented rfl userID _) fun _ =>
    yields_then (transact_documented (yields_then (query_documented rfl .tx _ _) fun prev => ?_))
    fun prevImage => ?_
  · cases prev.profilePicture with
    | none => trivial
    | some image =>
        exact yields_then (updateUserRow_documented rfl _) fun _ =>
          yields_then (recordAudit_documented _) fun _ => trivial
  · cases prevImage with
    | none => trivial
    | some image => exact documented_call fun _ => trivial

theorem authenticate_documented (token : AccessToken) :
    Documented (codes (.authenticate token)) (fun _ => True) (authenticate cfg token) := by
  have verified : Documented (codes (.authenticate token)) (fun _ => True)
      (verifyAccessToken token) := by
    refine documented_call fun genuine => ?_
    split
    · exact documented_fail rfl
    · refine yields_then now_documented fun _ => ?_
      split
      · exact documented_fail rfl
      · split
        · exact documented_fail rfl
        · trivial
  refine yields_then verified fun _ => yields_then now_documented fun _ =>
    yields_then (attempt_any _) fun result => ?_
  cases result with
  | error err =>
      dsimp only
      split
      · exact documented_fail rfl
      · trivial
  | ok revoked =>
      cases revoked with
      | true => exact documented_fail rfl
      | false => trivial

theorem serve_documented (request : Request) :
    Documented (codes request) (fun _ => True) (serve cfg request) := by
  cases request with
  | register ctx name email => exact register_documented name email
  | completeRegistration ctx token password => exact completeRegistration_documented token password
  | login ctx email password => exact login_documented email password
  | refreshAccessToken ctx refreshToken => exact refreshAccessToken_documented refreshToken
  | logout ctx sessID => exact logout_documented sessID
  | recoverPassword ctx email => exact recoverPassword_documented email
  | resetPassword ctx token newPassword => exact resetPassword_documented token newPassword
  | changePassword ctx userID password newPassword =>
      exact changePassword_documented userID password newPassword
  | revokeUserSessions ctx userID => exact revokeUserSessions_documented userID
  | revokeSession ctx sessionID => exact revokeSession_documented sessionID
  | updateUser ctx userID name phone gender => exact updateUser_documented userID name phone gender
  | deleteUser ctx userID => exact deleteUser_documented userID
  | changeProfilePicture ctx userID ext => exact changeProfilePicture_documented userID ext
  | deleteProfilePicture ctx userID => exact deleteProfilePicture_documented userID
  | authenticate token => exact authenticate_documented token

end Requests

section Runs
variable {cfg : Config} {s : Api} {allow : Api → Act Request Choice Surroundings → Prop}

theorem documented_judged {docs : Codes} {program : Service Value} {v : Option Request}
    (first : Documented docs (fun _ => True) program) :
    Yields (fun _ _ => True) (fun _ _ => True) (fun err => covered docs err = false) v
      (fun _ => True) program := by
  induction program with
  | done value => trivial
  | fail err => exact first
  | call c rest ih =>
      exact meets_heard trivial fun reply _ => ih reply (meets_reply first ⟨rfl,fun _ _ => trivial⟩)

-- A goroutine fails with the errors of its own request and no others.
theorem failures_covered (path : Reached (api cfg) allow (boot base serial uuids started) s)
    (asked : s.shared.requests pid = some request) (failed : s.threads pid = some (.fail err)) :
    covered (codes request) err = true := by
  have sound : Sound (api cfg) (fun _ _ => True) (fun _ => True) World.requests
      (Heard fun _ _ => True) (fun _ _ => True) (fun v result => ∀ request, v = some request →
      Settled (fun err => covered (codes request) err = false) (fun _ => True) result) := by
    refine heard_sound (fun request => ?_) (fun _ _ => trivial)
      (fun _ _ _ _ _ => ⟨trivial,fun _ _ => trivial⟩) (fun _ _ => trivial) fun _ _ => trivial
    refine meets_mono (fun _ _ _ => trivial) ?_ (meets_stable
      (fun v : Option Request => v = some request)
      (fun _ _ _ _ _ heard same => heard.1.trans same) rfl
      (documented_judged (serve_documented request)))
    rintro v result ⟨rfl,settled⟩ other ⟨⟩
    exact settled
  obtain ⟨_,meets⟩ := reached_kept sound trivial (fun _ => rfl) (path.mono fun _ _ _ => trivial)
  exact Bool.not_eq_false _ ▸ (meets pid _ failed request asked)

end Runs
end RestApi.Http
