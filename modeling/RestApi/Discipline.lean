import RestApi.History
import RestApi.Protocols

namespace RestApi.Discipline
open Pool Program Protocols RowStore Service

-- What a command needs: nothing, a connection of its own from the pool, the
-- transaction of the goroutine, or a party other than PostgreSQL.
inductive Need where
  | nothing
  | connection
  | transaction
  | elsewhere
  deriving DecidableEq, Repr

def need : Cmd → Need
  | .clock => .nothing
  | .newUUID => .nothing
  | .opaqueToken => .nothing
  | .bcrypt _ => .nothing
  | .sign _ _ => .nothing
  | .verify _ => .nothing
  | .select _ => .connection
  | .openTx => .connection
  | .lock _ => .transaction
  | .update _ _ => .transaction
  | .insert _ => .transaction
  | .commit => .transaction
  | .rollback => .transaction
  | .redisSet _ _ _ _ => .elsewhere
  | .redisSetNX _ _ _ => .elsewhere
  | .redisTTL _ => .elsewhere
  | .mget _ _ => .elsewhere
  | .produce _ => .elsewhere
  | .put _ => .elsewhere
  | .asyncDelete _ => .elsewhere

-- Outside Transact, inside it, and inside it after a statement has failed.
inductive Scope where
  | pool
  | running
  | failed
  deriving DecidableEq, Repr

def permits (scope : Scope) (c : Cmd) : Prop := match scope,c with
  | .pool,c => need c ≠ .transaction
  | .running,c => need c = .nothing ∨ need c = .transaction
  | .failed,.rollback => True
  | .failed,_ => False

-- Two requests send mail, and one of them asks the throttle.
def errand (request : Request) (c : Cmd) : Prop := match c with
  | .produce message => match request with
      | .register _ _ _ => message.stream = "email.user_registration"
      | .recoverPassword _ _ => True
      | _ => False
  | .redisSetNX key _ ttl => match request with
      | .recoverPassword _ email =>
          key = "throttle:" ++ ("recover-password:" ++ email) ∧ ttl = passwordRecoveryThrottledTTL
      | _ => False
  | _ => True

def allows (request : Request) (scope : Scope) (c : Cmd) : Prop :=
  permits scope c ∧ errand request c

def after (scope : Scope) : (c : Cmd) → Reply c → Scope
  | .openTx,.ok _ => .running
  | .lock _,.error _ => .failed
  | .update _ _,.error _ => .failed
  | .insert _,.error _ => .failed
  | .commit,_ => .pool
  | .rollback,_ => .pool
  | _,_ => scope

def scopes (request : Request) : Protocol Cmd Reply Scope := ⟨allows request,after⟩

variable {cfg : Config} {request : Request} {α β : Type}

-- Code outside a transaction ends outside it.
abbrev Outside (request : Request) (program : Service α) : Prop :=
  Follows (scopes request) (fun scope _ => scope = .pool) program .pool

-- The body of a transaction: a failed statement is passed on as an error, and
-- never as one that its callers would take for a missing row.
def Handed : Scope → Except Err α → Prop
  | .running,_ => True
  | .failed,.error err => err.isNotFound = false
  | _,_ => False

abbrev Inside (request : Request) (program : Service α) : Prop :=
  Follows (scopes request) Handed program .running

section Sequencing

theorem outside_settle {program : Service α} {next : Except Err α → Service β}
    (first : Outside request program) (continues : ∀ result, Outside request (next result)) :
    Outside request (program.settle next) := by
  refine meets_settle (meets_mono (fun _ _ owed => owed) (fun scope result ended => ?_) first)
  subst ended
  exact continues result

theorem outside_bind {program : Service α} {next : α → Service β} (first : Outside request program)
    (continues : ∀ value, Outside request (next value)) : Outside request (program.bind next) := by
  refine outside_settle first fun result => ?_
  cases result with
  | ok value => exact continues value
  | error err => exact rfl

theorem inside_settle {program : Service α} {next : Except Err α → Service β}
    (first : Inside request program) (continues : ∀ result, Inside request (next result))
    (handed : ∀ err, err.isNotFound = false →
      Follows (scopes request) Handed (next (.error err)) .failed) :
    Inside request (program.settle next) := by
  refine meets_settle (meets_mono (fun _ _ owed => owed) (fun scope result ended => ?_) first)
  cases scope with
  | pool => cases result <;> exact ended.elim
  | running => exact continues result
  | failed =>
      cases result with
      | ok value => exact ended.elim
      | error err => exact handed err ended

theorem inside_bind {program : Service α} {next : α → Service β} (first : Inside request program)
    (continues : ∀ value, Inside request (next value)) : Inside request (program.bind next) := by
  refine inside_settle first (fun result => ?_) fun err found => found
  cases result with
  | ok value => exact continues value
  | error err => trivial

theorem wrapping_inside {program : Service α} (first : Inside request program) :
    Inside request (wrapping text program) := by
  refine inside_settle first (fun result => ?_) fun err found => found
  cases result <;> trivial

-- A caught error: the code goes on only where the statement itself went well.
theorem attempt_inside {program : Service α} {next : Except Err α → Service β}
    (first : Inside request program) (continues : ∀ result, Inside request (next result))
    (handed : ∀ err, err.isNotFound = false →
      Follows (scopes request) Handed (next (.error err)) .failed) :
    Inside request ((attempt program).bind next) := by
  have flat : (attempt program).bind next = program.settle next := by
    clear first continues handed
    induction program with
    | done value => rfl
    | fail err => rfl
    | call c rest ih => exact congrArg (Program.call c) (funext ih)
  rw [flat]
  exact inside_settle first continues handed

theorem transact_outside {body : Service α} (inside : Inside request body) :
    Outside request (transact body) := by
  refine follows_call ⟨by rintro ⟨⟩,trivial⟩ fun reply => ?_
  cases reply with
  | error err => exact rfl
  | ok _ =>
      refine meets_settle (meets_mono (fun _ _ owed => owed) (fun scope result ended => ?_) inside)
      cases result with
      | ok value =>
          cases scope with
          | running =>
              refine follows_call ⟨.inr rfl,trivial⟩ fun reply => ?_
              cases reply <;> exact rfl
          | _ => exact ended.elim
      | error err =>
          cases scope with
          | pool => exact ended.elim
          | running => exact follows_call ⟨.inr rfl,trivial⟩ fun _ => rfl
          | failed => exact follows_call ⟨trivial,trivial⟩ fun _ => rfl

end Sequencing

section Commands

-- Code that asks for nothing a transaction minds keeps to any scope it runs in.
def Aloof : Service α → Prop
  | .done _ => True
  | .fail _ => True
  | .call c next => need c = .nothing ∧ ∀ reply, Aloof (next reply)

theorem aloof_settle {program : Service α} {next : Except Err α → Service β} (first : Aloof program)
    (continues : ∀ result, Aloof (next result)) : Aloof (program.settle next) := by
  induction program with
  | done value => exact continues (.ok value)
  | fail err => exact continues (.error err)
  | call c rest ih => exact ⟨first.1,fun reply => ih reply (first.2 reply)⟩

theorem aloof_bind {program : Service α} {next : α → Service β} (first : Aloof program)
    (continues : ∀ value, Aloof (next value)) : Aloof (program.bind next) := by
  refine aloof_settle first fun result => ?_
  cases result with
  | ok value => exact continues value
  | error err => trivial

theorem aloof_follows {ends : Scope → Except Err α → Prop} {program : Service α}
    (aloof : Aloof program) (permitted : ∀ c, need c = .nothing → permits scope c)
    (ended : ∀ result, ends scope result) : Follows (scopes request) ends program scope := by
  induction program with
  | done value => exact ended (.ok value)
  | fail err => exact ended (.error err)
  | call c rest ih =>
      obtain ⟨needless,continues⟩ := aloof
      have owed : errand request c := by cases c <;> trivial
      have stays (reply : Reply c) : after scope c reply = scope := by
        cases c <;> first | rfl | cases needless
      refine follows_call ⟨permitted c needless,owed⟩ fun reply => ?_
      rw [show (scopes request).after scope c reply = scope from stays reply]
      exact ih reply (continues reply)

theorem Aloof.outside {program : Service α} (aloof : Aloof program) : Outside request program := by
  refine aloof_follows aloof (fun c needless => ?_) fun _ => rfl
  rw [permits,needless]
  rintro ⟨⟩

theorem Aloof.inside {program : Service α} (aloof : Aloof program) : Inside request program :=
  aloof_follows aloof (fun _ needless => .inl needless) fun _ => trivial

theorem now_aloof : Aloof now := ⟨rfl,fun _ => trivial⟩

theorem newUUID_aloof : Aloof newUUID := ⟨rfl,fun reply => by cases reply <;> trivial⟩

theorem generateOpaqueToken_aloof (label : String) : Aloof (generateOpaqueToken label) :=
  ⟨rfl,fun reply => by cases reply <;> trivial⟩

theorem hashPassword_aloof (plain : String) : Aloof (hashPassword plain) :=
  ⟨rfl,fun reply => by cases reply <;> trivial⟩

theorem signAccessToken_aloof (userID sessID : UUID) (role : Role) :
    Aloof (signAccessToken cfg userID sessID role) :=
  aloof_bind now_aloof fun _ => ⟨rfl,fun reply => by cases reply <;> trivial⟩

theorem scanOne_outside {pick : Row → Option α} (reply : Except SqlError (List Row)) :
    Outside request (scanOne pick missing text reply) := by
  unfold scanOne
  split
  · exact rfl
  · exact rfl
  · split <;> exact rfl
  · exact rfl

theorem query_outside {pick : Row → Option α} :
    Outside request (query .pool test (scanOne pick missing text)) :=
  follows_call ⟨by rintro ⟨⟩,trivial⟩ fun reply => scanOne_outside reply

theorem query_inside {pick : Row → Option α} :
    Inside request (query .tx test (scanOne pick missing text)) := by
  refine follows_call ⟨.inr rfl,trivial⟩ fun reply => ?_
  match reply with
  | .error err => exact rfl
  | .ok [] => trivial
  | .ok [row] =>
      simp only [scanOne]
      cases pick row <;> trivial
  | .ok (_ :: _ :: _) => trivial

theorem update_inside {change : Time → Row → Row} :
    Inside request (.call (.update test change) (execute text)) :=
  follows_call ⟨.inr rfl,trivial⟩ fun reply => by cases reply <;> trivial

theorem insert_inside {make : Time → Nat → Row} :
    Inside request (.call (.insert make) (execute text)) :=
  follows_call ⟨.inr rfl,trivial⟩ fun reply => by cases reply <;> trivial

theorem storeUser_inside (u : User) : Inside request (storeUser u) := by
  refine follows_call ⟨.inr rfl,trivial⟩ fun reply => ?_
  split <;> trivial

theorem updateUserRow_inside (u : User) : Inside request (updateUserRow u) := by
  refine follows_call ⟨.inr rfl,trivial⟩ fun reply => ?_
  split <;> trivial

theorem storeRegistrationToken_inside (token : RegistrationToken) :
    Inside request (storeRegistrationToken token) := by
  refine follows_call ⟨.inr rfl,trivial⟩ fun reply => ?_
  split <;> trivial

end Commands

section Services

theorem require_aloof (ctx : Ctx) (permission : Permission) :
    Aloof (require cfg ctx permission) := by
  unfold require
  split
  · trivial
  · split <;> trivial

theorem requireSelfOr_aloof (ctx : Ctx) (userID : UUID) (permission : Permission) :
    Aloof (requireSelfOr cfg ctx userID permission) := by
  unfold requireSelfOr
  split
  · trivial
  · split
    · trivial
    · split <;> trivial

theorem verifyPassword_aloof (plain hashed : String) : Aloof (verifyPassword cfg plain hashed) := by
  unfold verifyPassword
  split <;> trivial

theorem auditContext_aloof (ctx : Ctx) (text : String) : Aloof (auditContext ctx text) := by
  unfold auditContext
  split <;> trivial

theorem checked_aloof (result : Except Err Unit) : Aloof (checked result) := by
  cases result <;> trivial

theorem newSession_aloof (ctx : Ctx) (userID : UUID) : Aloof (newSession cfg ctx userID) := by
  unfold newSession
  split
  · trivial
  · split
    · trivial
    · exact aloof_bind newUUID_aloof fun _ => aloof_bind (generateOpaqueToken_aloof "rt") fun _ =>
        aloof_bind (auditContext_aloof ctx _) fun _ => aloof_bind now_aloof fun _ => trivial

theorem rotate_aloof (ctx : Ctx) (session : Session) : Aloof (rotate cfg ctx session) :=
  aloof_bind (generateOpaqueToken_aloof "rt") fun _ => aloof_bind (auditContext_aloof ctx _)
    fun _ => aloof_bind now_aloof fun _ => trivial

theorem newRegistrationToken_inside (name email : String) :
    Inside request (newRegistrationToken cfg name email) :=
  inside_bind (wrapping_inside (generateOpaqueToken_aloof "regt").inside) fun _ =>
    inside_bind now_aloof.inside fun _ => trivial

theorem newPasswordRecoveryToken_aloof (userID : UUID) :
    Aloof (newPasswordRecoveryToken cfg userID) :=
  aloof_bind (generateOpaqueToken_aloof "") fun _ => aloof_bind now_aloof fun _ => trivial

theorem newUser_aloof (name email hash : String) : Aloof (newUser cfg name email hash) :=
  aloof_bind newUUID_aloof fun _ => aloof_bind now_aloof fun _ => aloof_bind (checked_aloof _)
    fun _ => trivial

theorem useToken_aloof (token : RegistrationToken) : Aloof (useToken token) := by
  refine aloof_bind now_aloof fun _ => ?_
  split
  · trivial
  · exact aloof_bind now_aloof fun _ => trivial

theorem endSession_inside (ctx : Ctx) (session : Session) (record : AuditRecord) :
    Inside request (AuthService.endSession ctx session record) := by
  refine inside_bind now_aloof.inside fun _ => ?_
  split
  · trivial
  · exact inside_bind now_aloof.inside fun _ => inside_bind update_inside fun _ => insert_inside

theorem setMarkerCmd_outside (key value text : String) (ttl : Duration) (deadline : Time) :
    Outside request (setMarkerCmd key value text ttl deadline) :=
  follows_call ⟨by rintro ⟨⟩,trivial⟩ fun reply => by cases reply <;> exact rfl

theorem revokeAllForUser_outside (userID : UUID) (deadline : Time) :
    Outside request (revokeAllForUser cfg userID deadline) := by
  unfold revokeAllForUser
  split
  · exact rfl
  · exact outside_bind now_aloof.outside fun _ => setMarkerCmd_outside _ _ _ _ _

theorem revokeSessionMarker_outside (sessionID : UUID) (deadline : Time) :
    Outside request (revokeSessionMarker cfg sessionID deadline) := by
  unfold revokeSessionMarker
  split
  · exact rfl
  · exact setMarkerCmd_outside _ _ _ _ _

theorem cleanupDeadline_outside : Outside request cleanupDeadline :=
  outside_bind now_aloof.outside fun _ => rfl

-- The marker is set on a best effort.
theorem attempt_outside {program : Service α} (first : Outside request program) :
    Outside request (attempt program) :=
  outside_settle first fun _ => rfl

theorem tryAcquire_outside (key : String) (ttl : Duration)
    (allowed : errand request (.redisSetNX ("throttle:" ++ key) "L" ttl)) :
    Outside request (tryAcquire key ttl) := by
  unfold tryAcquire
  split
  · exact rfl
  · split
    · exact rfl
    · refine follows_call ⟨by rintro ⟨⟩,allowed⟩ fun reply => ?_
      cases reply with
      | error _ => exact rfl
      | ok acquired =>
          refine outside_bind now_aloof.outside fun _ => ?_
          split
          · exact rfl
          · exact follows_call ⟨by rintro ⟨⟩,trivial⟩ fun reply => by cases reply <;> exact rfl

theorem produceEvent_outside (message : Message) (allowed : errand request (.produce message)) :
    Outside request (produceEvent message) :=
  follows_call ⟨by rintro ⟨⟩,allowed⟩ fun reply => by cases reply <;> exact rfl

theorem putImage_outside (path : String) : Outside request (UserService.putImage path) :=
  follows_call ⟨by rintro ⟨⟩,trivial⟩ fun reply => by cases reply <;> exact rfl

theorem asyncDeleteImage_outside (path : String) :
    Outside request (UserService.asyncDeleteImage path) :=
  follows_call ⟨by rintro ⟨⟩,trivial⟩ fun _ => rfl

end Services

section Requests

theorem invite_outside (ctx : Ctx) (name email : String) :
    Outside request (AuthService.invite cfg ctx name email) := by
  refine transact_outside (attempt_inside query_inside (fun result => ?_) fun err found => ?_)
  · cases result with
    | ok usr => trivial
    | error err =>
        dsimp only
        split
        · trivial
        · exact inside_bind (wrapping_inside update_inside) fun _ =>
            inside_bind (wrapping_inside (newRegistrationToken_inside name email)) fun _ =>
              inside_bind (wrapping_inside (storeRegistrationToken_inside _)) fun _ =>
                inside_bind insert_inside fun _ => trivial
  · dsimp only
    rw [if_pos (by simp [found])]
    exact found

theorem register_outside (ctx : Ctx) (name email : String) :
    Outside (.register ctx name email) (AuthService.register cfg ctx name email) := by
  have invited : Outside (.register ctx name email) ((AuthService.invite cfg ctx name email).bind
      fun rawToken => (wrapping "registration succeeded but failed to send completion email"
      (produceEvent ⟨"email.user_registration",email,name,cfg.completeRegistrationFormEndpoint ++
      "?token=" ++ rawToken,cfg.registrationTokenTTL⟩)).bind fun _ => .done Value.nil) := by
    refine outside_bind (invite_outside ctx name email) fun raw =>
      outside_bind (outside_settle (produceEvent_outside _ rfl) fun result => ?_) fun _ => rfl
    cases result <;> exact rfl
  unfold AuthService.register
  split
  · exact outside_bind (require_aloof ctx _).outside fun _ => invited
  · exact invited

theorem completeRegistration_outside (ctx : Ctx) (token password : String) :
    Outside request (AuthService.completeRegistration cfg ctx token password) := by
  refine transact_outside (attempt_inside query_inside (fun result => ?_) fun err found => ?_)
  · cases result with
    | error err => trivial
    | ok regToken =>
        refine inside_bind now_aloof.inside fun _ => ?_
        split
        · trivial
        · exact inside_bind (hashPassword_aloof password).inside fun _ =>
            inside_bind (newUser_aloof _ _ _).inside fun _ =>
            inside_bind (useToken_aloof regToken).inside fun _ => inside_bind update_inside fun _ =>
            inside_bind (storeUser_inside _) fun _ => inside_bind insert_inside fun _ => trivial
  · dsimp only
    rw [if_neg (by simp [found])]
    exact found

theorem login_outside (ctx : Ctx) (email password : String) :
    Outside request (AuthService.login cfg ctx email password) := by
  refine outside_bind (attempt_outside query_outside) fun result => ?_
  cases result with
  | error err => exact rfl
  | ok usr =>
      exact outside_bind (verifyPassword_aloof password usr.password).outside fun _ =>
        outside_bind (newSession_aloof ctx usr.id).outside fun _ =>
          outside_bind (signAccessToken_aloof _ _ _).outside fun _ =>
          outside_bind (transact_outside (inside_bind insert_inside fun _ => insert_inside))
          fun _ => rfl

theorem refreshAccessToken_outside (ctx : Ctx) (refreshToken : String) :
    Outside request (AuthService.refreshAccessToken cfg ctx refreshToken) := by
  refine transact_outside (attempt_inside query_inside (fun result => ?_) fun err found => ?_)
  · cases result with
    | error err => trivial
    | ok sess =>
        refine inside_bind now_aloof.inside fun _ => ?_
        split
        · trivial
        · split
          · trivial
          · exact inside_bind query_inside fun _ => inside_bind (signAccessToken_aloof _ _ _).inside
              fun _ => inside_bind (rotate_aloof ctx sess).inside fun _ => inside_bind update_inside
              fun _ => trivial
  · dsimp only
    rw [if_neg (by simp [found])]
    exact found

theorem logout_outside (ctx : Ctx) (sessID : UUID) :
    Outside request (AuthService.logout cfg ctx sessID) :=
  outside_bind (transact_outside (inside_bind query_inside fun _ => endSession_inside ctx _ _))
    fun _ => outside_bind cleanupDeadline_outside fun _ =>
    outside_bind (attempt_outside (revokeSessionMarker_outside _ _)) fun _ => rfl

theorem recoverPassword_outside (ctx : Ctx) (email : String) :
    Outside (.recoverPassword ctx email) (AuthService.recoverPassword cfg ctx email) := by
  refine outside_bind (tryAcquire_outside _ _ ⟨rfl,rfl⟩) fun th => ?_
  split
  · exact rfl
  · exact outside_bind (transact_outside
      (inside_bind query_inside fun _ => inside_bind (newPasswordRecoveryToken_aloof _).inside
      fun _ => inside_bind insert_inside fun _ => inside_bind insert_inside fun _ => trivial))
      fun _ => outside_bind (produceEvent_outside _ trivial) fun _ => rfl

theorem resetPassword_outside (ctx : Ctx) (token newPassword : String) :
    Outside request (AuthService.resetPassword cfg ctx token newPassword) := by
  refine outside_bind (transact_outside (attempt_inside query_inside (fun result => ?_)
    fun err found => ?_)) fun _ => outside_bind cleanupDeadline_outside fun _ =>
    outside_bind (attempt_outside (revokeAllForUser_outside _ _)) fun _ => rfl
  · cases result with
    | error err => trivial
    | ok token =>
        refine inside_bind now_aloof.inside fun _ => ?_
        split
        · trivial
        · exact inside_bind query_inside fun _ =>
            inside_bind (hashPassword_aloof newPassword).inside fun _ =>
            inside_bind now_aloof.inside fun _ => inside_bind update_inside fun _ =>
            inside_bind (updateUserRow_inside _) fun _ => inside_bind update_inside fun _ =>
            inside_bind insert_inside fun _ => trivial
  · dsimp only
    rw [if_neg (by simp [found])]
    exact found

theorem changePassword_outside (ctx : Ctx) (userID : UUID) (password newPassword : String) :
    Outside request (AuthService.changePassword cfg ctx userID password newPassword) :=
  outside_bind (requireSelfOr_aloof ctx userID _).outside fun _ => outside_bind query_outside
    fun _ => outside_bind (verifyPassword_aloof password _).outside fun _ =>
    outside_bind (hashPassword_aloof newPassword).outside fun _ =>
    outside_bind (transact_outside (inside_bind (updateUserRow_inside _)
    fun _ => inside_bind update_inside fun _ => insert_inside)) fun _ =>
    outside_bind cleanupDeadline_outside fun _ =>
    outside_bind (attempt_outside (revokeAllForUser_outside userID _)) fun _ => rfl

theorem revokeUserSessions_outside (ctx : Ctx) (userID : UUID) :
    Outside request (AuthService.revokeUserSessions cfg ctx userID) :=
  outside_bind (require_aloof ctx _).outside fun _ =>
    outside_bind (transact_outside (inside_bind update_inside fun _ => insert_inside)) fun _ =>
    outside_bind cleanupDeadline_outside fun _ => outside_bind (revokeAllForUser_outside userID _)
    fun _ => rfl

theorem revokeSession_outside (ctx : Ctx) (sessionID : UUID) :
    Outside request (AuthService.revokeSession cfg ctx sessionID) :=
  outside_bind (transact_outside (inside_bind query_inside fun _ => inside_bind
    (requireSelfOr_aloof ctx _ _).inside fun _ => endSession_inside ctx _ _)) fun _ =>
    outside_bind cleanupDeadline_outside fun _ =>
    outside_bind (revokeSessionMarker_outside sessionID _) fun _ => rfl

theorem updateUser_outside (ctx : Ctx) (userID : UUID) (name phone gender : String) :
    Outside request (UserService.updateUser cfg ctx userID name phone gender) :=
  outside_bind (requireSelfOr_aloof ctx userID _).outside fun _ => transact_outside
    (inside_bind query_inside fun _ => inside_bind (checked_aloof _).inside fun _ => inside_bind
    (updateUserRow_inside _) fun _ => inside_bind insert_inside fun _ => trivial)

theorem deleteUser_outside (ctx : Ctx) (userID : UUID) :
    Outside request (UserService.deleteUser cfg ctx userID) := by
  refine outside_bind (require_aloof ctx _).outside fun _ => outside_bind (transact_outside
    (attempt_inside query_inside (fun result => ?_) fun err found => ?_)) fun _ =>
      outside_bind cleanupDeadline_outside fun _ =>
      outside_bind (revokeAllForUser_outside userID _) fun _ => rfl
  · cases result with
    | error err =>
        dsimp only
        split <;> trivial
    | ok usr =>
        exact inside_bind update_inside fun _ => inside_bind update_inside fun _ => insert_inside
  · dsimp only
    rw [if_neg (by simp [found])]
    exact found

theorem changeProfilePicture_outside (ctx : Ctx) (userID : UUID) (ext : String) :
    Outside request (UserService.changeProfilePicture cfg ctx userID ext) := by
  refine outside_bind (requireSelfOr_aloof ctx userID _).outside fun _ =>
    outside_bind newUUID_aloof.outside fun _ => outside_bind (putImage_outside _) fun _ =>
    outside_bind (attempt_outside (transact_outside
    (inside_bind query_inside fun _ => inside_bind (updateUserRow_inside _)
    fun _ => inside_bind insert_inside fun _ => trivial))) fun result => ?_
  cases result with
  | error err => exact outside_bind (asyncDeleteImage_outside _) fun _ => rfl
  | ok prevImage =>
      cases prevImage with
      | none => exact rfl
      | some image => exact outside_bind (asyncDeleteImage_outside _) fun _ => rfl

theorem deleteProfilePicture_outside (ctx : Ctx) (userID : UUID) :
    Outside request (UserService.deleteProfilePicture cfg ctx userID) := by
  refine outside_bind (requireSelfOr_aloof ctx userID _).outside fun _ =>
    outside_bind (transact_outside (inside_bind query_inside fun prev => ?_)) fun prevImage => ?_
  · cases prev.profilePicture with
    | none => trivial
    | some image =>
        exact inside_bind (updateUserRow_inside _) fun _ => inside_bind insert_inside fun _ =>
          trivial
  · cases prevImage with
    | none => exact rfl
    | some image => exact outside_bind (asyncDeleteImage_outside _) fun _ => rfl

theorem authenticate_outside (token : AccessToken) : Outside request (authenticate cfg token) := by
  have decided : Outside request (if cfg.revocationFailClosed then Program.fail Err.sessionInvalid
      else .done (Value.claims token)) := by
    split <;> exact rfl
  refine outside_bind (follows_call ⟨by rintro ⟨⟩,trivial⟩ fun genuine => ?_) fun _ =>
    outside_bind now_aloof.outside fun _ =>
    outside_bind (attempt_outside (follows_call ⟨by rintro ⟨⟩,trivial⟩ fun reply => ?_))
    fun result => ?_
  · split
    · exact rfl
    · refine outside_bind now_aloof.outside fun _ => ?_
      split
      · exact rfl
      · split <;> exact rfl
  · cases reply with
    | error _ => exact rfl
    | ok values =>
        dsimp only
        split <;> exact rfl
  · cases result with
    | error err => exact decided
    | ok revoked => cases revoked <;> exact rfl

theorem serve_outside (request : Request) : Outside request (serve cfg request) := by
  cases request with
  | register ctx name email => exact register_outside ctx name email
  | completeRegistration ctx token password => exact completeRegistration_outside ctx token password
  | login ctx email password => exact login_outside ctx email password
  | refreshAccessToken ctx token => exact refreshAccessToken_outside ctx token
  | logout ctx sessID => exact logout_outside ctx sessID
  | recoverPassword ctx email => exact recoverPassword_outside ctx email
  | resetPassword ctx token password => exact resetPassword_outside ctx token password
  | changePassword ctx userID password newPassword =>
      exact changePassword_outside ctx userID password newPassword
  | revokeUserSessions ctx userID => exact revokeUserSessions_outside ctx userID
  | revokeSession ctx sessionID => exact revokeSession_outside ctx sessionID
  | updateUser ctx userID name phone gender => exact updateUser_outside ctx userID name phone gender
  | deleteUser ctx userID => exact deleteUser_outside ctx userID
  | changeProfilePicture ctx userID ext => exact changeProfilePicture_outside ctx userID ext
  | deleteProfilePicture ctx userID => exact deleteProfilePicture_outside ctx userID
  | authenticate token => exact authenticate_outside token

end Requests

section Runs
variable {w next : World} {pid : Pid}

def scoping : Protocol Cmd Reply Scope := ⟨permits,after⟩

theorem serve_scoped (request : Request) :
    Follows scoping (fun scope _ => scope = .pool) (serve cfg request) .pool :=
  meets_mono (fun _ _ allowed => allowed.1) (fun _ _ ended => ended) (serve_outside request)

-- A goroutine is inside Transact, with no failed statement, exactly while its
-- transaction is open.
def Agrees (w : World) (scopeOf : Pid → Scope) : Prop :=
  ∀ pid, w.db.txs pid ≠ none ↔ scopeOf pid = .running

theorem swept_agrees {reply : Option (Except SqlError (List Row))}
    (swept : Swept w pid test change reply next) :
    (∃ err, reply = some (.error err)) ∧ next.db.txs pid = none ∨
      (reply = none ∨ ∃ rows, reply = some (.ok rows)) ∧ next.db.txs pid ≠ none := by
  cases swept with
  | planned ran =>
      obtain ⟨t,_,_,_,_,_,rfl⟩ := start_parts ran
      exact .inr ⟨.inl rfl,by simp [Store.set]⟩
  | visited _ ran =>
      obtain ⟨t,scan,k,rest,row,_,_,_,_,_,_,rfl⟩ := visit_parts ran
      exact .inr ⟨.inl rfl,by simp [Store.set]⟩
  | finished _ ran =>
      obtain ⟨t,scan,_,_,_,_,rfl⟩ := finish_parts ran
      exact .inr ⟨.inr ⟨_,rfl⟩,by simp [Store.set]⟩
  | aborted => exact .inl ⟨⟨_,rfl⟩,by simp [World.abort,Store.rollback]⟩

theorem needs_running {c : Cmd} {scope : Scope} (allowed : permits scope c)
    (needs : need c = .transaction) (going : c ≠ .rollback) : scope = .running := by
  cases scope with
  | pool => exact absurd needs allowed
  | running => rfl
  | failed => cases c <;> first | exact allowed.elim | exact absurd rfl going

theorem executed_agrees {c : Cmd} {reply : Option (Reply c)} {scope : Scope}
    (allowed : permits scope c) (agrees : w.db.txs pid ≠ none ↔ scope = .running)
    (done : Executed cfg w pid c reply next) :
    next.db.txs pid ≠ none ↔ scoping.moved scope c reply = .running := by
  cases done with
  | lock swept =>
      have running := needs_running allowed rfl (by rintro ⟨⟩)
      subst running
      rcases swept_agrees swept with ⟨⟨err,rfl⟩,gone⟩ | ⟨rfl | ⟨rows,rfl⟩,there⟩
      · simp [gone,Protocol.moved,scoping,after]
      · exact iff_of_true there rfl
      · exact iff_of_true there rfl
  | update swept =>
      have running := needs_running allowed rfl (by rintro ⟨⟩)
      subst running
      rcases swept_agrees swept with ⟨⟨err,rfl⟩,gone⟩ | ⟨rfl | ⟨rows,rfl⟩,there⟩
      · simp [gone,Protocol.moved,scoping,after]
      · exact iff_of_true there rfl
      · exact iff_of_true there rfl
  | opened ran =>
      obtain ⟨_,rfl⟩ := openTx_parts ran
      simp [Protocol.moved,scoping,after]
  | inserted _ ran =>
      obtain ⟨t,_,_,_,_,_,rfl⟩ := insert_parts ran
      have running := needs_running allowed rfl (by rintro ⟨⟩)
      subst running
      simp [Store.set,Protocol.moved,scoping,after]
  | uninserted => simp [World.abort,Store.rollback,Protocol.moved,scoping,after]
  | committed ran =>
      obtain ⟨t,_,_,rfl⟩ := commit_parts ran
      simp [World.note,Protocol.moved,scoping,after]
  | unconfirmed ran =>
      obtain ⟨t,_,_,rfl⟩ := commit_parts ran
      simp [World.note,Protocol.moved,scoping,after]
  | uncommitted => simp [World.abort,Store.rollback,Protocol.moved,scoping,after]
  | rolledBack => simp [World.abort,Store.rollback,Protocol.moved,scoping,after]
  | _ => exact agrees

theorem agrees_set {scopeOf : Pid → Scope} {scope : Scope} (agrees : Agrees w scopeOf)
    (others : ∀ other, other ≠ pid → next.db.txs other = w.db.txs other)
    (here : next.db.txs pid ≠ none ↔ scope = .running) :
    Agrees next (Function.update scopeOf pid scope) := by
  intro other
  by_cases same : other = pid
  · subst same
    rwa [Function.update_self]
  · rw [Function.update_of_ne same,others other same]
    exact agrees other

-- A goroutine was asked for something.
theorem reached_spawned {s : Api}
    (path : Reached (api cfg) allow (boot base serial uuids started) s) :
    ∀ pid, s.shared.requests pid = none → s.threads pid = none := by
  refine path.invariant (fun s => ∀ pid, s.shared.requests pid = none → s.threads pid = none)
    (fun _ _ => rfl) fun {s act next} _ idle _ moves pid unasked => ?_
  cases moves with
  | @spawn spawned request shared accepted =>
      obtain ⟨_,rfl⟩ := accept_parts accepted
      by_cases same : pid = spawned
      · subst same
        simp at unasked
      · simp only [Function.update_of_ne same] at unasked ⊢
        exact idle pid unasked
  | wait here ran =>
      rw [executed_requests (exec_executed ran)] at unasked
      exact idle pid unasked
  | @reply stepped c rest choice shared answer here ran =>
      rw [executed_requests (exec_executed ran)] at unasked
      have different : pid ≠ stepped := by
        rintro rfl
        rw [idle pid unasked] at here
        cases here
      exact (Function.update_of_ne different _ _).trans (idle pid unasked)
  | @kill killed code here =>
      by_cases same : pid = killed
      · subst same
        exact Function.update_self ..
      · exact (Function.update_of_ne same _ _).trans (idle pid unasked)
  | env ran =>
      rcases surroundings_parts ran with ⟨elapsed,rfl⟩ | ⟨objects,rfl⟩
      · exact idle pid unasked
      · exact idle pid unasked

theorem api_guarded (allow : Api → Act Request Choice Surroundings → Prop) :
    Guarded (api cfg) allow (boot base serial uuids started) scoping
      (fun _ => .pool) .pool Agrees where
  accepts := by
    intro s scopeOf pid request next prior gone agrees accepted
    obtain ⟨unasked,rfl⟩ := accept_parts accepted
    refine agrees_set agrees (fun _ _ => rfl) ?_
    rw [← gone (reached_spawned prior pid unasked)]
    exact agrees pid
  executes := by
    intro s scopeOf pid c rest choice next reply _ agrees _ allowed _ ran
    have done := exec_executed ran
    exact agrees_set agrees (fun other different => congrArg View.tx
      (executed_frame done different)) (executed_agrees allowed (agrees pid) done)
  abandons := by
    intro w scopeOf pid agrees
    refine agrees_set agrees (fun other different => Function.update_of_ne different _ _) ?_
    simp [api,World.abort,Store.rollback]
  environs := by
    intro s scopeOf event next agrees _ ran
    rcases surroundings_parts ran with ⟨elapsed,rfl⟩ | ⟨objects,rfl⟩
    · exact agrees
    · exact agrees

-- A goroutine that is over, or that has died, leaves no transaction and so no
-- lock behind. One at work asks for a connection and calls others only while it
-- has no transaction, and issues every statement to one that has not failed.
structure Scoped (s : Api) (pid : Pid) : Prop where
  idle : (∀ c next, s.threads pid ≠ some (.call c next)) → s.shared.db.txs pid = none
  alone : ∀ {c next}, s.threads pid = some (.call c next) → need c = .connection ∨
    need c = .elsewhere → s.shared.db.txs pid = none
  sound : ∀ {c next}, s.threads pid = some (.call c next) → need c = .transaction → c ≠ .rollback →
    s.shared.db.txs pid ≠ none

theorem transactions_scoped {s : Api}
    (path : Reached (api cfg) (fun _ _ => True) (boot base serial uuids started) s)
    (pid : Pid) : Scoped s pid := by
  obtain ⟨scopeOf,agrees,phased,gone⟩ :=
    reached_phases (api_guarded _) serve_scoped (by simp [Agrees,boot,State.start,World.start])
    (fun _ => rfl) path
  have idle (outside : scopeOf pid ≠ .running) : s.shared.db.txs pid = none := by
    by_contra busy
    exact outside ((agrees pid).mp busy)
  have permitted {c next} (here : s.threads pid = some (.call c next)) : permits (scopeOf pid) c :=
    meets_duty (phased pid _ here)
  refine ⟨fun rests => ?_,fun {c next} here needs => idle fun running => ?_,
    fun {c next} here needs going => (agrees pid).mpr ?_⟩
  · cases here : s.threads pid with
    | none => exact idle (by rw [gone pid here]; decide)
    | some code =>
        have follows := phased pid code here
        cases code with
        | done value => exact idle (by rw [show scopeOf pid = .pool from follows]; decide)
        | fail err => exact idle (by rw [show scopeOf pid = .pool from follows]; decide)
        | call c rest => exact absurd here (rests c rest)
  · have allowed := permitted here
    rw [running] at allowed
    rcases allowed with kind | kind <;> rcases needs with other |
      other <;> cases kind.symm.trans other
  · exact needs_running (permitted here) needs going

namespace Controls
open RestApi.Controls

-- A lookup that fails inside Register: the transaction is gone and only the rollback is left.
def failing : Schedule := [.spawn 0 (.register asAnn "Bo" "b@x"),.step 0 .runs,.step 0 .fails]

def rolling (s : Api) : Bool := match s.threads 0 with
  | some (.call .rollback _) => true
  | _ => false

theorem transactions_scoped_failing : ∃ s, Reached (api config) (fun _ _ => True) init s ∧
    (∃ next, s.threads 0 = some (.call .rollback next)) ∧ s.shared.db.txs 0 = none ∧
      ∀ pid, Scoped s pid := by
  obtain ⟨s,path,left,gone⟩ := run_finds (api config) (fun _ _ => True) init failing
    (fun s => rolling s = true ∧ s.shared.db.txs 0 = none) (by decide +kernel)
  refine ⟨s,path,?_,gone,transactions_scoped path⟩
  unfold rolling at left
  split at left
  · rename_i next here
    exact ⟨next,here⟩
  · cases left

end Controls
end Runs
end RestApi.Discipline
