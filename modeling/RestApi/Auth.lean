import RestApi.Revocation

namespace RestApi
open Service

section Rbac
variable (cfg : Config)

def require (ctx : Ctx) (permission : Permission) : Service Unit := match ctx.rbac with
  | none => .fail .rbacContextNotFound
  | some c => if cfg.can c.role permission then .done () else .fail .unauthorizedPermission

def requireSelfOr (ctx : Ctx) (userID : UUID) (permission : Permission) : Service Unit :=
  match ctx.rbac with
  | none => .fail .rbacContextNotFound
  | some c =>
      if c.userID = some userID then .done ()
      else if cfg.can c.role permission then .done () else .fail .unauthorizedPermission

end Rbac

section Entities
variable (cfg : Config)

def auditContext (ctx : Ctx) (text : String) : Service AuditContext := match ctx.audit with
  | some a => .done a
  | none => .fail (.wrapped text .auditContextNotFound)

def generateRefreshToken : Service String := generateOpaqueToken "rt"

def newSession (ctx : Ctx) (userID : UUID) : Service (Session × String) :=
  if cfg.sessionTTL ≤ 0 then .fail .sessionInvalidTTL
  else if userID = uuidNil then .fail .sessionEmptyUID
  else do
    let sessID ← newUUID
    let refreshToken ← generateRefreshToken
    let a ← auditContext ctx "new session"
    let created ← now
    return (⟨sessID,userID,cfg.hashStr refreshToken,a.ip,a.userAgent,created,created,
      created+cfg.sessionTTL,none⟩,refreshToken)

def rotate (ctx : Ctx) (session : Session) : Service (Session × String) := do
  let newToken ← generateRefreshToken
  let a ← auditContext ctx "rotate session"
  let accessed ← now
  return ({session with
    refreshTokenHash := cfg.hashStr newToken,accessedAt := accessed,ipAddr := a.ip,
    userAgent := a.userAgent},newToken)

def newRegistrationToken (name email : String) : Service (RegistrationToken × String) := do
  let rawToken ← wrapping "new registration token" (generateOpaqueToken "regt")
  let created ← now
  return (⟨0,name,email,cfg.hashStr rawToken,created,created+cfg.registrationTokenTTL,none,none⟩,
    rawToken)

def newPasswordRecoveryToken (userID : UUID) : Service (PasswordRecoveryToken × String) := do
  let token ← generateOpaqueToken ""
  let issued ← now
  return (⟨0,userID,cfg.hashStr token,issued,issued+cfg.passwordRecoveryTokenTTL,none⟩,token)

def User.validate (u : User) : Except Err Unit :=
  if u.name = "" then .error (.validation "name is required")
  else if u.email = "" then .error (.validation "email is required")
  else if !cfg.parseAddress u.email then .error (.validation "email must be a valid email address")
  else if u.password = "" then .error (.validation "password is required")
  else if u.gender.any fun g => !Gender.isValid g then .error (.validation "invalid gender")
  else .ok ()

def checked : Except Err Unit → Service Unit
  | .ok _ => .done ()
  | .error err => .fail err

def newUser (name email hashedPassword : String) : Service User := do
  let id ← newUUID
  let verified ← now
  let u : User := ⟨id,name,email,some verified,hashedPassword,none,none,.user,none,0,0⟩
  checked (User.validate cfg u)
  return u

-- token.Use reads the clock for its own validity check and again for used_at.
def useToken (token : RegistrationToken) : Service RegistrationToken := do
  let checkedAt ← now
  if !token.isValid checkedAt then throw .invalidRegistrationToken
  else do
    let used ← now
    return {token with usedAt := some used}

end Entities

section Throttle

-- Throttler.TryAcquire.
def tryAcquire (key : String) (ttl : Duration) : Service (Bool × Time) :=
  if key = "" then .fail .redis
  else if ttl ≤ 0 then .fail .redis
  else .call (.redisSetNX ("throttle:" ++ key) "L" ttl) fun
    | .error _ => .fail (.wrapped "acquire throttle" .redis)
    | .ok acquired => do
      let acquiredAt ← now
      if acquired then return (true,acquiredAt+ttl)
      else .call (.redisTTL ("throttle:" ++ key)) fun
        | .error _ => .fail (.wrapped "get throttle TTL" .redis)
        | .ok retryAfter => .done (false,acquiredAt+retryAfter)

def passwordRecoveryThrottledTTL : Duration := 30*second

def produceEvent (message : Message) : Service Unit := .call (.produce message) fun
  | .ok _ => .done ()
  | .error _ => .fail .redis

end Throttle

namespace AuthService
variable (cfg : Config)

-- The transaction of Register.
def invite (ctx : Ctx) (name email : String) : Service String := transact do
  match ← attempt (getByEmail .tx email) with
  | .ok _ => throw .emailConflict
  | .error err =>
    if !err.isNotFound then throw (.wrapped "looking up user by email" err)
    else do
      wrapping "revoking previous registration tokens" (revokeRegistrationTokens email)
      let (token,rawToken) ← wrapping "creating registration token"
        (newRegistrationToken cfg name email)
      let token ← wrapping "storing registration token" (storeRegistrationToken token)
      recordAudit ctx ⟨.register,"registration_token",toString token.id,none,
        some (.registrationToken token),[]⟩
      return rawToken

def register (ctx : Ctx) (name email : String) : Service Value := do
  if cfg.internalMode then require cfg ctx .registerUser
  let rawToken ← invite cfg ctx name email
  wrapping "registration succeeded but failed to send completion email" (produceEvent
    ⟨"email.user_registration",email,name,
      cfg.completeRegistrationFormEndpoint ++ "?token=" ++ rawToken,cfg.registrationTokenTTL⟩)
  return .nil

def completeRegistration (ctx : Ctx) (token password : String) : Service Value := transact do
  match ← attempt (getRegistrationToken .tx (cfg.hashStr token)) with
  | .error err => throw (if err.isNotFound then .invalidRegistrationToken else err)
  | .ok regToken =>
    let checkedAt ← now
    if !regToken.isValid checkedAt then throw .invalidRegistrationToken
    else do
      let passwordHash ← hashPassword password
      let u ← newUser cfg regToken.name regToken.email passwordHash
      let used ← useToken regToken
      updateRegistrationToken used
      let stored ← storeUser u
      recordAudit ctx ⟨.completeRegistration,"user",u.id,none,some (.user stored),[]⟩
      return .nil

def login (ctx : Ctx) (email password : String) : Service Value := do
  match ← attempt (getByEmail .pool email) with
  | .error err => throw (if err.isNotFound then .wrongCredentials else err)
  | .ok usr =>
    verifyPassword cfg password usr.password
    let (sess,refreshToken) ← newSession cfg ctx usr.id
    let accessToken ← signAccessToken cfg usr.id sess.id usr.role
    transact do
      storeSession sess
      recordAudit ctx ⟨.login,"user",usr.id,none,none,[("session_id",sess.id)]⟩
    return .tokenPair accessToken refreshToken

def refreshAccessToken (ctx : Ctx) (refreshToken : String) : Service Value := transact do
  match ← attempt (getSessionByRefreshTokenHash .tx (cfg.hashStr refreshToken)) with
  | .error err => throw (if err.isNotFound then .sessionInvalid else err)
  | .ok sess =>
    let checkedAt ← now
    if sess.isExpired checkedAt then throw .sessionInvalid
    else if sess.revokedAt.isSome then throw .sessionInvalid
    else do
      let u ← getByID .tx sess.userID
      let newAccessToken ← signAccessToken cfg sess.userID sess.id u.role
      let (rotated,newRefreshToken) ← rotate cfg ctx sess
      updateSession rotated
      return .tokenPair newAccessToken newRefreshToken

-- Shared by Logout and RevokeSession: the row is already dead, or it is revoked
-- and audited.
def endSession (ctx : Ctx) (session : Session) (record : AuditRecord) : Service Unit := do
  let checkedAt ← now
  if session.isExpired checkedAt || session.revokedAt.isSome then return ()
  else do
    let revokedAt ← now
    updateSession (session.revoke revokedAt)
    recordAudit ctx record

def logout (ctx : Ctx) (sessID : UUID) : Service Value := do
  transact do
    let session ← getSessionByID .tx sessID
    endSession ctx session ⟨.logout,"user",session.userID,none,none,[("session_id",sessID)]⟩
  let deadline ← cleanupDeadline
  let _ ← attempt (revokeSessionMarker cfg sessID deadline)
  return .nil

def recoverPassword (ctx : Ctx) (email : String) : Service Value := do
  let th ← tryAcquire ("recover-password:" ++ email) passwordRecoveryThrottledTTL
  if !th.1 then throw .passwordRecoveryThrottled
  else do
    let message ← transact do
      let usr ← getByEmail .tx email
      let (tokenObj,tokenRaw) ← newPasswordRecoveryToken cfg usr.id
      storePasswordRecoveryToken tokenObj
      recordAudit ctx ⟨.recoverPassword,"user",usr.id,none,none,[]⟩
      return (⟨"email.password_recovery",usr.email,usr.name,
        cfg.resetPasswordFormEndpoint ++ "?token=" ++ tokenRaw,
        cfg.passwordRecoveryTokenTTL⟩ : Message)
    produceEvent message
    return .throttle th.1 th.2

def resetPassword (ctx : Ctx) (token newPassword : String) : Service Value := do
  let revokedUserID ← transact do
    match ← attempt (getPasswordRecoveryToken .tx (cfg.hashStr token)) with
    | .error err => throw (if err.isNotFound then .invalidPasswordRecoveryToken else err)
    | .ok token =>
      let checkedAt ← now
      if token.expired checkedAt || token.isUsed then throw .invalidPasswordRecoveryToken
      else do
        let user ← getByID .tx token.userID
        let newHashedPassword ← hashPassword newPassword
        let user := {user with password := newHashedPassword}
        let used ← now
        updatePasswordRecoveryToken {token with usedAt := some used}
        let _ ← updateUserRow user
        revokeUserSessionRows user.id
        recordAudit ctx ⟨.resetPassword,"user",user.id,none,none,[]⟩
        return user.id
  let deadline ← cleanupDeadline
  let _ ← attempt (revokeAllForUser cfg revokedUserID deadline)
  return .nil

def changePassword (ctx : Ctx) (userID : UUID) (password newPassword : String) : Service Value := do
  requireSelfOr cfg ctx userID .changePassword
  let usr ← getByID .pool userID
  verifyPassword cfg password usr.password
  let newHashedPassword ← hashPassword newPassword
  let usr := {usr with password := newHashedPassword}
  transact do
    let _ ← updateUserRow usr
    revokeUserSessionRows userID
    recordAudit ctx ⟨.changePassword,"user",userID,none,none,[]⟩
  let deadline ← cleanupDeadline
  let _ ← attempt (revokeAllForUser cfg userID deadline)
  return .nil

def revokeUserSessions (ctx : Ctx) (userID : UUID) : Service Value := do
  require cfg ctx .revokeUserSessions
  transact do
    revokeUserSessionRows userID
    recordAudit ctx ⟨.revokeUserSessions,"user",userID,none,none,[]⟩
  let deadline ← cleanupDeadline
  revokeAllForUser cfg userID deadline
  return .nil

def revokeSession (ctx : Ctx) (sessionID : UUID) : Service Value := do
  transact do
    let sess ← getSessionByID .tx sessionID
    requireSelfOr cfg ctx sess.userID .revokeUserSessions
    endSession ctx sess ⟨.revokeSession,"session",sessionID,none,none,[]⟩
  let deadline ← cleanupDeadline
  revokeSessionMarker cfg sessionID deadline
  return .nil

end AuthService

namespace UserService
variable (cfg : Config)

def updateUser (ctx : Ctx) (userID : UUID) (name phone gender : String) : Service Value := do
  requireSelfOr cfg ctx userID .userUpdate
  transact do
    let prev ← getByID .tx userID
    let usr := {prev with
      name := name,phone := setNullable phone,gender := setNullable (cfg.toUpper gender)}
    checked (User.validate cfg usr)
    let stored ← updateUserRow usr
    recordAudit ctx ⟨.userUpdate,"user",userID,some (.user prev),some (.user stored),[]⟩
    return .nil

def deleteUser (ctx : Ctx) (userID : UUID) : Service Value := do
  require cfg ctx .userDelete
  transact do
    match ← attempt (getByID .tx userID) with
    | .error err => if err.isNotFound then return () else throw err
    | .ok usr =>
      deleteUserRow usr
      revokeUserSessionRows userID
      recordAudit ctx ⟨.userDelete,"user",usr.id,none,none,[]⟩
  let deadline ← cleanupDeadline
  revokeAllForUser cfg userID deadline
  return .nil

def buildImagePath (imageName : String) : String := "profiles" ++ "/" ++ imageName

def putImage (path : String) : Service Unit := .call (.put path) fun
  | .ok _ => .done ()
  | .error _ => .fail .storage

def asyncDeleteImage (path : String) : Service Unit := .call (.asyncDelete path) .done

def changeProfilePicture (ctx : Ctx) (userID : UUID) (ext : String) : Service Value := do
  requireSelfOr cfg ctx userID .userUpdate
  let id ← newUUID
  let newImageName := id ++ ext
  putImage (buildImagePath newImageName)
  match ← attempt (transact do
      let prev ← getByID .tx userID
      let usr := {prev with profilePicture := setNullable newImageName}
      let stored ← updateUserRow usr
      recordAudit ctx ⟨.changeProfilePicture,"user",userID,some (.user prev),some (.user stored),[]⟩
      return prev.profilePicture) with
  | .error err => do
      asyncDeleteImage (buildImagePath newImageName)
      throw err
  | .ok prevImage => do
      match prevImage with
      | some image => asyncDeleteImage (buildImagePath image)
      | none => pure ()
      return .nil

def deleteProfilePicture (ctx : Ctx) (userID : UUID) : Service Value := do
  requireSelfOr cfg ctx userID .userUpdate
  let prevImage ← transact do
    let prev ← getByID .tx userID
    match prev.profilePicture with
    | none => return none
    | some image => do
      let usr := {prev with profilePicture := none}
      let stored ← updateUserRow usr
      recordAudit ctx ⟨.deleteProfilePicture,"user",userID,some (.user prev),some (.user stored),[]⟩
      return some image
  match prevImage with
  | some image => asyncDeleteImage (buildImagePath image)
  | none => pure ()
  return .nil

end UserService

def serve (cfg : Config) : Request → Service Value
  | .register ctx name email => AuthService.register cfg ctx name email
  | .completeRegistration ctx token password =>
      AuthService.completeRegistration cfg ctx token password
  | .login ctx email password => AuthService.login cfg ctx email password
  | .refreshAccessToken ctx refreshToken => AuthService.refreshAccessToken cfg ctx refreshToken
  | .logout ctx sessID => AuthService.logout cfg ctx sessID
  | .recoverPassword ctx email => AuthService.recoverPassword cfg ctx email
  | .resetPassword ctx token newPassword => AuthService.resetPassword cfg ctx token newPassword
  | .changePassword ctx userID password newPassword =>
      AuthService.changePassword cfg ctx userID password newPassword
  | .revokeUserSessions ctx userID => AuthService.revokeUserSessions cfg ctx userID
  | .revokeSession ctx sessionID => AuthService.revokeSession cfg ctx sessionID
  | .updateUser ctx userID name phone gender =>
      UserService.updateUser cfg ctx userID name phone gender
  | .deleteUser ctx userID => UserService.deleteUser cfg ctx userID
  | .changeProfilePicture ctx userID ext => UserService.changeProfilePicture cfg ctx userID ext
  | .deleteProfilePicture ctx userID => UserService.deleteProfilePicture cfg ctx userID
  | .authenticate token => authenticate cfg token

open Pool in
def api (cfg : Config) : Machine Cmd Reply Err Value World Request Choice Surroundings where
  code := serve cfg
  accept := accept
  exec := exec cfg
  abandon := World.abort
  env := surroundings

end RestApi
