import RestApi.World

namespace RestApi
open Program

abbrev Service := Program Cmd Reply Err

namespace Service

def attempt (program : Service α) : Service (Except Err α) := program.settle .done
def wrapping (text : String) (program : Service α) : Service α :=
  program.catching fun err => .fail (.wrapped text err)

def now : Service Time := .call .clock .done

def newUUID : Service UUID := .call .newUUID fun
  | .ok id => .done id
  | .error _ => .fail .random

-- auth.GenerateOpaqueToken; the random part is what the command returns.
def generateOpaqueToken (label : String) : Service String := .call .opaqueToken fun
  | .ok raw => .done (if label ≠ "" then label ++ "_" ++ raw else raw)
  | .error _ => .fail .random

def hashPassword (plain : String) : Service String := .call (.bcrypt plain) fun
  | .ok hash => .done hash
  | .error _ => .fail .bcrypt

def verifyPassword (cfg : Config) (plain hashed : String) : Service Unit :=
  if cfg.compareHashAndPassword hashed plain then .done () else .fail .wrongCredentials

-- DB.Transact. A failed Acquire is a failed Begin.
def transact (body : Service α) : Service α := .call .openTx fun
  | .error err => .fail (.wrapped "tx failed to begin transaction" (.sql err))
  | .ok _ => body.settle fun
    | .error err => .call .rollback fun _ => .fail err
    | .ok value => .call .commit fun
      | .ok _ => .done value
      | .error err => .fail (.wrapped "tx failed to commit" (.sql err))

end Service

-- Which connection DB.GetConn finds in the context.
inductive Conn where
  | pool
  | tx
  deriving DecidableEq, Repr

-- FOR UPDATE is added only on a transaction's connection.
def query (conn : Conn) (test : Row → Bool)
    (next : Except SqlError (List Row) → Service α) : Service α :=
  match conn with
  | .pool => .call (.select test) next
  | .tx => .call (.lock test) next

-- pgxscan.Get: exactly one row.
def scanOne (pick : Row → Option α) (missing : Err) (text : String) :
    Except SqlError (List Row) → Service α
  | .error err => .fail (.wrapped text (.sql err))
  | .ok [] => .fail missing
  | .ok [row] => match pick row with
      | some value => .done value
      | none => .fail (.wrapped text .multipleRows)
  | .ok _ => .fail (.wrapped text .multipleRows)

def execute (text : String) : Except SqlError α → Service Unit
  | .error err => .fail (.wrapped text (.sql err))
  | .ok _ => .done ()

section Users

def Row.user? : Row → Option User
  | .user row => some row.user
  | _ => none

def liveUser (test : User → Bool) : Row → Bool
  | .user row => row.deletedAt.isNone && test row.user
  | _ => false

def userWithID (id : UUID) : Row → Bool
  | .user row => row.user.id = id
  | _ => false

def getUserBy (conn : Conn) (test : User → Bool) : Service User :=
  query conn (liveUser test) (scanOne Row.user? .notFound "query")

def getByEmail (conn : Conn) (email : String) : Service User :=
  getUserBy conn fun u => u.email = email
def getByID (conn : Conn) (userID : UUID) : Service User := getUserBy conn fun u => u.id = userID

-- INSERT .. RETURNING created_at, updated_at.
def storeUser (u : User) : Service User :=
  .call (.insert fun began _ => .user ⟨{u with createdAt := began,updatedAt := began},none⟩) fun
    | .ok (.user row) => .done row.user
    | .ok _ => .fail (.wrapped "store user" .noRows)
    | .error (.unique "users_email_key") => .fail .emailConflict
    | .error err => .fail (.wrapped "store user" (.sql err))

-- userRepository.Update rewrites every column it names from the given struct.
def rewriteUser (u : User) (began : Time) : Row → Row
  | .user row => .user {row with user := {row.user with
      name := u.name,email := u.email,emailVerifiedAt := u.emailVerifiedAt,
      password := u.password,phone := u.phone,gender := u.gender,
      profilePicture := u.profilePicture,updatedAt := began}}
  | row => row

def updateUserRow (u : User) : Service User :=
  .call (.update (userWithID u.id) (rewriteUser u)) fun
    | .ok (.user row :: _) => .done {u with updatedAt := row.user.updatedAt}
    | .ok _ => .fail (.wrapped "update user" .noRows)
    | .error (.unique "users_email_key") => .fail .emailConflict
    | .error err => .fail (.wrapped "update user" (.sql err))

def softDelete (began : Time) : Row → Row
  | .user row => .user {row with deletedAt := some began}
  | row => row

def deleteUserRow (u : User) : Service Unit :=
  .call (.update (userWithID u.id) softDelete) (execute "delete user")

end Users

section Sessions

def Row.session? : Row → Option Session
  | .session row => some row
  | _ => none

def sessionWithID (id : UUID) : Row → Bool
  | .session row => row.id = id
  | _ => false

def sessionWithHash (hash : String) : Row → Bool
  | .session row => row.refreshTokenHash = hash
  | _ => false

def activeSessionOf (userID : UUID) : Row → Bool
  | .session row => row.userID = userID && row.revokedAt.isNone
  | _ => false

def storeSession (session : Session) : Service Unit :=
  .call (.insert fun began _ => .session {session with createdAt := began,revokedAt := none})
    (execute "store session")

def rewriteSession (session : Session) (_ : Time) : Row → Row
  | .session row => .session {row with
      refreshTokenHash := session.refreshTokenHash,ipAddr := session.ipAddr,
      userAgent := session.userAgent,revokedAt := session.revokedAt,
      accessedAt := session.accessedAt}
  | row => row

def updateSession (session : Session) : Service Unit :=
  .call (.update (sessionWithID session.id) (rewriteSession session)) (execute "update session")

def revokeRow (began : Time) : Row → Row
  | .session row => .session {row with revokedAt := some began}
  | row => row

def revokeUserSessionRows (userID : UUID) : Service Unit :=
  .call (.update (activeSessionOf userID) revokeRow) (execute "revoke user sessions")

def getSessionByID (conn : Conn) (sessionID : UUID) : Service Session :=
  query conn (sessionWithID sessionID) (scanOne Row.session? .notFound "session by id")

def getSessionByRefreshTokenHash (conn : Conn) (hash : String) : Service Session :=
  query conn (sessionWithHash hash)
    (scanOne Row.session? .notFound "session by refresh_token_hash token hash")

end Sessions

section Tokens

def Row.recovery? : Row → Option PasswordRecoveryToken
  | .recovery row => some row
  | _ => none

def Row.registration? : Row → Option RegistrationToken
  | .registration row => some row
  | _ => none

def recoveryWithHash (hash : String) : Row → Bool
  | .recovery row => row.tokenHash = hash
  | _ => false

def recoveryWithID (id : Nat) : Row → Bool
  | .recovery row => row.id = id
  | _ => false

def registrationWithHash (hash : String) : Row → Bool
  | .registration row => row.tokenHash = hash
  | _ => false

def registrationWithID (id : Nat) : Row → Bool
  | .registration row => row.id = id
  | _ => false

def outstandingFor (email : String) : Row → Bool
  | .registration row => row.email = email && row.usedAt.isNone && row.revokedAt.isNone
  | _ => false

def getPasswordRecoveryToken (conn : Conn) (hash : String) : Service PasswordRecoveryToken :=
  query conn (recoveryWithHash hash) (scanOne Row.recovery? .notFound "get password recovery token")

def storePasswordRecoveryToken (token : PasswordRecoveryToken) : Service Unit :=
  .call (.insert fun _ serial => .recovery {token with id := serial,usedAt := none})
    (execute "store password recovery token")

def useRecovery (usedAt : Option Time) (_ : Time) : Row → Row
  | .recovery row => .recovery {row with usedAt := usedAt}
  | row => row

def updatePasswordRecoveryToken (token : PasswordRecoveryToken) : Service Unit :=
  .call (.update (recoveryWithID token.id) (useRecovery token.usedAt))
    (execute "update password recovery token")

def getRegistrationToken (conn : Conn) (hash : String) : Service RegistrationToken :=
  query conn (registrationWithHash hash)
    (scanOne Row.registration? (.wrapped "get registration token" .notFound)
      "get registration token")

-- INSERT .. RETURNING id.
def storeRegistrationToken (token : RegistrationToken) : Service RegistrationToken :=
  .call (.insert fun _ serial => .registration
    {token with id := serial,usedAt := none,revokedAt := none}) fun
    | .ok (.registration row) => .done {token with id := row.id}
    | .ok _ => .fail (.wrapped "store registration token" .noRows)
    | .error err => .fail (.wrapped "store registration token" (.sql err))

def useRegistration (usedAt : Option Time) (_ : Time) : Row → Row
  | .registration row => .registration {row with usedAt := usedAt}
  | row => row

def updateRegistrationToken (token : RegistrationToken) : Service Unit :=
  .call (.update (registrationWithID token.id) (useRegistration token.usedAt))
    (execute "update registration token")

def supersede (began : Time) : Row → Row
  | .registration row => .registration {row with revokedAt := some began}
  | row => row

def revokeRegistrationTokens (email : String) : Service Unit :=
  .call (.update (outstandingFor email) supersede) (execute "revoke registration tokens")

end Tokens

section Audit

-- A Go map: writing a key replaces its value.
def putMeta (fields : List (String × String)) (name value : String) : List (String × String) :=
  (name,value) :: fields.filter fun field => field.1 ≠ name

def fillMeta (ctx : Ctx) (fields : List (String × String)) : List (String × String) :=
  let fields := match ctx.audit with
    | some a =>
        putMeta (putMeta (putMeta fields "request_id" a.requestID) "ip_addr" a.ip)
          "user_agent" a.userAgent
    | none => fields
  match ctx.rbac with
  | some c =>
      let fields := if c.userID.isSome then putMeta fields "session_id" c.sessionID else fields
      putMeta fields "actor_role" c.role.text
  | none => fields

-- FillActorMeta sets actor_id from the actor; the nil UUID counts as null.
def actorOf (ctx : Ctx) : Option UUID :=
  (ctx.rbac.bind RbacContext.userID).filter fun id => id ≠ uuidNil

structure AuditRecord where
  action : Action
  entity : String
  entityID : String
  prev : Option Payload
  next : Option Payload
  metadata : List (String × String)
  deriving DecidableEq, Repr

def auditEntry (ctx : Ctx) (r : AuditRecord) (began : Time) (serial : Nat) : AuditEntry :=
  ⟨serial,actorOf ctx,r.action,r.entity,r.entityID,r.prev,r.next,fillMeta ctx r.metadata,began⟩

def recordAudit (ctx : Ctx) (r : AuditRecord) : Service Unit :=
  .call (.insert fun began serial => .audit (auditEntry ctx r began serial))
    (execute "insert audit log")

end Audit
end RestApi
