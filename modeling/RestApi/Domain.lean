import RestApi.RowStore

namespace RestApi

-- The canonical text of a UUID.
abbrev UUID := String
def uuidNil : UUID := "00000000-0000-0000-0000-000000000000"

-- Nanoseconds since the epoch, and between two instants.
abbrev Time := Int
abbrev Duration := Int
def second : Duration := 1000000000

inductive Role where
  | admin
  | user
  | system
  deriving DecidableEq, Repr

def Role.text : Role → String
  | .admin => "admin"
  | .user => "user"
  | .system => "system"

inductive Permission where
  | changePassword
  | registerUser
  | revokeUserSessions
  | viewUserSessions
  | userRead
  | userUpdate
  | userDelete
  | auditRead
  deriving DecidableEq, Repr

inductive Action where
  | register
  | completeRegistration
  | login
  | logout
  | changePassword
  | resetPassword
  | recoverPassword
  | revokeUserSessions
  | revokeSession
  | userUpdate
  | userDelete
  | changeProfilePicture
  | deleteProfilePicture
  deriving DecidableEq, Repr

-- What PostgreSQL reports: a violated unique constraint by name, or any other
-- failure (lost connection, cancelled context, deadlock victim).
inductive SqlError where
  | unique (constraint : String)
  | other
  deriving DecidableEq, Repr

inductive Err where
  | notFound
  | emailConflict
  | validation (detail : String)
  | wrongCredentials
  | sessionInvalid
  | sessionEmptyUID
  | sessionInvalidTTL
  | invalidRegistrationToken
  | invalidPasswordRecoveryToken
  | passwordRecoveryThrottled
  | unauthorizedPermission
  | rbacContextNotFound
  | auditContextNotFound
  | accessTokenExpired
  | accessTokenInvalid
  | bcrypt
  | random
  | signing
  | sql (error : SqlError)
  | noRows
  | multipleRows
  | redis
  | invalidWatermark
  | storage
  | wrapped (text : String) (err : Err)
  deriving DecidableEq, Repr

-- errors.Is(err, apperr.ErrNotFound): it looks through wrapped errors.
def Err.isNotFound : Err → Bool
  | .notFound => true
  | .wrapped _ err => err.isNotFound
  | _ => false

-- Nullable.Set(value, false): the zero value becomes null.
def setNullable (value : String) : Option String := if value = "" then none else some value

abbrev Gender := String
def Gender.isValid (g : Gender) : Bool := g = "M" || g = "F" || g = "O"

structure User where
  id : UUID
  name : String
  email : String
  emailVerifiedAt : Option Time
  password : String
  gender : Option Gender
  phone : Option String
  role : Role
  profilePicture : Option String
  createdAt : Time
  updatedAt : Time
  deriving DecidableEq, Repr

-- The column `deleted_at` has no field in the Go struct.
structure UserRow where
  user : User
  deletedAt : Option Time
  deriving DecidableEq, Repr

structure Session where
  id : UUID
  userID : UUID
  refreshTokenHash : String
  ipAddr : String
  userAgent : String
  accessedAt : Time
  createdAt : Time
  expiresAt : Time
  revokedAt : Option Time
  deriving DecidableEq, Repr

def Session.isExpired (s : Session) (now : Time) : Bool := s.expiresAt < now
def Session.revoke (s : Session) (now : Time) : Session := {s with revokedAt := some now}

structure RegistrationToken where
  id : Nat
  name : String
  email : String
  tokenHash : String
  createdAt : Time
  expiresAt : Time
  usedAt : Option Time
  revokedAt : Option Time
  deriving DecidableEq, Repr

def RegistrationToken.isValid (t : RegistrationToken) (now : Time) : Bool :=
  t.usedAt.isNone && t.revokedAt.isNone && now < t.expiresAt

structure PasswordRecoveryToken where
  id : Nat
  userID : UUID
  tokenHash : String
  issuedAt : Time
  expiresAt : Time
  usedAt : Option Time
  deriving DecidableEq, Repr

def PasswordRecoveryToken.expired (t : PasswordRecoveryToken) (now : Time) : Bool :=
  t.expiresAt < now
def PasswordRecoveryToken.isUsed (t : PasswordRecoveryToken) : Bool := t.usedAt.isSome

inductive Payload where
  | user (user : User)
  | registrationToken (token : RegistrationToken)
  deriving DecidableEq, Repr

structure AuditEntry where
  id : Nat
  actorID : Option UUID
  action : Action
  entity : String
  entityID : String
  prev : Option Payload
  next : Option Payload
  metadata : List (String × String)
  createdAt : Time
  deriving DecidableEq, Repr

inductive Row where
  | user (row : UserRow)
  | session (row : Session)
  | registration (row : RegistrationToken)
  | recovery (row : PasswordRecoveryToken)
  | audit (row : AuditEntry)
  deriving DecidableEq, Repr

inductive Key where
  | user (id : UUID)
  | session (id : UUID)
  | registration (id : Nat)
  | recovery (id : Nat)
  | audit (id : Nat)
  deriving DecidableEq, Repr

def Row.key : Row → Key
  | .user row => .user row.user.id
  | .session row => .session row.id
  | .registration row => .registration row.id
  | .recovery row => .recovery row.id
  | .audit row => .audit row.id

-- The unique constraint two rows would break together, if any. users_email_key
-- is a partial index: soft-deleted users are not in it.
def Row.violation : Row → Row → Option String
  | .user a,.user b => if a.deletedAt.isNone ∧ b.deletedAt.isNone ∧ a.user.email = b.user.email then
      some "users_email_key" else none
  | .session a,.session b =>
      if a.refreshTokenHash = b.refreshTokenHash then some "sessions_refresh_token_hash_key"
      else none
  | .registration a,.registration b =>
      if a.tokenHash = b.tokenHash then some "registration_tokens_token_hash_key" else none
  | .recovery a,.recovery b => if a.userID = b.userID ∧ a.tokenHash = b.tokenHash then
      some "password_recovery_tokens_user_id_token_hash_key" else none
  | _,_ => none

def schema : RowStore.Schema Row Key where
  key := Row.key
  clash a b := (a.violation b).isSome
  symm a b := by
    cases a <;> cases b <;> simp only [Row.violation,Option.isSome_none]
    · congr 2; simp only [eq_iff_iff]; constructor <;> rintro ⟨x,y,z⟩ <;> exact ⟨y,x,z.symm⟩
    · congr 2; exact propext eq_comm
    · congr 2; exact propext eq_comm
    · congr 2; simp only [eq_iff_iff]; constructor <;> rintro ⟨x,y⟩ <;> exact ⟨x.symm,y.symm⟩

end RestApi
