import RestApi.Auth
import RestApi.Search

namespace RestApi
open Service

section Authorizer

-- rbac.PermissionTable; a role without an entry holds nothing.
abbrev PermissionTable := Role → Option (List Permission)

-- Registering merges: no permission is ever taken away.
def registerPermissions (table perms : PermissionTable) : PermissionTable :=
  fun role => match perms role with
  | some permissions => some (permissions ++ (table role).getD [])
  | none => table role

def can (table : PermissionTable) (role : Role) (perms : List Permission) : Except Err Unit :=
  match table role with
  | none => .error .unauthorizedPermission
  | some rolePerms =>
      if perms.all fun perm => perm ∈ rolePerms then .ok () else .error .unauthorizedPermission

end Authorizer

def AuthService.permTables : PermissionTable
  | .system => some [.changePassword,.registerUser,.revokeUserSessions,.viewUserSessions]
  | .admin => some [.changePassword,.registerUser,.revokeUserSessions,.viewUserSessions]
  | .user => some []

def UserService.permTables : PermissionTable
  | .system => some [.userRead,.userUpdate,.userDelete]
  | .admin => some [.userRead,.userUpdate,.userDelete]
  | .user => some []

def AuditService.permTables : PermissionTable
  | .system => some [.auditRead]
  | .admin => some [.auditRead]
  | .user => none

inductive Entity where
  | auth
  | user
  | audit
  deriving DecidableEq, Repr

def Entity.permTables : Entity → PermissionTable
  | .auth => AuthService.permTables
  | .user => UserService.permTables
  | .audit => AuditService.permTables

-- The authorizer's table once the services have registered, in this order and
-- this often.
def registered (order : List Entity) : PermissionTable :=
  order.foldl (fun table entity => registerPermissions table entity.permTables) fun _ => none

def authorized (cfg : Config) (order : List Entity) : Config :=
  {cfg with can := fun role permission => (can (registered order) role [permission]).isOk}

theorem register_nothing {table perms : PermissionTable}
    (empty : ∀ permissions ∈ table role, permissions = [])
    (more : ∀ permissions ∈ perms role, permissions = []) :
    ∀ permissions ∈ registerPermissions table perms role, permissions = [] := by
  intro permissions held
  cases added : perms role with
  | none =>
      simp only [registerPermissions,added] at held
      exact empty permissions held
  | some new =>
      have old : (table role).getD [] = [] := by
        cases before : table role with
        | none => rfl
        | some old => exact empty old before
      simp only [registerPermissions,added,more new added,old,List.append_nil,Option.mem_def,
        Option.some.injEq] at held
      exact held.symm

theorem Entity.user_nothing (entity : Entity) :
    ∀ permissions ∈ entity.permTables .user, permissions = [] := by
  cases entity with
  | auth => exact fun permissions held => (Option.some.inj held).symm
  | user => exact fun permissions held => (Option.some.inj held).symm
  | audit => exact nofun

theorem registered_user (order : List Entity) :
    ∀ permissions ∈ registered order .user, permissions = [] := by
  have merged : ∀ table : PermissionTable, (∀ permissions ∈ table .user, permissions = []) →
      ∀ permissions ∈ order.foldl (fun table entity =>
      registerPermissions table entity.permTables) table .user, permissions = [] := by
    induction order with
    | nil => exact fun table empty => empty
    | cons entity rest ih =>
        exact fun table empty => ih _ (register_nothing empty entity.user_nothing)
  exact merged _ nofun

theorem user_unauthorized (cfg : Config) (order : List Entity) (permission : Permission) :
    (authorized cfg order).can .user permission = false := by
  have nothing := registered_user order
  simp only [authorized,can]
  cases held : registered order .user with
  | none => rfl
  | some permissions => rw [nothing permissions held]; rfl

-- The paged listings behind the read permissions.
structure Listings where
  users : Query.Search User.Filter → Service (List User)
  entries : Query.Search Audit.Filter → Service (List AuditEntry)

namespace UserService
variable (cfg : Config)

def listUser (repo : Listings) (ctx : Ctx)
    (search : Query.Search User.Filter) : Service (List User) := do
  require cfg ctx .userRead
  repo.users search

def getUserByID (ctx : Ctx) (userID : UUID) : Service User := do
  requireSelfOr cfg ctx userID .userRead
  getByID .pool userID

def getUserByEmail (ctx : Ctx) (email : String) : Service User := do
  let usr ← getByEmail .pool email
  requireSelfOr cfg ctx usr.id .userRead
  return usr

end UserService

-- Outside a transaction NOW() is the start of the statement itself.
def listedSession (userID : UUID) (started : Time) : Row → Bool
  | .session row => row.userID = userID && started < row.expiresAt && row.revokedAt.isNone
  | _ => false

-- The columns read leave the refresh token hash out.
def listSessions (userID : UUID) : Service (List Session) := do
  let started ← now
  .call (.select (listedSession userID started)) fun
    | .error err => .fail (.wrapped "list session" (.sql err))
    | .ok rows =>
        let found := (rows.filterMap Row.session?).map fun sess =>
          {sess with refreshTokenHash := ""}
        .done (found.mergeSort fun x y => y.accessedAt ≤ x.accessedAt)

def AuthService.listUserSessions (cfg : Config) (ctx : Ctx)
    (userID : UUID) : Service (List Session) := do
  requireSelfOr cfg ctx userID .viewUserSessions
  listSessions userID

def AuditService.list (cfg : Config) (repo : Listings) (ctx : Ctx)
    (search : Query.Search Audit.Filter) : Service (List AuditEntry) := do
  require cfg ctx .auditRead
  repo.entries search

-- The operations that only read.
inductive Lookup where
  | listUser (search : Query.Search User.Filter)
  | getUserByID (userID : UUID)
  | getUserByEmail (email : String)
  | listUserSessions (userID : UUID)
  | listEntries (search : Query.Search Audit.Filter)
  deriving DecidableEq, Repr

inductive Found where
  | users (users : List User)
  | user (user : User)
  | sessions (sessions : List Session)
  | entries (entries : List AuditEntry)
  deriving DecidableEq, Repr

def look (cfg : Config) (repo : Listings) (ctx : Ctx) : Lookup → Service Found
  | .listUser search => .users <$> UserService.listUser cfg repo ctx search
  | .getUserByID userID => .user <$> UserService.getUserByID cfg ctx userID
  | .getUserByEmail email => .user <$> UserService.getUserByEmail cfg ctx email
  | .listUserSessions userID => .sessions <$> AuthService.listUserSessions cfg ctx userID
  | .listEntries search => .entries <$> AuditService.list cfg repo ctx search

end RestApi
