import RestApi.Handlers

namespace RestApi.Http
open Pool Program RouteTable Stages

inductive Handler where
  | rateLimit (max : Nat)
  | auditContext
  | authenticate
  | health
  | login
  | register
  | completeRegistration
  | getRegistrationToken
  | refreshAccessToken
  | recoverPassword
  | getPasswordRecoveryToken
  | resetPassword
  | logout
  | getCurrentUser
  | changePassword
  | listPermission
  | revokeUserSessions
  | listUserSessions
  | revokeSession
  | listuser
  | deleteProfilePicture
  | changeProfilePicture
  | deleteUser
  | updateUser
  | listAudit
  | notFound
  deriving DecidableEq, Repr

section Routes

def path (names : List String) : List Segment := names.map .text

abbrev Route := Entry Method Handler

-- AuthHandler.Routes under /api/auth. The routes of the inner group come after its
-- middleware.
def authRoutes (internalMode : Bool) : List Route :=
  let auth := path ["api","auth"]
  [.add .post (auth ++ path ["login"]) [.rateLimit 5,.login],
    if internalMode then .add .post (auth ++ path ["register"]) [.authenticate,.register]
    else .add .post (auth ++ path ["register"]) [.register],
    .add .post (auth ++ path ["register","complete"]) [.rateLimit 5,.completeRegistration],
    .add .get (auth ++ [.text "register",.param "token"]) [.getRegistrationToken],
    .add .post (auth ++ path ["refresh"]) [.refreshAccessToken],
    .add .post (auth ++ path ["password","recover"]) [.rateLimit 5,.recoverPassword],
    .add .get (auth ++ [.text "password",.text "recover",.param "token"])
      [.getPasswordRecoveryToken],
    .add .put (auth ++ path ["password","reset"]) [.resetPassword],
    .use auth .authenticate,
    .add .delete (auth ++ path ["logout"]) [.logout],
    .add .get (auth ++ path ["me"]) [.getCurrentUser],
    .add .put (auth ++ path ["password","change"]) [.changePassword],
    .add .get (auth ++ path ["permissions"]) [.listPermission],
    .add .delete (auth ++ [.text "sessions",.text "users",.param "userID"]) [.revokeUserSessions],
    .add .get (auth ++ [.text "sessions",.text "users",.param "userID"]) [.listUserSessions],
    .add .delete (auth ++ [.text "sessions",.param "id"]) [.revokeSession]]

-- UserHandler.Routes: its middleware is registered for all of /api.
def userRoutes : List Route :=
  let users := path ["api","users"]
  [.use (path ["api"]) .authenticate,
    .add .get users [.listuser],
    .add .delete (users ++ path ["profile-picture"]) [.deleteProfilePicture],
    .add .put (users ++ path ["profile-picture"]) [.changeProfilePicture],
    .add .delete (users ++ [.param "id"]) [.deleteUser],
    .add .put (users ++ [.param "id"]) [.updateUser]]

def auditRoutes : List Route := [.add .get (path ["api","audit"]) [.authenticate,.listAudit]]

-- NewServer, with the middlewares that do more than pass a request on.
def routes (internalMode production : Bool) : List Route :=
  (if production then [.use [] (.rateLimit 20)] else []) ++
    [.use [] .auditContext,.add .get (path ["api","healthz"]) [.health]] ++
    authRoutes internalMode ++ userRoutes ++ auditRoutes ++ [.use [] .notFound]

end Routes

section Dispatch
variable {Path : Type} (cfg : Config) (t : Transport)

def param (params : Params) (name : String) : String := (params.lookup name).getD ""

def handle (r : Incoming Path) (handler : Handler) (params : Params) (next : Ctx → Script)
    (ctx : Ctx) : Script := match handler with
  | .rateLimit max => if r.limited max then raise (.http errRateLimit) else next ctx
  | .auditContext => next {ctx with audit := some ⟨r.ip,r.requestID,r.userAgent⟩}
  | .authenticate => authenticateHandler t r next ctx
  | .health => health cfg r
  | .login => login cfg t r ctx
  | .register => register t r ctx
  | .completeRegistration => completeRegistration t r ctx
  | .getRegistrationToken => getRegistrationToken cfg (param params "token")
  | .refreshAccessToken => refreshAccessToken cfg t r ctx
  | .recoverPassword => recoverPassword t r ctx
  | .getPasswordRecoveryToken => getPasswordRecoveryToken cfg (param params "token")
  | .resetPassword => resetPassword t r ctx
  | .logout => logout t ctx
  | .getCurrentUser => getCurrentUser cfg t ctx
  | .changePassword => changePassword t r ctx
  | .listPermission => listPermission t ctx
  | .revokeUserSessions => revokeUserSessions t ctx (param params "userID")
  | .listUserSessions => listUserSessions cfg t ctx (param params "userID")
  | .revokeSession => revokeSession t ctx (param params "id")
  | .listuser => listuser cfg t r ctx
  | .deleteProfilePicture => deleteProfilePicture ctx
  | .changeProfilePicture => changeProfilePicture t r ctx
  | .deleteUser => deleteUser t ctx (param params "id")
  | .updateUser => updateUser t r ctx (param params "id")
  | .listAudit => listAudit cfg t r ctx
  | .notFound => raise (.http errNotFoundHandler)

def chainOf (matcher : Matcher Path) (r : Incoming Path) : List (Handler × Params) :=
  chain matcher r.method r.path (routes cfg.internalMode t.production)

-- A chain that runs out is a 404 of the framework's own.
def dispatch (matcher : Matcher Path) (r : Incoming Path) : Script :=
  RouteTable.run (handle cfg t r) (fun _ => raise (.fiber 404)) (chainOf cfg t matcher r)
    ⟨none,none⟩

-- The whole server: every HTTP request is a job of calls into the services.
def server (matcher : Matcher Path) := staged (api cfg) (dispatch cfg t matcher)

end Dispatch

namespace Controls
open RestApi.Controls

def exactly : List Segment → List String → Option Params
  | [],[] => some []
  | .text name :: rest,part :: parts => if name = part then exactly rest parts else none
  | .param name :: rest,part :: parts => (exactly rest parts).map ((name,part) :: ·)
  | _,_ => none

def beneath : List Segment → List String → Bool
  | [],_ => true
  | .text name :: rest,part :: parts => name = part && beneath rest parts
  | .param _ :: rest,_ :: parts => beneath rest parts
  | _,_ => false

theorem beneath_exactly {above rest : List Segment} {parts : List String}
    (found : exactly (above ++ rest) parts = some params) : beneath above parts = true := by
  induction above generalizing parts params with
  | nil => rfl
  | cons segment above ih =>
      cases parts with
      | nil => cases segment <;> cases found
      | cons part parts =>
          cases segment with
          | text name =>
              obtain ⟨same,found⟩ := Option.ite_none_right_eq_some.mp found
              simpa [beneath,same] using ih found
          | param name =>
              obtain ⟨_,found,_⟩ := Option.map_eq_some_iff.mp found
              exact ih found

def matcher : Matcher (List String) := ⟨exactly,beneath,fun _ => rfl,fun _ _ _ _ => beneath_exactly⟩

def pass (role : Role) : AccessToken := accessToken config "u1" "s1" role (1000*second)

def transport : Transport where
  isEmail _ := true
  parseJWT text :=
    if text = "jwt" then some (pass .user)
    else if text = "admin" then some (pass .admin) else none
  signedJWT _ := "jwt"
  parseUUID := some
  syntaxOffset _ := 0
  valueOffset _ := 0
  bindUserSearch _ := none
  bindAuditSearch _ := none
  media := ⟨fun _ => "",fun _ => none,id,⟨id,id,fun _ _ => none,fun _ _ => "",some⟩⟩
  listings := ⟨fun _ => pure [],fun _ => pure []⟩
  order := []
  production := false
  users _ := trivial
  entries _ := trivial

def incoming (method : Method) (path : List String) (cookies : List (String × String))
    (body : String) : Incoming (List String) :=
  ⟨method,path,cookies,"",body,[],false,none,⟨true,true,true,true⟩,"ip","r1","agent",
    fun _ => false,[]⟩

end Controls
end RestApi.Http
