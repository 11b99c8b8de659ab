import RestApi.Access
import RestApi.Envelopes
import RestApi.JsonRecord
import RestApi.RouteTable
import RestApi.ServiceErrors
import RestApi.Stages
import RestApi.Upload

namespace RestApi.Http
open JsonText JsonRecord RouteTable Validator

inductive Method where
  | get
  | post
  | put
  | patch
  | delete
  | head
  | options
  deriving DecidableEq, Repr

-- What the handlers read of a request. `limited` is what the limiter of so many
-- requests a minute says of it, `unreachable` what the dependencies answer to a ping.
structure Incoming (Path : Type) where
  method : Method
  path : Path
  cookies : List (String × String)
  authorization : String
  body : String
  query : List (String × String)
  isMultipart : Bool
  image : Option Upload.FileHeader
  disk : Upload.Disk
  ip : String
  requestID : String
  userAgent : String
  limited : Nat → Bool
  unreachable : List (String × String)

-- Configuration and the library functions of the transport. `parseJWT` reads the
-- claims of a token text, `signedJWT` writes them; offsets are those of
-- encoding/json. The paged listings have no errors of their own.
structure Transport where
  isEmail : String → Bool
  parseJWT : String → Option AccessToken
  signedJWT : AccessToken → String
  parseUUID : String → Option UUID
  syntaxOffset : String → Nat
  valueOffset : String → Nat
  bindUserSearch : List (String × String) → Option (Query.Search User.Filter)
  bindAuditSearch : List (String × String) → Option (Query.Search Audit.Filter)
  media : Upload.Media
  listings : Listings
  order : List Entity
  production : Bool
  users : ∀ search, Documented [] (fun _ => True) (listings.users search)
  entries : ∀ search, Documented [] (fun _ => True) (listings.entries search)

structure Cookie where
  name : String
  value : String
  expires : Time
  httpOnly : Bool
  secure : Bool
  path : String
  sameSite : String
  deriving DecidableEq, Repr

inductive Data where
  | tokens (accessToken refreshToken : String)
  | found (found : Found)
  | registration (expiresAt : Time) (usedAt revokedAt : Option Time)
  | recovery (expiresAt : Time) (usedAt : Option Time)
  | permissions (texts : List String)
  | ok (internalMode : Bool)
  | unavailable (dependencies : List (String × String))
  deriving DecidableEq, Repr

-- Body, with the session id that the current user's response has as its meta.
structure Response where
  status : Nat
  data : Option Data
  message : String
  sessionID : Option UUID
  cookies : List Cookie
  deriving DecidableEq, Repr

-- What a handler returns instead: an error it made, the error of a service, or a
-- nil dereference.
inductive Fault where
  | raised (err : ErrorTree Cause)
  | service (err : Err)
  | panicked

inductive Seen where
  | found (found : Found)
  | registration (token : RegistrationToken)
  | recovery (token : PasswordRecoveryToken)
  | clock (time : Time)

abbrev Script := Stages.Script Cmd Reply Err Value Seen Request (Except Fault Response)

section Replies

def raise (cause : Cause) : Script := .stop (.error (.raised (.leaf cause)))
def respond (response : Response) : Script := .stop (.ok response)
def message (status : Nat) (text : String) : Response := ⟨status,none,text,none,[]⟩
def data (data : Data) : Response := ⟨200,some data,"",none,[]⟩

def calling (request : Request) (next : Value → Script) : Script := .ask request fun
  | .error err => .stop (.error (.service err))
  | .ok value => next value

def looking (code : Service Seen) (next : Seen → Script) : Script := .look code fun
  | .error err => .stop (.error (.service err))
  | .ok seen => next seen

end Replies

section Binding

structure LoginInput where
  email : String
  password : String
  deriving DecidableEq, Repr

structure RecoverPasswordInput where
  email : String
  deriving DecidableEq, Repr

def LoginInput.fields (i : LoginInput) : List Validator.Field :=
  [⟨"email",i.email,[.required,.email]⟩,⟨"password",i.password,[.required]⟩]

def RecoverPasswordInput.fields (i : RecoverPasswordInput) : List Validator.Field :=
  [⟨"email",i.email,[.required,.email]⟩]

def LoginInput.validate (isEmail : String → Bool) :
    LoginInput → Except ValidationError LoginInput :=
  Validator.validate isEmail id LoginInput.fields

def RecoverPasswordInput.validate (isEmail : String → Bool) :
    RecoverPasswordInput → Except ValidationError RecoverPasswordInput :=
  Validator.validate isEmail id RecoverPasswordInput.fields

-- A struct of strings: its zero value, its fields and its validation.
structure Input (T : Type) where
  zero : T
  slots : List (String × (String → T → T))
  validate : (String → Bool) → T → Except ValidationError T

-- A field reports a wrong type under its own name.
def Input.fields (input : Input T) : List (Slot T) :=
  input.slots.map fun slot => ⟨slot.1,storeString (fun _ => slot.1) slot.2⟩

def loginInput : Input LoginInput where
  zero := ⟨"",""⟩
  slots := [("email",fun text i => {i with email := text}),
    ("password",fun text i => {i with password := text})]
  validate := LoginInput.validate

def registerInput : Input RegisterInput where
  zero := ⟨"",""⟩
  slots := [("name",fun text i => {i with name := text}),
    ("email",fun text i => {i with email := text})]
  validate := RegisterInput.validate

def completeRegistrationInput : Input CompleteRegistrationInput where
  zero := ⟨"",""⟩
  slots := [("token",fun text i => {i with token := text}),
    ("password",fun text i => {i with password := text})]
  validate := CompleteRegistrationInput.validate

def recoverPasswordInput : Input RecoverPasswordInput where
  zero := ⟨""⟩
  slots := [("email",fun text i => {i with email := text})]
  validate := RecoverPasswordInput.validate

def resetPasswordInput : Input ResetPasswordInput where
  zero := ⟨"",""⟩
  slots := [("token",fun text i => {i with token := text}),
    ("new_password",fun text i => {i with newPassword := text})]
  validate := ResetPasswordInput.validate

def changePasswordInput : Input ChangePasswordInput where
  zero := ⟨"",""⟩
  slots := [("password",fun text i => {i with password := text}),
    ("new_password",fun text i => {i with newPassword := text})]
  validate := ChangePasswordInput.validate

def updateUserInput : Input UpdateUserInput where
  zero := ⟨"","",""⟩
  slots := [("name",fun text i => {i with name := text}),
    ("phone",fun text i => {i with phone := text}),("gender",fun text i => {i with gender := text})]
  validate := UpdateUserInput.validate

def badlyFormed (offset : Nat) : Cause :=
  .jsonBind ("Request body contains badly-formed JSON (at position " ++ toString offset ++ ")")

def invalidValue (field : String) (offset : Nat) : Cause :=
  .jsonBind ("Request body contains an invalid value for the \"" ++ field ++
    "\" field (at position " ++ toString offset ++ ")")

-- json.Unmarshal and parseJSONBindErr. The target is an interface that holds the
-- pointer: null sets it to nil, and there is nothing left to validate.
def bindValidateJSON (t : Transport) (input : Input T) (raw : String) : Except Cause T :=
  match parse raw.toList with
  | none => .error (badlyFormed (t.syntaxOffset raw))
  | some .null => .error .other
  | some (.object members) =>
      let stored := storeMembers input.fields (input.zero,.fine) members
      match stored.2.error with
      | some field => .error (invalidValue field (t.valueOffset raw))
      | none => match input.validate t.isEmail stored.1 with
          | .ok value => .ok value
          | .error err => .error (.validation err.details)
  | some _ => .error (invalidValue "" (t.valueOffset raw))

def bound (t : Transport) (input : Input T) (raw : String) (next : T → Script) : Script :=
  match bindValidateJSON t input raw with
  | .error cause => raise cause
  | .ok value => next value

end Binding

section Tokens
variable {Path : Type}

def cookie (r : Incoming Path) (name : String) : String := (r.cookies.lookup name).getD ""

-- strings.CutPrefix(header, "Bearer ")
def bearer (header : String) : String :=
  if "Bearer ".toList.isPrefixOf header.toList then String.ofList (header.toList.drop 7) else ""

-- The cookie, or else the Authorization header.
def presented (r : Incoming Path) (name : String) : String :=
  if cookie r name = "" then bearer r.authorization else cookie r name

def actor (token : AccessToken) : RbacContext := ⟨some token.subject,token.role,token.sessionID⟩

def authenticateHandler (t : Transport) (r : Incoming Path) (next : Ctx → Script)
    (ctx : Ctx) : Script :=
  if presented r "access_token" = "" then raise (.http errReqUnauthorized)
  else match t.parseJWT (presented r "access_token") with
    | none => .stop (.error (.service .accessTokenInvalid))
    | some token =>
        calling (.authenticate token) fun _ => next {ctx with rbac := some (actor token)}

def tokenCookies (cfg : Config) (t : Transport) (access refresh : String)
    (at' : Time) : List Cookie :=
  [⟨"access_token",access,at'+cfg.jwtTTL,true,t.production,"/","Lax"⟩,
    ⟨"refresh_token",refresh,at'+cfg.sessionTTL,true,t.production,"/","Lax"⟩]

-- setTokenCookies and the body of a login or a refresh.
def respondTokens (cfg : Config) (t : Transport) : Value → Script
  | .tokenPair access refresh => looking (.call .clock fun time => .done (.clock time)) fun
      | .clock time => respond {data (.tokens (t.signedJWT access) refresh) with
          cookies := tokenCookies cfg t (t.signedJWT access) refresh time}
      | _ => raise .other
  | _ => raise .other

def removedCookies (t : Transport) : List Cookie :=
  [⟨"access_token","",0,true,t.production,"/",""⟩,⟨"refresh_token","",0,true,t.production,"/",""⟩]

end Tokens

section AuthHandler
variable {Path : Type} (cfg : Config) (t : Transport) (r : Incoming Path) (ctx : Ctx)

def register : Script := bound t registerInput r.body fun input =>
  calling (.register ctx input.name input.email) fun _ =>
    respond (message 201 "registration successful, check your email")

def completeRegistration : Script := bound t completeRegistrationInput r.body fun input =>
  calling (.completeRegistration ctx input.token input.password) fun _ =>
    respond (message 201 "registration completed")

def getRegistrationToken (token : String) : Script :=
  looking (.registration <$> RestApi.getRegistrationToken .pool (cfg.hashStr token)) fun
    | .registration found =>
        respond (data (.registration found.expiresAt found.usedAt found.revokedAt))
    | _ => raise .other

def login : Script := bound t loginInput r.body fun input =>
  calling (.login ctx input.email input.password) (respondTokens cfg t)

-- rbac.GetContext and the dereference of its user id.
def withUser (next : UUID → RbacContext → Script) : Script := match ctx.rbac with
  | none => .stop (.error (.service .rbacContextNotFound))
  | some context => match context.userID with
      | none => .stop (.error .panicked)
      | some userID => next userID context

def getCurrentUser : Script := withUser ctx fun userID context =>
  looking (.found <$> look cfg t.listings ctx (.getUserByID userID)) fun
    | .found found => respond {data (.found found) with sessionID := some context.sessionID}
    | _ => raise .other

def refreshAccessToken : Script :=
  if presented r "refresh_token" = "" then raise (.http errReqUnauthorized)
  else calling (.refreshAccessToken ctx (presented r "refresh_token")) (respondTokens cfg t)

-- A failed logout is only logged.
def logout : Script := match ctx.rbac with
  | none => respond {message 200 "logged out" with cookies := removedCookies t}
  | some context =>
      .ask (.logout ctx context.sessionID) fun _ =>
        respond {message 200 "logged out" with cookies := removedCookies t}

def recoverPassword : Script := bound t recoverPasswordInput r.body fun input =>
  calling (.recoverPassword ctx input.email) fun _ =>
    respond (message 200 "password recovery email has been sent")

def getPasswordRecoveryToken (token : String) : Script :=
  looking (.recovery <$> RestApi.getPasswordRecoveryToken .pool (cfg.hashStr token)) fun
    | .recovery found => respond (data (.recovery found.expiresAt found.usedAt))
    | _ => raise .other

def resetPassword : Script := bound t resetPasswordInput r.body fun input =>
  calling (.resetPassword ctx input.token input.newPassword) fun _ =>
    respond (message 200 "Password has been reset successfully!")

def changePassword : Script :=
  bound t changePasswordInput r.body fun input => withUser ctx fun userID _ =>
    calling (.changePassword ctx userID input.password input.newPassword) fun _ =>
      respond (message 200 "Password has been changed successfully!")

def permissionText : Permission → String
  | .changePassword => "auth.change-password"
  | .registerUser => "auth.register-user"
  | .revokeUserSessions => "auth.revoke-user-sessions"
  | .viewUserSessions => "auth.view-user-sessions"
  | .userRead => "user.read"
  | .userUpdate => "user.update"
  | .userDelete => "user.delete"
  | .auditRead => "audit.read"

-- The keys of the role's map, in order.
def listPermission : Script := match ctx.rbac with
  | none => .stop (.error (.service .rbacContextNotFound))
  | some context => respond (data (.permissions
      ((((registered t.order context.role).getD []).dedup.map permissionText).mergeSort
        fun a b => a ≤ b)))

-- uuid.Parse of a path parameter; its error may name another one.
def withUUID (name param : String) (next : UUID → Script) : Script := match t.parseUUID param with
  | none => raise (.http (errInvalidParam name param))
  | some id => next id

def revokeUserSessions (param : String) : Script := withUUID t "id" param fun userID =>
  calling (.revokeUserSessions ctx userID) fun _ => respond (message 200 "user sessions revoked.")

def revokeSession (param : String) : Script := withUUID t "id" param fun sessionID =>
  calling (.revokeSession ctx sessionID) fun _ => respond (message 200 "session revoked.")

def found (lookup : Lookup) : Script := looking (.found <$> look cfg t.listings ctx lookup) fun
  | .found found => respond (data (.found found))
  | _ => raise .other

def listUserSessions (param : String) : Script :=
  withUUID t "userID" param fun userID => found cfg t ctx (.listUserSessions userID)

end AuthHandler

section UserHandler
variable {Path : Type} (cfg : Config) (t : Transport) (r : Incoming Path) (ctx : Ctx)

def listuser : Script := match t.bindUserSearch r.query with
  | none => raise .other
  | some search => found cfg t ctx (.listUser search)

def updateUser (param : String) : Script :=
  withUUID t "id" param fun userID => bound t updateUserInput r.body fun input =>
    calling (.updateUser ctx userID input.name input.phone input.gender) fun _ =>
      respond (message 200 "user updated!")

def deleteUser (param : String) : Script := withUUID t "id" param fun userID =>
  calling (.deleteUser ctx userID) fun _ => respond (message 200 "user deleted.")

def errUploadMaxSize : HttpError :=
  ⟨"file size exceeds maximum allowed",.null,"UPLOAD_MAX_SIZE",400⟩
def errUploadMimeTypes : HttpError := ⟨"invalid file mime types",.null,"UPLOAD_MIME_TYPES",400⟩
def errUploadInvalid : HttpError := ⟨"invalid file",.null,"UPLOAD_INVALID",400⟩

def uploadCause : Upload.UploadErr → Cause
  | .noFile => .other
  | .maxSize maxBytes receivedBytes => .http (errUploadMaxSize.setDetails
      (.object [("max_bytes",.number (Envelopes.formatNumber maxBytes)),
        ("received_bytes",.number (Envelopes.formatNumber receivedBytes))]))
  | .detect => .other
  | .mimeTypes claimed actual allowed => .http (errUploadMimeTypes.setDetails (.object
      [("actual_mime",.string actual),("allowed_mimes",.array (allowed.map .string)),
        ("claimed_mime",.string claimed)]))
  | .invalid details => .http (errUploadInvalid.setDetails (.string details))
  | .extension _ _ _ => .other

def uploadFault : Upload.HandlerErr → Fault
  | .notMultipart =>
      .raised (.leaf (.http (errMultipartForm.setMessage
        "request 'Content-Type' header must be multipart/form-data")))
  | .imageRequired =>
      .raised (.leaf (.http ((errMultipartForm.setMessage "profile picture is required").setDetails
      (.object [("key",.string "image")]))))
  | .upload err => .raised (.leaf (uploadCause err))
  | .rbacContextNotFound => .service .rbacContextNotFound
  | .nilUserID => .panicked

def changeProfilePicture : Script :=
  match Upload.changeProfilePicture t.media r.disk r.isMultipart r.image ctx with
  | .error err => .stop (.error (uploadFault err))
  | .ok (request,_) => calling request fun _ => respond (message 200 "profile picture updated!")

def deleteProfilePicture : Script := withUser ctx fun userID _ =>
  calling (.deleteProfilePicture ctx userID) fun _ =>
    respond (message 200 "profile picture deleted")

def listAudit : Script := match t.bindAuditSearch r.query with
  | none => raise .other
  | some search => found cfg t ctx (.listEntries search)

def health : Script := if r.unreachable = [] then respond (data (.ok cfg.internalMode))
  else respond ⟨503,some (.unavailable r.unreachable),"",none,[]⟩

end UserHandler
end RestApi.Http
