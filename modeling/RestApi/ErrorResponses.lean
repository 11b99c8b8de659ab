import RestApi.ErrorTrees
import RestApi.JsonText
import RestApi.Inputs
import RestApi.Replies

namespace RestApi.Http
open JsonText

section Kernel

inductive Kind where
  | validation
  | notFound
  | unauthorized
  | conflict
  | forbidden
  | throttled
  deriving DecidableEq, Repr

-- apperr.Error. Details that are nil are null in JSON.
structure AppError where
  message : String
  details : Json
  code : String
  kind : Kind

def constructErr (kind : Kind) (defaultCode : String) (msg : String)
    (code : List String) : AppError :=
  ⟨msg,.null,match code with
    | [] => defaultCode
    | first :: _ => if first ≠ "" then first else defaultCode,kind⟩

def AppError.withDetails (e : AppError) : Option Json → AppError
  | none => e
  | some details => {e with details := details}

-- (*apperr.Error).Is
def AppError.is (e target : AppError) : Bool := e.kind = target.kind && e.code = target.code

def unauthorizedErr := constructErr .unauthorized "UNAUTHORIZED"
def conflictErr := constructErr .conflict "CONFLICT"
def forbiddenErr := constructErr .forbidden "FORBIDDEN"
def validationErr := constructErr .validation "DOMAIN_VALIDATION"
def throttledErr := constructErr .throttled "THROTTLED"

def errNotFound :=
  constructErr .notFound "RESOURCE_NOT_FOUND" "the requested resource was not found" []
def errEmailConflict := conflictErr "email already exists" ["USER_EMAIL_CONFLICT"]
def errValidation := validationErr "invalid user data" ["USER_VALIDATION"]
def errWrongCredentials := unauthorizedErr "check your credentials" ["AUTH_CREDENTIALS"]
def errSessionInvalid :=
  unauthorizedErr "session has been expired or revoked" ["AUTH_INVALID_SESSION"]
def errInvalidRegistrationToken :=
  unauthorizedErr "invalid or expired registration token" ["AUTH_INVALID_REGISTRATION_TOKEN"]
def errInvalidPasswordRecoveryToken :=
  unauthorizedErr "invalid or expired password recovery token" ["AUTH_INVALID_RECOV_TOKEN"]
def errPasswordRecoveryThrottled :=
  throttledErr "too many password reset requests, please try again later"
    ["AUTH_RECOVERY_THROTTLED"]
def errUnauthorizedPermission := forbiddenErr "unauthorized action" ["RBAC_UNAUTHORIZED_PERM"]
def errAccessTokenExpired := unauthorizedErr "access token expired" ["AUTH_EXPIRED"]
def errAccessTokenInvalid := unauthorizedErr "invalid access token" ["AUTH_INVALID"]

end Kernel

section Transport

-- http.Error
structure HttpError where
  message : String
  details : Json
  code : String
  status : Nat

def HttpError.setMessage (e : HttpError) (message : String) : HttpError :=
  {e with message := message}
def HttpError.setDetails (e : HttpError) (details : Json) : HttpError := {e with details := details}

def errMultipartForm : HttpError := ⟨"invalid multipart form",.null,"MULTIPART_FORM",400⟩
def errBodyTooLarge : HttpError := ⟨"request body too large",.null,"BODY_TOO_LARGE",413⟩
def errRateLimit : HttpError := ⟨"too many request try again latter",.null,"REQ_RATE_LIMIT",429⟩
def errReqUnauthorized : HttpError := ⟨"authentication required",.null,"REQ_UNAUTHORIZED",401⟩
def errNotFoundHandler : HttpError :=
  ⟨"the requested resource could not be found",.null,"HANDLER_NOT_FOUND",404⟩

def errInvalidParam (name value : String) : HttpError :=
  ⟨"invalid value '" ++ value ++ "' for parameter '" ++ name ++ "'",
    .object [("parameter",.string name),("value",.string value)],"INVALID_PARAMETER",400⟩

-- What ParseError tells apart in an error.
inductive Cause where
  | http (e : HttpError)
  | deadlineExceeded
  | canceled
  | fiber (code : Nat)
  | jsonBind (message : String)
  | validation (details : List (String × List String))
  | app (e : AppError)
  | other

def Cause.http? : Cause → Option HttpError
  | .http e => some e
  | _ => none

def Cause.deadlineExceeded? : Cause → Option Unit
  | .deadlineExceeded => some ()
  | _ => none

def Cause.canceled? : Cause → Option Unit
  | .canceled => some ()
  | _ => none

def Cause.fiber? : Cause → Option Nat
  | .fiber code => some code
  | _ => none

def Cause.jsonBind? : Cause → Option String
  | .jsonBind message => some message
  | _ => none

def Cause.validation? : Cause → Option (List (String × List String))
  | .validation details => some details
  | _ => none

def Cause.app? : Cause → Option AppError
  | .app e => some e
  | _ => none

def appErrStatusCode : Kind → Nat
  | .notFound => 404
  | .validation => 422
  | .conflict => 409
  | .forbidden => 403
  | .unauthorized => 401
  | .throttled => 429

def internal : HttpError := ⟨"an unexpected error occurred, try again later",.null,"INTERNAL",500⟩
def serverTimeout : HttpError := ⟨"the server took too long to respond",.null,"SERVER_TIMEOUT",504⟩
def clientClosed : HttpError := {internal with status := 499}

-- The map of the messages, its keys in order.
def detailsJson (details : List (String × List String)) : Json :=
  .object ((details.mergeSort fun a b => a.1 ≤ b.1).map
    fun entry => (entry.1,.array (entry.2.map .string)))

def maxBodySize : Json := .number ⟨"5242880".toList,by decide⟩

def AppError.response (e : AppError) : HttpError :=
  ⟨e.message,e.details,e.code,appErrStatusCode e.kind⟩

def parseError (err : ErrorTree Cause) : HttpError :=
  match err.find Cause.http? with
  | some e => e
  | none =>
    if (err.find Cause.deadlineExceeded?).isSome then serverTimeout
    else if (err.find Cause.canceled?).isSome then clientClosed
    else match err.find Cause.fiber? with
    | some code =>
        if code = 413 then errBodyTooLarge.setDetails (.object [("max_bytes",maxBodySize)])
        else internal
    | none => match err.find Cause.jsonBind? with
      | some message =>
          {internal with status := 400,message := message,code := "REQ_MALFORMED_JSON"}
      | none => match err.find Cause.validation? with
        | some details => ⟨"the request contains invalid data",detailsJson details,"VALIDATION",422⟩
        | none => match err.find Cause.app? with
          | some e => e.response
          | none => internal

def errorBody (e : HttpError) : Json :=
  .object [("error",.object [("message",.string e.message),("details",e.details),
    ("code",.string e.code)])]

-- The router's ErrorHandler: the status and the text of the body.
def errorHandler (err : ErrorTree Cause) : Nat × List Char :=
  ((parseError err).status,encode (errorBody (parseError err)))

end Transport

section Services

-- The application error behind an error of the services, as it is declared.
def declared : Err → Option AppError
  | .notFound => some errNotFound
  | .emailConflict => some errEmailConflict
  | .validation _ => some errValidation
  | .wrongCredentials => some errWrongCredentials
  | .sessionInvalid => some errSessionInvalid
  | .invalidRegistrationToken => some errInvalidRegistrationToken
  | .invalidPasswordRecoveryToken => some errInvalidPasswordRecoveryToken
  | .passwordRecoveryThrottled => some errPasswordRecoveryThrottled
  | .unauthorizedPermission => some errUnauthorizedPermission
  | .accessTokenExpired => some errAccessTokenExpired
  | .accessTokenInvalid => some errAccessTokenInvalid
  | _ => none

-- What the database, Redis and the other libraries report.
def Cause.infrastructure : Cause → Bool
  | .deadlineExceeded => true
  | .canceled => true
  | .other => true
  | _ => false

-- The Go error that an error of the services stands for. Errors of the
-- infrastructure are whatever the driver made of them. A token is refused with
-- the parser's error beside its own, and a rollback that fails adds another one.
inductive Shows : Err → ErrorTree Cause → Prop where
  | app (known : declared err = some e) (details : Option Json) :
      Shows err (.leaf (.app (e.withDetails details)))
  | infrastructure (unknown : declared err = none) (plain : ∀ text inner, err ≠ .wrapped text inner)
      (causes : ∀ cause ∈ tree.causes, cause.infrastructure = true) : Shows err tree
  | wrapped (inner : Shows err tree) : Shows (.wrapped text err) (.wrap text tree)
  | refused (causes : ∀ cause ∈ tree.causes, cause.infrastructure = true) :
      Shows .accessTokenInvalid (.join text (.leaf (.app errAccessTokenInvalid)) tree)
  | rolledBack (failed : Shows err tree)
      (causes : ∀ cause ∈ rollback.causes, cause.infrastructure = true) :
      Shows err (.join text tree rollback)

-- Nothing but the application error it is comes with an error.
theorem shows_causes (shows' : Shows err tree) :
    ∀ cause ∈ tree.causes, cause.infrastructure = true ∨
    ∃ e details, declared err.root = some e ∧ cause = .app (e.withDetails details) := by
  induction shows' with
  | app known details =>
      rename_i err e
      have plain : err.root = err := by
        cases err with
        | wrapped _ _ => cases known
        | _ => rfl
      intro cause member
      exact .inr ⟨e,details,plain.symm ▸ known,List.mem_singleton.mp member⟩
  | infrastructure _ _ causes => exact fun cause member => .inl (causes cause member)
  | wrapped inner ih => exact ih
  | refused causes =>
      intro cause member
      rcases List.mem_append.mp member with first | second
      · exact .inr ⟨_,none,rfl,List.mem_singleton.mp first⟩
      · exact .inl (causes cause second)
  | rolledBack failed causes ih =>
      intro cause member
      rcases List.mem_append.mp member with first | second
      · exact ih cause first
      · exact .inl (causes cause second)

-- errors.Is(err, apperr.ErrNotFound), asked of the Go error.
def isNotFound (tree : ErrorTree Cause) : Bool :=
  (tree.find fun cause => (cause.app?.filter fun e => e.is errNotFound)).isSome

theorem is_withDetails (e target : AppError) (details : Option Json) :
    (e.withDetails details).is target = e.is target := by
  cases details <;> rfl

theorem response_withDetails (e : AppError) (details : Option Json) :
    (e.withDetails details).response.status = e.response.status ∧
      (e.withDetails details).response.code = e.response.code := by
  cases details <;> exact ⟨rfl,rfl⟩

theorem declared_isNotFound (known : declared err = some e) :
    e.is errNotFound = err.isNotFound := by
  cases err <;> cases known <;> rfl

-- Services that ask the Go error get the answer the model gives.
theorem isNotFound_shown (shows' : Shows err tree) : isNotFound tree = err.isNotFound := by
  have absent {tree : ErrorTree Cause}
      (causes : ∀ cause ∈ tree.causes, cause.infrastructure = true) :
      tree.find (fun cause => cause.app?.filter fun e => e.is errNotFound) = none := by
    refine ErrorTree.find_none fun cause member => ?_
    have known := causes cause member
    cases cause with
    | app e => cases known
    | _ => rfl
  induction shows' with
  | app known details =>
      rw [← declared_isNotFound known,isNotFound,ErrorTree.find,Cause.app?,Option.filter_some,
        is_withDetails]
      split
      · simp [*]
      · simp [*]
  | infrastructure unknown plain causes =>
      rename_i err tree
      rw [isNotFound,absent causes]
      cases err with
      | notFound => cases unknown
      | wrapped text err => exact absurd rfl (plain text err)
      | _ => rfl
  | wrapped inner ih => exact ih
  | refused causes =>
      simp only [isNotFound,ErrorTree.find,absent causes]
      rfl
  | rolledBack failed causes ih =>
      rw [← ih]
      simp only [isNotFound,ErrorTree.find,absent causes]
      split
      · simp [*]
      · simp [*]

-- What is behind a response the services' errors do not account for.
def Generic (e : HttpError) : Prop := e = internal ∨ e = serverTimeout ∨ e = clientClosed

theorem parseError_shown (shows' : Shows err tree) :
    Generic (parseError tree) ∨
    ∃ e details, declared err.root = some e ∧
      parseError tree = (e.withDetails details).response := by
  have causes := shows_causes shows'
  have absent {α : Type} {pick : Cause → Option α}
      (infrastructure : ∀ cause : Cause, cause.infrastructure = true → pick cause = none)
      (application : ∀ e, pick (.app e) = none) : tree.find pick = none := by
    refine ErrorTree.find_none fun cause member => ?_
    rcases causes cause member with known | ⟨e,details,_,rfl⟩
    · exact infrastructure cause known
    · exact application _
  have http : tree.find Cause.http? = none :=
    absent (fun cause known => by cases cause <;> first | rfl | cases known) fun _ => rfl
  have fiber : tree.find Cause.fiber? = none :=
    absent (fun cause known => by cases cause <;> first | rfl | cases known) fun _ => rfl
  have jsonBind : tree.find Cause.jsonBind? = none :=
    absent (fun cause known => by cases cause <;> first | rfl | cases known) fun _ => rfl
  have validation : tree.find Cause.validation? = none :=
    absent (fun cause known => by cases cause <;> first | rfl | cases known) fun _ => rfl
  simp only [parseError,http,fiber,jsonBind,validation]
  split
  · exact .inl (.inr (.inl rfl))
  · split
    · exact .inl (.inr (.inr rfl))
    · split
      · rename_i e found
        obtain ⟨cause,member,picked⟩ := ErrorTree.find_some found
        rcases causes cause member with known | ⟨e,details,same,rfl⟩
        · cases cause with
          | app _ => cases known
          | _ => cases picked
        · cases picked
          exact .inr ⟨_,details,same,rfl⟩
      · exact .inl (.inl rfl)

end Services
end RestApi.Http
