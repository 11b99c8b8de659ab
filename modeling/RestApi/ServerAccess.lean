import RestApi.AuditTrail
import RestApi.Server
import RestApi.TokenOrigins

namespace RestApi.Http
open Pool Program RouteTable Stages
open AuditTrail (contextOf)

section Vouching
variable {Path : Type} {cfg : Config} {t : Transport} {r : Incoming Path}
  {auth : Option AccessToken}

-- What nobody may ask for without a token.
def closed (internalMode : Bool) : Request → Bool
  | .register _ _ _ => internalMode
  | .completeRegistration _ _ _ => false
  | .login _ _ _ => false
  | .refreshAccessToken _ _ => false
  | .recoverPassword _ _ => false
  | .resetPassword _ _ _ => false
  | .authenticate _ => false
  | _ => true

-- Where the account or the session is taken from the token.
def own (token : AccessToken) : Request → Prop
  | .logout _ sessID => sessID = token.sessionID
  | .changePassword _ userID _ _ => userID = token.subject
  | .changeProfilePicture _ userID _ => userID = token.subject
  | .deleteProfilePicture _ userID => userID = token.subject
  | _ => True

def client (r : Incoming Path) : AuditContext := ⟨r.ip,r.requestID,r.userAgent⟩

-- A service is called in the name of the client, and of the holder of the token
-- that has passed, if there is one.
structure Permitted (internalMode : Bool) (t : Transport) (r : Incoming Path)
    (auth : Option AccessToken) (request : Request) : Prop where
  known : ∀ token, request = .authenticate token →
    t.parseJWT (presented r "access_token") = some token
  ctx : ∀ ctx, contextOf request = some ctx → ctx = ⟨auth.map actor,some (client r)⟩
  closed : closed internalMode request = true → ∃ token, auth = some token ∧ own token request

def passed (auth : Option AccessToken) : Request → Except Err Value → Option AccessToken
  | .authenticate token,.ok _ => some token
  | _,_ => auth

-- Every call a script can make is permitted, and it never ends in a panic.
def Vouched (internalMode : Bool) (t : Transport) (r : Incoming Path) :
    Option AccessToken → Script → Prop
  | _,.stop outcome => outcome ≠ .error .panicked
  | auth,.ask request next => Permitted internalMode t r auth request ∧
      ∀ result, Vouched internalMode t r (passed auth request result) (next result)
  | auth,.look _ next => ∀ result, Vouched internalMode t r auth (next result)

theorem raise_vouched (cause : Cause) : Vouched mode t r auth (raise cause) := by
  rintro ⟨⟩

theorem respond_vouched (response : Response) : Vouched mode t r auth (respond response) := by
  rintro ⟨⟩

-- A call of a service other than Authenticate.
theorem calling_vouched {next : Value → Script}
    (own' : contextOf request = some ⟨auth.map actor,some (client r)⟩)
    (allowed : closed mode request = true → ∃ token, auth = some token ∧ own token request)
    (after : ∀ value, Vouched mode t r auth (next value)) :
    Vouched mode t r auth (calling request next) := by
  have other : ∀ result, passed auth request result = auth := by
    intro result
    cases request with
    | authenticate token => cases own'
    | _ => rfl
  refine ⟨⟨?_,fun ctx known => Option.some.inj (known.symm.trans own'),allowed⟩,fun result => ?_⟩
  · rintro token rfl
    cases own'
  · rw [other]
    cases result with
    | error err => rintro ⟨⟩
    | ok value => exact after value

theorem looking_vouched {code : Service Seen} {next : Seen → Script}
    (after : ∀ seen, Vouched mode t r auth (next seen)) :
    Vouched mode t r auth (looking code next) := by
  intro result
  cases result with
  | error err => rintro ⟨⟩
  | ok seen => exact after seen

theorem bound_vouched {input : Input T} {next : T → Script}
    (after : ∀ value, Vouched mode t r auth (next value)) (raw : String) :
    Vouched mode t r auth (bound t input raw next) := by
  unfold bound
  split
  · exact raise_vouched _
  · exact after _

theorem withUUID_vouched {next : UUID → Script} (name param : String)
    (after : ∀ id, Vouched mode t r auth (next id)) :
    Vouched mode t r auth (withUUID t name param next) := by
  unfold withUUID
  split
  · exact raise_vouched _
  · exact after _

theorem respondTokens_vouched (value : Value) :
    Vouched mode t r auth (respondTokens cfg t value) := by
  unfold respondTokens
  split
  · refine looking_vouched fun seen => ?_
    split
    · exact respond_vouched _
    · exact raise_vouched _
  · exact raise_vouched _

-- What a handler needs to have run before it.
def needsToken (internalMode : Bool) : Handler → Bool
  | .register => internalMode
  | .logout => true
  | .getCurrentUser => true
  | .changePassword => true
  | .listPermission => true
  | .revokeUserSessions => true
  | .listUserSessions => true
  | .revokeSession => true
  | .listuser => true
  | .deleteProfilePicture => true
  | .changeProfilePicture => true
  | .deleteUser => true
  | .updateUser => true
  | .listAudit => true
  | _ => false

def needsClient : Handler → Bool
  | .rateLimit _ => false
  | .auditContext => false
  | .authenticate => false
  | .health => false
  | .notFound => false
  | _ => true

-- The context that the middlewares have made so far.
def context (r : Incoming Path) (auth : Option AccessToken) (audited : Bool) : Ctx :=
  ⟨auth.map actor,if audited then some (client r) else none⟩

theorem found_vouched (ctx : Ctx) (lookup : Lookup) :
    Vouched mode t r auth (found cfg t ctx lookup) := by
  refine looking_vouched fun seen => ?_
  split
  · exact respond_vouched _
  · exact raise_vouched _

theorem upload_vouched (token : AccessToken) :
    Vouched mode t r (some token) (changeProfilePicture t r (context r (some token) true)) := by
  unfold changeProfilePicture
  split
  · rename_i err refused
    simp only [Upload.changeProfilePicture,context,Option.map_some,actor] at refused
    split_ifs at refused
    · cases refused
      rintro ⟨⟩
    · split at refused
      · cases refused
        rintro ⟨⟩
      · split at refused
        · cases refused
          rintro ⟨⟩
        · cases refused
  · rename_i request file accepted
    obtain ⟨_,_,_,userID,_,_,⟨⟩,⟨⟩,rfl⟩ := Upload.changeProfilePicture_ok.mp accepted
    exact calling_vouched rfl (fun _ => ⟨token,rfl,rfl⟩) fun _ => respond_vouched _

-- The handlers behind the authentication.
theorem token_vouched {rest : Ctx → Script} {handler : Handler} (params : Params)
    (token : AccessToken) (needs : needsToken false handler = true) :
    Vouched cfg.internalMode t r (some token)
      (handle cfg t r handler params rest (context r (some token) true)) := by
  have calls {request : Request} (mine : contextOf request = some (context r (some token) true))
    (about : own token request) (response : Response) : Vouched cfg.internalMode t r (some token)
    (calling request fun _ => respond response) :=
    calling_vouched mine (fun _ => ⟨token,rfl,about⟩) fun _ => respond_vouched response
  cases handler with
  | logout =>
      refine ⟨⟨by rintro _ ⟨⟩,by rintro _ ⟨⟩; rfl,fun _ => ⟨token,rfl,rfl⟩⟩,fun result => ?_⟩
      exact respond_vouched _
  | getCurrentUser =>
      refine looking_vouched fun seen => ?_
      split
      · exact respond_vouched _
      · exact raise_vouched _
  | changePassword => exact bound_vouched (fun input => calls (by rfl) (by rfl) _) _
  | listPermission => exact respond_vouched _
  | revokeUserSessions => exact withUUID_vouched _ _ fun userID => calls (by rfl) (by trivial) _
  | listUserSessions => exact withUUID_vouched _ _ fun userID => found_vouched _ _
  | revokeSession => exact withUUID_vouched _ _ fun sessionID => calls (by rfl) (by trivial) _
  | listuser =>
      simp only [handle,listuser]
      split
      · exact raise_vouched _
      · exact found_vouched _ _
  | deleteProfilePicture => exact calls (by rfl) (by rfl) _
  | changeProfilePicture => exact upload_vouched token
  | deleteUser => exact withUUID_vouched _ _ fun userID => calls (by rfl) (by trivial) _
  | updateUser =>
      exact withUUID_vouched _ _ fun userID =>
        bound_vouched (fun input => calls (by rfl) (by trivial) _) _
  | listAudit =>
      simp only [handle,listAudit]
      split
      · exact raise_vouched _
      · exact found_vouched _ _
  | _ => cases needs

-- The handlers anybody can reach, and the middlewares.
theorem open_vouched {rest : Ctx → Script} {handler : Handler} {audited : Bool} (params : Params)
    (free : needsToken false handler = false)
    (token : needsToken cfg.internalMode handler = true → auth.isSome = true)
    (named : needsClient handler = true → audited = true)
    (after : ∀ later audited', (auth.isSome = true ∨ handler = .authenticate →
      later.isSome = true) → (audited = true ∨ handler = .auditContext → audited' = true) →
      Vouched cfg.internalMode t r later (rest (context r later audited'))) :
    Vouched cfg.internalMode t r auth (handle cfg t r handler params rest
      (context r auth audited)) := by
  have calls {request : Request} {next : Value → Script} (clients : audited = true)
      (mine : contextOf request = some (context r auth audited))
      (allowed : closed cfg.internalMode request = true → ∃ token, auth = some token ∧
      own token request) (onward : ∀ value, Vouched cfg.internalMode t r auth (next value)) :
      Vouched cfg.internalMode t r auth (calling request next) := by
    subst clients
    exact calling_vouched mine allowed onward
  cases handler with
  | rateLimit max =>
      simp only [handle]
      split
      · exact raise_vouched _
      · exact after auth audited (fun same => same.resolve_right (by rintro ⟨⟩)) fun same =>
          same.resolve_right (by rintro ⟨⟩)
  | auditContext =>
      exact after auth true (fun same => same.resolve_right (by rintro ⟨⟩)) fun _ => rfl
  | authenticate =>
      simp only [handle,authenticateHandler]
      split
      · exact raise_vouched _
      · split
        · rintro ⟨⟩
        · rename_i token read
          refine ⟨⟨by rintro _ ⟨⟩; exact read,by rintro _ ⟨⟩,by rintro ⟨⟩⟩,fun result => ?_⟩
          cases result with
          | error err => rintro ⟨⟩
          | ok value =>
              exact after (some token) audited (fun _ => rfl) fun same => same.resolve_right
                (by rintro ⟨⟩)
  | health =>
      simp only [handle,health]
      split
      · exact respond_vouched _
      · exact respond_vouched _
  | login =>
      exact bound_vouched (fun input => calls (named rfl) rfl
        (by rintro ⟨⟩) respondTokens_vouched) _
  | register =>
      refine bound_vouched (fun input => calls (named rfl) rfl (fun mode => ?_)
        fun _ => respond_vouched _) _
      obtain ⟨given,rfl⟩ := Option.isSome_iff_exists.mp (token mode)
      exact ⟨given,rfl,trivial⟩
  | completeRegistration =>
      exact bound_vouched (fun input => calls (named rfl) rfl (by rintro ⟨⟩)
        fun _ => respond_vouched _) _
  | getRegistrationToken =>
      refine looking_vouched fun seen => ?_
      split
      · exact respond_vouched _
      · exact raise_vouched _
  | refreshAccessToken =>
      simp only [handle,refreshAccessToken]
      split
      · exact raise_vouched _
      · exact calls (named rfl) rfl (by rintro ⟨⟩) respondTokens_vouched
  | recoverPassword =>
      exact bound_vouched (fun input => calls (named rfl) rfl (by rintro ⟨⟩)
        fun _ => respond_vouched _) _
  | getPasswordRecoveryToken =>
      refine looking_vouched fun seen => ?_
      split
      · exact respond_vouched _
      · exact raise_vouched _
  | resetPassword =>
      exact bound_vouched (fun input => calls (named rfl) rfl (by rintro ⟨⟩)
        fun _ => respond_vouched _) _
  | notFound => exact raise_vouched _
  | _ => cases free

theorem needsToken_mono (needs : needsToken false handler = true) :
    needsToken mode handler = true := by
  cases handler <;> first | rfl | cases needs

theorem needsToken_client (needs : needsToken false handler = true) :
    needsClient handler = true := by
  cases handler <;> first | rfl | cases needs

theorem run_vouched {handlers : List (Handler × Params)} {audited : Bool}
    (tokens : guarded (· = .authenticate) (needsToken cfg.internalMode) auth.isSome
      (handlers.map Prod.fst) = true)
    (clients : guarded (· = .auditContext) needsClient audited (handlers.map Prod.fst) = true) :
    Vouched cfg.internalMode t r auth (RouteTable.run (handle cfg t r)
      (fun _ => raise (.fiber 404)) handlers (context r auth audited)) := by
  induction handlers generalizing auth audited with
  | nil => exact raise_vouched _
  | cons entry rest ih =>
      obtain ⟨handler,params⟩ := entry
      simp only [List.map_cons,guarded,Bool.and_eq_true,Bool.or_eq_true,Bool.not_eq_true']
        at tokens clients
      have token (needs : needsToken cfg.internalMode handler = true) : auth.isSome = true :=
        tokens.1.resolve_right (by rw [needs]; rintro ⟨⟩)
      have named (needs : needsClient handler = true) : audited = true :=
        clients.1.resolve_right (by rw [needs]; rintro ⟨⟩)
      cases needs : needsToken false handler with
      | true =>
          obtain ⟨given,rfl⟩ := Option.isSome_iff_exists.mp (token (needsToken_mono needs))
          obtain rfl := named (needsToken_client needs)
          exact token_vouched params given needs
      | false =>
          refine open_vouched params needs token named fun later audited' held seen =>
            ih (guarded_mono tokens.2 fun known => ?_) (guarded_mono clients.2 fun known => ?_)
          · exact held ((Bool.or_eq_true _ _ ▸ known).imp_right of_decide_eq_true)
          · exact seen ((Bool.or_eq_true _ _ ▸ known).imp_right of_decide_eq_true)

theorem routes_tokens (internalMode production : Bool) :
    tableGuarded (· = .authenticate) (needsToken internalMode) [] (routes internalMode production) =
      true := by
  cases internalMode <;> cases production <;> decide

theorem routes_clients (internalMode production : Bool) :
    tableGuarded (· = .auditContext) needsClient [] (routes internalMode production) = true := by
  cases internalMode <;> cases production <;> decide

theorem dispatch_vouched (matcher : Matcher Path) (r : Incoming Path) :
    Vouched cfg.internalMode t r none (dispatch cfg t matcher r) := by
  have nothing (path' : List Segment) (none' : path' ∈ ([] : List (List Segment)))
    (_ : matcher.under path' r.path = true) : false = true := absurd none' List.not_mem_nil
  have tokens := table_guarded matcher r.method r.path
    (routes_tokens cfg.internalMode t.production) nothing
  have clients := table_guarded matcher r.method r.path
    (routes_clients cfg.internalMode t.production) nothing
  have vouched : Vouched cfg.internalMode t r none
    (RouteTable.run (handle cfg t r) (fun _ => raise (.fiber 404)) (chainOf cfg t matcher r)
    (context r none false)) := run_vouched tokens clients
  exact vouched

end Vouching
section Runs
variable {Path : Type} {cfg : Config} {t : Transport} {matcher : Matcher Path} {below : Api}

theorem api_records (cfg : Config) : Records (api cfg) World.requests where
  accepts accepted := by
    obtain ⟨_,rfl⟩ := accept_parts accepted
    rfl
  executes ran := executed_requests (exec_executed ran)
  abandons _ _ := rfl
  environs := by
    intro w event after ran
    cases event with
    | tick elapsed => cases ran; rfl
    | deleted path =>
        obtain ⟨_,same⟩ := Option.ite_none_right_eq_some.mp ran
        cases same
        rfl

-- A token that has passed has been through Authenticate before the call.
def Passed (below : Api) (pid : Pid) (n : Nat) (token : AccessToken) : Prop :=
  ∃ k, k < n ∧ below.shared.requests (slot pid k) = some (.authenticate token) ∧
    ∃ value, below.threads (slot pid k) = some (.done value)

theorem came_vouched {script now : Script} (vouched : Vouched mode t r none script)
    (came : Came World.requests below pid script n now) :
    ∃ auth, Vouched mode t r auth now ∧ ∀ token, auth = some token →
      Passed below pid n token ∧ t.parseJWT (presented r "access_token") = some token := by
  induction came with
  | start => exact ⟨none,vouched,by rintro _ ⟨⟩⟩
  | @answered n request next code result before known here ended ih =>
      obtain ⟨auth,allowed,behind⟩ := ih
      have earlier (token : AccessToken) (same : auth = some token) :
          Passed below pid (n+1) token ∧ t.parseJWT (presented r "access_token") = some token := by
        obtain ⟨⟨k,early,rest⟩,read⟩ := behind token same
        exact ⟨⟨k,Nat.lt_succ_of_lt early,rest⟩,read⟩
      refine ⟨_,allowed.2 result,fun token same => ?_⟩
      cases request with
      | authenticate given =>
          cases result with
          | error err => exact earlier token same
          | ok value =>
              cases same
              cases code with
              | done value => exact ⟨⟨n,Nat.lt_succ_self n,known,value,here⟩,allowed.1.known _ rfl⟩
              | fail err => cases ended
              | call c rest => cases ended
      | _ => exact earlier token same
  | seen before possible ih =>
      obtain ⟨auth,allowed,behind⟩ := ih
      exact ⟨auth,allowed _,behind⟩

abbrev Front (Path : Type) := Stages.Front World (Incoming Path)

abbrev Server (Path : Type) :=
  State (Step Cmd Request) (Answer Reply) Empty (Except Fault Response) (Front Path)

def Server.boot (base : List Row) (serial : Nat) (uuids : List UUID)
    (started : Time) : Server Path :=
  .start (.start (.start base serial uuids started))

-- Whatever the server does, the services do.
theorem server_simulated {s : Server Path}
    (path : Reached (server cfg t matcher) allow (Server.boot base serial uuids started) s) :
    ∃ below, Reached (api cfg) (fun _ _ => True) (RestApi.boot base serial uuids started) below ∧
      Simulated (api cfg) World.requests (dispatch cfg t matcher) s below :=
  staged_simulated (api_records cfg) (fun _ => rfl) path

-- The call of a service on behalf of an HTTP request.
structure Attributed (cfg : Config) (t : Transport) (w : World) (r : Incoming Path)
    (token : AccessToken) (request : Request) : Prop where
  presented : t.parseJWT (presented r "access_token") = some token
  context : contextOf request = some ⟨some (actor token),some (client r)⟩
  own : own token request
  genuine : ∃ signer signedAt, (signer,.signed signedAt token) ∈ w.journal ∧
    TokenOrigins.Genuine cfg w signer token
  account : ∃ row, .user row ∈ w.committed ∧ row.user.id = token.subject ∧
    row.user.role = token.role
  session : ∀ sess, .session sess ∈ w.committed → sess.id = token.sessionID →
    sess.userID = token.subject

-- The request that made a call, and the token it had come through Authenticate with.
theorem call_admitted {s : Server Path} (keyed : schema.Keyed base) (apart : schema.Apart base)
    (known : ∀ sess, .session sess ∈ base → sess.id ∈ uuids)
    (path : Reached (server cfg t matcher) allow (Server.boot base serial uuids started) s)
    (asked : s.shared.below.requests goroutine = some request)
    (kind : closed cfg.internalMode request = true) :
    ∃ pid n r token, goroutine = slot pid n ∧ s.shared.intakes pid = some r ∧
      (∃ below, Reached (api cfg) (fun _ _ => True) (RestApi.boot base serial uuids started) below ∧
        below.shared = s.shared.below ∧ Passed below pid n token) ∧
      Attributed cfg t s.shared.below r token request := by
  obtain ⟨below,run,simulated⟩ := server_simulated path
  rw [← simulated.shared] at asked ⊢
  obtain ⟨pid,n,r,next,rfl,taken,_,came⟩ := simulated.traced goroutine request asked
  obtain ⟨auth,⟨permitted,_⟩,behind⟩ := came_vouched (dispatch_vouched matcher r) came
  obtain ⟨token,rfl,mine⟩ := permitted.closed kind
  obtain ⟨⟨k,early,authenticated,value,accepted⟩,read⟩ := behind token rfl
  obtain ⟨signer,signedAt,signed⟩ : ∃ signer signedAt, (signer,.signed signedAt token) ∈
      below.shared.journal := by
    rcases ClosedSessions.reached_verified run _ token _ authenticated accepted with start |
      ⟨_,fails⟩ | signed
    · cases start
    · cases fails
    · exact signed
  have genuine := TokenOrigins.reached_genuine keyed apart run signer signedAt token signed
  obtain ⟨ctx,within⟩ : ∃ ctx, contextOf request = some ctx := by
    cases request with
    | authenticate token => cases kind
    | _ => exact ⟨_,rfl⟩
  refine ⟨pid,n,r,token,rfl,taken,⟨below,run,rfl,k,early,authenticated,value,accepted⟩,?_⟩
  exact ⟨read,within.trans (congrArg some (permitted.ctx ctx within)),mine,
    ⟨signer,signedAt,signed,genuine⟩,TokenOrigins.token_role keyed apart run genuine,
    fun sess member same => TokenOrigins.token_session keyed apart known run signed member same⟩

theorem call_attributed {s : Server Path} (keyed : schema.Keyed base) (apart : schema.Apart base)
    (known : ∀ sess, .session sess ∈ base → sess.id ∈ uuids)
    (path : Reached (server cfg t matcher) allow (Server.boot base serial uuids started) s)
    (asked : s.shared.below.requests goroutine = some request)
    (kind : closed cfg.internalMode request = true) :
    ∃ pid r token, s.shared.intakes pid = some r ∧
      Attributed cfg t s.shared.below r token request := by
  obtain ⟨pid,_,r,token,_,taken,_,attributed⟩ := call_admitted keyed apart known path asked kind
  exact ⟨pid,r,token,taken,attributed⟩

end Runs

namespace Controls
open RestApi.Controls

abbrev init : Server (List String) := Server.boot [.user ⟨ann,none⟩] 0 ["u1"] (1000*second)

abbrev Exchange := List (Act (Incoming (List String)) Choice Surroundings)

def loggedIn : Exchange :=
  [.spawn 0 (incoming .post ["api","auth","login"]
    [] "\x7b\"email\":\"a@x\",\"password\":\"old\"\x7d"),.step 0 .runs,.step 0 .runs,
    .step 0 (.value "s1"),.step 0 (.value "t1"),.step 0 .runs,.step 0 .runs,.step 0 .runs,
    .step 0 .runs,.step 0 .runs,.step 0 .runs,.step 0 .runs,.step 0 .runs]

-- A request that has been authenticated and is in its service.
def admitted (pid : Pid) (r : Incoming (List String)) : Exchange :=
  [.spawn pid r,.step pid .runs,.step pid .runs,.step pid .runs,.step pid .runs,.step pid .runs,
    .step pid .runs]

def logout : Incoming (List String) :=
  incoming .delete ["api","auth","logout"] [("access_token","jwt")] ""

def leaving : Request := .logout ⟨some (actor (pass .user)),some ⟨"ip","r1","agent"⟩⟩ "s1"

end Controls
end RestApi.Http
