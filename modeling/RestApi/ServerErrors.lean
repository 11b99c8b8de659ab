import RestApi.ServerAccess

namespace RestApi.Http
open Pool Program RouteTable Stages JsonText

section Contract

def bodyCodes : Codes := [(400,"REQ_MALFORMED_JSON"),(422,"VALIDATION")]
def uploadCodes : Codes :=
  [(400,"MULTIPART_FORM"),(400,"UPLOAD_MAX_SIZE"),(400,"UPLOAD_MIME_TYPES"),(400,"UPLOAD_INVALID")]

-- The errors a handler is known for.
def Handler.codes : Handler → Codes
  | .rateLimit _ => [(429,"REQ_RATE_LIMIT")]
  | .auditContext => []
  | .authenticate =>
      [(401,"REQ_UNAUTHORIZED"),(401,"AUTH_INVALID"),(401,"AUTH_EXPIRED"),
        (401,"AUTH_INVALID_SESSION")]
  | .health => []
  | .login => bodyCodes ++ [(401,"AUTH_CREDENTIALS")]
  | .register => bodyCodes ++ [(403,"RBAC_UNAUTHORIZED_PERM"),(409,"USER_EMAIL_CONFLICT")]
  | .completeRegistration =>
      bodyCodes ++ [(401,"AUTH_INVALID_REGISTRATION_TOKEN"),(422,"USER_VALIDATION"),
        (409,"USER_EMAIL_CONFLICT")]
  | .getRegistrationToken => [(404,"RESOURCE_NOT_FOUND")]
  | .refreshAccessToken =>
      [(401,"REQ_UNAUTHORIZED"),(401,"AUTH_INVALID_SESSION"),(404,"RESOURCE_NOT_FOUND")]
  | .recoverPassword => bodyCodes ++ [(429,"AUTH_RECOVERY_THROTTLED"),(404,"RESOURCE_NOT_FOUND")]
  | .getPasswordRecoveryToken => [(404,"RESOURCE_NOT_FOUND")]
  | .resetPassword =>
      bodyCodes ++ [(401,"AUTH_INVALID_RECOV_TOKEN"),(404,"RESOURCE_NOT_FOUND"),
        (409,"USER_EMAIL_CONFLICT")]
  | .logout => []
  | .getCurrentUser => [(403,"RBAC_UNAUTHORIZED_PERM"),(404,"RESOURCE_NOT_FOUND")]
  | .changePassword => bodyCodes ++
      [(403,"RBAC_UNAUTHORIZED_PERM"),(404,"RESOURCE_NOT_FOUND"),(401,"AUTH_CREDENTIALS"),
        (409,"USER_EMAIL_CONFLICT")]
  | .listPermission => []
  | .revokeUserSessions => [(400,"INVALID_PARAMETER"),(403,"RBAC_UNAUTHORIZED_PERM")]
  | .listUserSessions => [(400,"INVALID_PARAMETER"),(403,"RBAC_UNAUTHORIZED_PERM")]
  | .revokeSession =>
      [(400,"INVALID_PARAMETER"),(403,"RBAC_UNAUTHORIZED_PERM"),(404,"RESOURCE_NOT_FOUND")]
  | .listuser => [(403,"RBAC_UNAUTHORIZED_PERM")]
  | .deleteProfilePicture =>
      [(403,"RBAC_UNAUTHORIZED_PERM"),(404,"RESOURCE_NOT_FOUND"),(409,"USER_EMAIL_CONFLICT")]
  | .changeProfilePicture =>
      uploadCodes ++ [(403,"RBAC_UNAUTHORIZED_PERM"),(404,"RESOURCE_NOT_FOUND"),
        (409,"USER_EMAIL_CONFLICT")]
  | .deleteUser => [(400,"INVALID_PARAMETER"),(403,"RBAC_UNAUTHORIZED_PERM")]
  | .updateUser => (400,"INVALID_PARAMETER") :: bodyCodes ++
      [(403,"RBAC_UNAUTHORIZED_PERM"),(404,"RESOURCE_NOT_FOUND"),(422,"USER_VALIDATION"),
        (409,"USER_EMAIL_CONFLICT")]
  | .listAudit => [(403,"RBAC_UNAUTHORIZED_PERM")]
  | .notFound => [(404,"HANDLER_NOT_FOUND")]

-- The handlers that may go on to the next one.
def Handler.passes : Handler → Bool
  | .rateLimit _ => true
  | .auditContext => true
  | .authenticate => true
  | _ => false

-- What a chain can answer: nothing comes after the first handler that ends it.
def contract : List Handler → Codes
  | [] => []
  | handler :: rest => handler.codes ++ if handler.passes then contract rest else []

-- The Go error a fault stands for. The recoverer makes an error of a panic.
def Fault.Shows : Fault → ErrorTree Cause → Prop
  | .raised err,tree => tree = err
  | .service err,tree => Http.Shows err tree
  | .panicked,tree => tree = .leaf .other

def Answered (docs : Codes) (e : HttpError) : Prop := Generic e ∨ (e.status,e.code) ∈ docs

def Fault.Covered (docs : Codes) : Fault → Prop
  | .raised err => Answered docs (parseError err) ∧ err ≠ .leaf (.fiber 404)
  | .service err => covered docs err = true
  | .panicked => True

theorem covered_mono (known : covered docs err = true)
    (more : docs ⊆ docs') : covered docs' err = true := by
  unfold covered at known ⊢
  split
  · rfl
  · rename_i e behind
    simp only [behind] at known
    exact decide_eq_true (more (of_decide_eq_true known))

theorem covered_answered (known : covered docs err = true) (shows' : Http.Shows err tree) :
    Answered docs (parseError tree) := by
  rcases parseError_shown shows' with generic | ⟨e,details,behind,same⟩
  · exact .inl generic
  · obtain ⟨status,code⟩ := response_withDetails e details
    rw [Answered,same,status,code]
    simp only [covered,behind,decide_eq_true_eq] at known
    exact .inr known

theorem Fault.answered {fault : Fault} (known : fault.Covered docs) (shows' : fault.Shows tree) :
    Answered docs (parseError tree) := by
  cases fault with
  | raised err => exact shows' ▸ known.1
  | service err => exact covered_answered known shows'
  | panicked => exact shows' ▸ .inl (.inl rfl)

theorem documented_ends {good : α → Prop} {program : Service α}
    (documented : Documented docs good program)
    (possible : Stages.Ends program (.error err)) : covered docs err = true := by
  induction program with
  | done value => cases possible
  | fail other =>
      cases possible
      exact Bool.not_eq_false _ ▸ documented
  | call c next ih =>
      obtain ⟨reply,rest⟩ := possible
      exact ih reply (meets_reply documented ⟨rfl,fun _ _ => trivial⟩) rest

end Contract

section Scripts
variable {docs : Codes} {t : Transport}

-- However its calls and look-ups end, a script ends in nothing but these errors.
def Within (docs : Codes) : Script → Prop
  | .stop outcome => ∀ fault, outcome = .error fault → fault.Covered docs
  | .ask request next =>
      ∀ result, (∀ err, result = .error err → covered (codes request) err = true) →
        Within docs (next result)
  | .look code next => ∀ result, Stages.Ends code result → Within docs (next result)

theorem fail_within {fault : Fault} (known : fault.Covered docs) :
    Within docs (.stop (.error fault)) := by
  rintro _ ⟨⟩
  exact known

theorem raise_within {cause : Cause} (known : Answered docs (parseError (.leaf cause)))
    (own : cause ≠ .fiber 404) : Within docs (raise cause) := by
  refine fail_within ⟨known,?_⟩
  rintro ⟨⟩
  exact own rfl

theorem other_within : Within docs (raise .other) := raise_within (.inl (.inl rfl)) (by rintro ⟨⟩)

theorem respond_within (response : Response) : Within docs (respond response) := by
  rintro _ ⟨⟩

theorem calling_within {next : Value → Script} (known : codes request ⊆ docs)
    (after : ∀ value, Within docs (next value)) : Within docs (calling request next) := by
  intro result failing
  cases result with
  | error err => exact fail_within (covered_mono (failing err rfl) known)
  | ok value => exact after value

theorem looking_within {inner : Codes} {good : Seen → Prop} {code : Service Seen}
    {next : Seen → Script} (known : inner ⊆ docs) (documented : Documented inner good code)
    (after : ∀ seen, Within docs (next seen)) : Within docs (looking code next) := by
  intro result possible
  cases result with
  | error err => exact fail_within (covered_mono (documented_ends documented possible) known)
  | ok seen => exact after seen

theorem bound_within {input : Input T} {next : T → Script} (known : bodyCodes ⊆ docs)
    (after : ∀ value, Within docs (next value)) (raw : String) :
    Within docs (bound t input raw next) := by
  have malformed : (400,"REQ_MALFORMED_JSON") ∈ docs := known (by decide)
  have invalid : (422,"VALIDATION") ∈ docs := known (by decide)
  unfold bound
  split
  · rename_i cause refused
    unfold bindValidateJSON at refused
    split at refused
    · cases refused
      exact raise_within (.inr malformed) (by rintro ⟨⟩)
    · cases refused
      exact other_within
    · dsimp only at refused
      split at refused
      · cases refused
        exact raise_within (.inr malformed) (by rintro ⟨⟩)
      · split at refused
        · cases refused
        · cases refused
          exact raise_within (.inr invalid) (by rintro ⟨⟩)
    · cases refused
      exact raise_within (.inr malformed) (by rintro ⟨⟩)
  · exact after _

theorem withUUID_within {next : UUID → Script} (name param : String)
    (known : (400,"INVALID_PARAMETER") ∈ docs) (after : ∀ id, Within docs (next id)) :
    Within docs (withUUID t name param next) := by
  unfold withUUID
  split
  · exact raise_within (.inr known) (by rintro ⟨⟩)
  · exact after _

theorem withUser_within {ctx : Ctx} {next : UUID → RbacContext → Script}
    (after : ∀ userID context, Within docs (next userID context)) :
    Within docs (withUser ctx next) := by
  unfold withUser
  split
  · exact fail_within rfl
  · split
    · exact fail_within trivial
    · exact after _ _

theorem respondTokens_within {cfg : Config} (value : Value) :
    Within docs (respondTokens cfg t value) := by
  unfold respondTokens
  split
  · have clock : Documented docs (fun _ => True)
      (.call .clock fun time => .done (Seen.clock time)) := documented_call fun _ => trivial
    refine looking_within (List.Subset.refl _) clock fun seen => ?_
    split
    · exact respond_within _
    · exact other_within
  · exact other_within

end Scripts

section Lookups
variable {docs : Codes} {cfg : Config} {t : Transport} {ctx : Ctx}

def lookupCodes : Lookup → Codes
  | .listUser _ => [(403,"RBAC_UNAUTHORIZED_PERM")]
  | .getUserByID _ => [(403,"RBAC_UNAUTHORIZED_PERM"),(404,"RESOURCE_NOT_FOUND")]
  | .getUserByEmail _ => [(403,"RBAC_UNAUTHORIZED_PERM"),(404,"RESOURCE_NOT_FOUND")]
  | .listUserSessions _ => [(403,"RBAC_UNAUTHORIZED_PERM")]
  | .listEntries _ => [(403,"RBAC_UNAUTHORIZED_PERM")]

theorem documented_map {program : Service α} (wrap : α → β)
    (documented : Documented docs (fun _ => True) program) :
    Documented docs (fun _ => True) (wrap <$> program) :=
  yields_then documented fun _ => trivial

theorem documented_mono {good : α → Prop} {program : Service α} (more : docs ⊆ docs')
    (documented : Documented docs good program) : Documented docs' good program := by
  refine meets_mono (fun _ _ owed => owed) (fun _ result settled => ?_) documented
  cases result with
  | ok value => exact settled
  | error err =>
      intro unknown
      exact Bool.eq_false_iff.mp unknown (covered_mono (Bool.not_eq_false _ ▸ settled) more)

theorem listSessions_documented (userID : UUID) :
    Documented docs (fun _ => True) (listSessions userID) := by
  refine yields_then now_documented fun started => documented_call fun reply => ?_
  cases reply with
  | error err => exact documented_fail rfl
  | ok rows => trivial

theorem lookup_documented (lookup : Lookup) :
    Documented (lookupCodes lookup) (fun _ => True) (look cfg t.listings ctx lookup) := by
  cases lookup with
  | listUser search =>
      exact documented_map _ (yields_then (require_documented rfl _) fun _ => documented_mono
        (List.nil_subset _) (t.users search))
  | getUserByID userID =>
      exact documented_map _ (yields_then (requireSelfOr_documented rfl userID _)
        fun _ => query_documented rfl .pool _ _)
  | getUserByEmail email =>
      refine documented_map _ (yields_then (query_documented rfl .pool _ _) fun usr =>
        yields_then (requireSelfOr_documented rfl usr.id _) fun _ => trivial)
  | listUserSessions userID =>
      exact documented_map _ (yields_then (requireSelfOr_documented rfl userID _)
        fun _ => listSessions_documented userID)
  | listEntries search =>
      exact documented_map _ (yields_then (require_documented rfl _) fun _ => documented_mono
        (List.nil_subset _) (t.entries search))

theorem found_within (lookup : Lookup) (known : lookupCodes lookup ⊆ docs) :
    Within docs (found cfg t ctx lookup) := by
  refine looking_within known (documented_map _ (lookup_documented lookup)) fun seen => ?_
  split
  · exact respond_within _
  · exact other_within

end Lookups

section Chains
variable {Path : Type} {docs : Codes} {cfg : Config} {t : Transport} {r : Incoming Path}

theorem uploadFault_covered (known : uploadCodes ⊆ docs) (err : Upload.HandlerErr) :
    (uploadFault err).Covered docs := by
  have refused {e : HttpError} (listed : decide ((e.status,e.code) ∈ uploadCodes) = true) :
    (Fault.raised (.leaf (.http e))).Covered docs :=
    ⟨.inr (known (of_decide_eq_true listed)),by rintro ⟨⟩⟩
  cases err with
  | notMultipart => exact refused rfl
  | imageRequired => exact refused rfl
  | rbacContextNotFound => rfl
  | nilUserID => trivial
  | upload err =>
      cases err with
      | maxSize maxBytes receivedBytes => exact refused rfl
      | mimeTypes claimed actual allowed => exact refused rfl
      | invalid details => exact refused rfl
      | _ => exact ⟨.inl (.inl rfl),by rintro ⟨⟩⟩

-- Whatever a handler answers itself is in its own list.
theorem handle_within {rest : Ctx → Script} {handler : Handler} (params : Params) (ctx : Ctx)
    (own : handler.codes ⊆ docs) (after : handler.passes = true → ∀ ctx, Within docs (rest ctx)) :
    Within docs (handle cfg t r handler params rest ctx) := by
  have among {part : Codes} (listed : part.all (decide <| · ∈ handler.codes) = true) :
      part ⊆ docs :=
    fun code member => own (of_decide_eq_true (List.all_eq_true.mp listed code member))
  have refused {e : HttpError}
      (listed : [(e.status,e.code)].all (decide <| · ∈ handler.codes) = true) :
      Within docs (raise (.http e)) :=
    raise_within (.inr (among listed (.head _))) (by rintro ⟨⟩)
  have param (listed : [(400,"INVALID_PARAMETER")].all (decide <| · ∈ handler.codes) = true) :
      (400,"INVALID_PARAMETER") ∈ docs := among listed (.head _)
  have calls {request : Request}
      (listed : (codes request).all (decide <| · ∈ handler.codes) = true) (response : Response) :
      Within docs (calling request fun _ => respond response) :=
    calling_within (among listed) fun _ => respond_within response
  cases handler with
  | rateLimit max =>
      simp only [handle]
      split
      · exact refused rfl
      · exact after rfl ctx
  | auditContext => exact after rfl _
  | authenticate =>
      simp only [handle,authenticateHandler]
      split
      · exact refused rfl
      · split
        · have invalid : covered (Handler.codes .authenticate) .accessTokenInvalid = true := rfl
          exact fail_within (covered_mono invalid own)
        · exact calling_within (among rfl) fun _ => after rfl _
  | health =>
      simp only [handle,health]
      split
      · exact respond_within _
      · exact respond_within _
  | login =>
      exact bound_within (among rfl) (fun input => calling_within
        (among rfl) respondTokens_within) _
  | register => exact bound_within (among rfl) (fun input => calls rfl _) _
  | completeRegistration => exact bound_within (among rfl) (fun input => calls rfl _) _
  | getRegistrationToken =>
      refine looking_within own (documented_map _ (query_documented rfl .pool _ _)) fun seen => ?_
      split
      · exact respond_within _
      · exact other_within
  | refreshAccessToken =>
      simp only [handle,refreshAccessToken]
      split
      · exact refused rfl
      · exact calling_within (among rfl) respondTokens_within
  | recoverPassword => exact bound_within (among rfl) (fun input => calls rfl _) _
  | getPasswordRecoveryToken =>
      refine looking_within own (documented_map _ (query_documented rfl .pool _ _)) fun seen => ?_
      split
      · exact respond_within _
      · exact other_within
  | resetPassword => exact bound_within (among rfl) (fun input => calls rfl _) _
  | logout =>
      simp only [handle,logout]
      split
      · exact respond_within _
      · exact fun _ _ => respond_within _
  | getCurrentUser =>
      refine withUser_within fun userID context => looking_within (among rfl)
        (documented_map _ (lookup_documented _)) fun seen => ?_
      split
      · exact respond_within _
      · exact other_within
  | changePassword =>
      exact bound_within (among rfl) (fun input => withUser_within fun userID _ => calls rfl _) _
  | listPermission =>
      simp only [handle,listPermission]
      split
      · exact fail_within rfl
      · exact respond_within _
  | revokeUserSessions => exact withUUID_within _ _ (param rfl) fun userID => calls rfl _
  | listUserSessions =>
      exact withUUID_within _ _ (param rfl) fun userID => found_within _ (among rfl)
  | revokeSession => exact withUUID_within _ _ (param rfl) fun sessionID => calls rfl _
  | listuser =>
      simp only [handle,listuser]
      split
      · exact other_within
      · exact found_within _ (among rfl)
  | deleteProfilePicture => exact withUser_within fun userID _ => calls rfl _
  | changeProfilePicture =>
      simp only [handle,changeProfilePicture]
      split
      · exact fail_within (uploadFault_covered (among rfl) _)
      · rename_i accepted
        obtain ⟨_,_,_,userID,_,_,_,_,rfl⟩ := Upload.changeProfilePicture_ok.mp accepted
        exact calls rfl _
  | deleteUser => exact withUUID_within _ _ (param rfl) fun userID => calls rfl _
  | updateUser =>
      exact withUUID_within _ _ (param rfl) fun userID => bound_within (among rfl)
        (fun input => calls rfl _) _
  | listAudit =>
      simp only [handle,listAudit]
      split
      · exact other_within
      · exact found_within _ (among rfl)
  | notFound => exact refused rfl

theorem run_within {handlers : List (Handler × Params)}
    (known : contract (handlers.map Prod.fst) ⊆ docs)
    (ends : ∃ entry ∈ handlers, entry.1.passes = false) (ctx : Ctx) :
    Within docs (RouteTable.run (handle cfg t r) (fun _ => raise (.fiber 404)) handlers ctx) := by
  induction handlers generalizing ctx with
  | nil =>
      obtain ⟨_,none',_⟩ := ends
      cases none'
  | cons entry rest ih =>
      obtain ⟨handler,params⟩ := entry
      obtain ⟨own,later⟩ := List.append_subset.mp known
      refine handle_within params ctx own fun passes => ih ?_ ?_
      · rwa [if_pos passes] at later
      · obtain ⟨last,member,stops⟩ := ends
        rcases List.mem_cons.mp member with rfl | after
        · cases passes.symm.trans stops
        · exact ⟨last,after,stops⟩

theorem dispatch_within (matcher : Matcher Path) (r : Incoming Path) :
    Within (contract ((chainOf cfg t matcher r).map Prod.fst)) (dispatch cfg t matcher r) := by
  have last : (Handler.notFound,[]) ∈ chainOf cfg t matcher r :=
    chain_last matcher r.method r.path _ _
  exact run_within (List.Subset.refl _) ⟨_,last,rfl⟩ _

end Chains

section Runs
variable {Path : Type} {docs : Codes} {cfg : Config} {t : Transport} {matcher : Matcher Path}
  {below : Api}

theorem came_within {script now : Script}
    (run : Reached (api cfg) allow (RestApi.boot base serial uuids started) below)
    (within : Within docs script)
    (came : Came World.requests below pid script n now) : Within docs now := by
  induction came with
  | start => exact within
  | @answered n request next code result before known here ended ih =>
      refine ih result fun err failed => ?_
      subst failed
      cases code with
      | done value => cases ended
      | fail err =>
          cases ended
          exact failures_covered run known here
      | call c rest => cases ended
  | seen before possible ih => exact ih _ possible

end Runs

namespace Controls
open RestApi.Controls

def mistyped : Exchange :=
  [.spawn 0 (incoming .post ["api","auth","login"]
    [] "\x7b\"email\":\"a@x\",\"password\":\"new\"\x7d"),.step 0 .runs,.step 0 .runs]

def refused (s : Server (List String)) : Bool := match s.threads 0 with
  | some (.done (.error (.service .wrongCredentials))) => true
  | _ => false

def login : Incoming (List String) := incoming .post ["api","auth","login"] [] ""

example : contract ((chainOf config transport matcher login).map Prod.fst) =
    [(429,"REQ_RATE_LIMIT"),(400,"REQ_MALFORMED_JSON"),(422,"VALIDATION"),
      (401,"AUTH_CREDENTIALS")] := by decide +kernel

end Controls
end RestApi.Http
