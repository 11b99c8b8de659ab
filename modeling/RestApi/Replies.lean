import RestApi.WorldValid

namespace RestApi
open Pool Program Service

-- What is under all the wrapping of an error.
def Err.root : Err → Err
  | .wrapped _ err => err.root
  | err => err

-- Neither bcrypt nor a validation gave this error.
def Err.ordinary (err : Err) : Bool := match err.root with
  | .bcrypt => false
  | .validation _ => false
  | _ => true

def Cmd.writes : Cmd → Bool
  | .insert _ => true
  | .update _ _ => true
  | _ => false

variable {told : (c : Cmd) → Reply c → Prop} {duty : Option Request → Cmd → Prop}
  {fault : Err → Prop} {v : Option Request} {α β : Type} {cfg : Config}

-- An end with a good value, or with an error that is no fault.
def Settled (fault : Err → Prop) (good : α → Prop) : Except Err α → Prop
  | .ok value => good value
  | .error err => ¬fault err

-- The code of a request, given only what its commands may be answered: what it
-- owes at each of them, and how it ends.
def Yields (told : (c : Cmd) → Reply c → Prop) (duty : Option Request → Cmd → Prop)
    (fault : Err → Prop) (v : Option Request) (good : α → Prop) (program : Service α) : Prop :=
  Meets (Heard told) duty (fun _ => Settled fault good) program v

section Sequencing
variable {program : Service α} {early good : α → Prop}

theorem yields_settle {next : Except Err α → Service β} {last : β → Prop}
    (first : Yields told duty fault v early program)
    (after : ∀ result, Settled fault early result → Yields told duty fault v last (next result)) :
    Yields told duty fault v last (program.settle next) := by
  induction program generalizing v with
  | done value => exact after _ first
  | fail err => exact after _ first
  | call c rest ih =>
      obtain ⟨owed,continues⟩ := first v .refl
      exact meets_heard owed fun reply said =>
        ih reply (continues reply v ⟨rfl,fun _ same => Option.some.inj same ▸ said⟩) after

theorem yields_bind {next : α → Service β} {last : β → Prop}
    (first : Yields told duty fault v early program)
    (after : ∀ value, early value → Yields told duty fault v last (next value)) :
    Yields told duty fault v last (program.bind next) := by
  refine yields_settle first fun result settled => ?_
  cases result with
  | ok value => exact after value settled
  | error err => exact settled

theorem yields_then {next : α → Service β} {last : β → Prop}
    (first : Yields told duty fault v (fun _ => True) program)
    (after : ∀ value, Yields told duty fault v last (next value)) :
    Yields told duty fault v last (program.bind next) :=
  yields_bind first fun value _ => after value

theorem yields_attempt (first : Yields told duty fault v early program) :
    Yields told duty fault v (Settled fault early) (attempt program) :=
  yields_settle first fun _ settled => settled

theorem yields_mono (weaker : ∀ value, early value → good value)
    (first : Yields told duty fault v early program) : Yields told duty fault v good program := by
  refine meets_mono (fun _ _ owed => owed) (fun _ result settled => ?_) first
  cases result with
  | ok value => exact weaker value settled
  | error err => exact settled

end Sequencing

-- A goroutine is judged by the request it was started for.
theorem heard_sound {Inv : World → Prop} {allow : Api → Act Request Choice Surroundings → Prop}
    {post : Option Request → Except Err Value → Prop}
    (code : ∀ request, Meets (Heard told) duty post (serve cfg request) (some request))
    (accepts : ∀ {w pid request after}, Inv w → accept w pid request = some after → Inv after)
    (executes : ∀ {s : Api} {pid c next choice after reply}, Inv s.shared →
      s.threads pid = some (.call c next) → duty (s.shared.requests pid) c →
      allow s (.step pid choice) → exec cfg s.shared pid c choice = some (after,reply) → Inv after ∧
      ∀ answer, reply = some answer → told c answer)
    (abandons : ∀ {w} (pid : Pid), Inv w → Inv (w.abort pid))
    (environs : ∀ {w event after}, Inv w → surroundings w event = some after → Inv after) :
    Sound (api cfg) allow Inv World.requests (Heard told) duty post where
  accepts := by
    intro w pid request after inv accepted
    refine ⟨accepts inv accepted,?_,fun other different => ?_⟩
    · obtain ⟨_,rfl⟩ := accept_parts accepted
      rw [show ({w with requests := Function.update w.requests pid (some request)} :
        World).requests pid = some request from Function.update_self ..]
      exact code request
    · obtain ⟨_,rfl⟩ := accept_parts accepted
      exact Function.update_of_ne different _ _
  executes := by
    intro s pid c next choice after reply inv here owed allowed ran
    obtain ⟨kept,heard⟩ := executes inv here owed allowed ran
    have same := executed_requests (exec_executed ran)
    exact ⟨kept,⟨congrFun same pid,heard⟩,fun other _ => congrFun same other⟩
  abandons pid inv := ⟨abandons pid inv,fun _ _ => rfl⟩
  environs := by
    intro s event after inv _ ran
    refine ⟨environs inv ran,fun pid => ?_⟩
    cases event with
    | tick elapsed => cases ran; rfl
    | deleted path =>
        obtain ⟨_,same⟩ := Option.ite_none_right_eq_some.mp ran
        cases same
        rfl

-- What is common to all the requests that are judged: only statements that write
-- owe anything, and only bcrypt and the validations are to blame.
structure Judges (duty : Option Request → Cmd → Prop) (fault : Err → Prop) : Prop where
  free : ∀ v c, c.writes = false → duty v c
  spares : ∀ err, err.ordinary = true → ¬fault err
  through : ∀ text err, fault (.wrapped text err) → fault err

section Commands
variable (judges : Judges duty fault)
include judges

theorem wrapping_yields {program : Service α} {good : α → Prop}
    (first : Yields told duty fault v good program) :
    Yields told duty fault v good (wrapping text program) := by
  refine yields_settle first fun result settled => ?_
  cases result with
  | ok value => exact settled
  | error err => exact fun blamed => settled (judges.through text err blamed)

theorem now_yields : Yields told duty fault v (fun _ => True) now :=
  meets_heard (judges.free _ _ rfl) fun _ _ => trivial

theorem newUUID_yields : Yields told duty fault v (fun _ => True) newUUID := by
  refine meets_heard (judges.free _ _ rfl) fun reply _ => ?_
  cases reply with
  | ok id => trivial
  | error _ => exact judges.spares _ rfl

theorem generateOpaqueToken_yields (label : String) :
    Yields told duty fault v (fun _ => True) (generateOpaqueToken label) := by
  refine meets_heard (judges.free _ _ rfl) fun reply _ => ?_
  cases reply with
  | ok raw => trivial
  | error _ => exact judges.spares _ rfl

theorem hashPassword_yields
    (hashes : ∀ reply, told (.bcrypt plain) reply → fault .bcrypt → ∃ digest, reply = .ok digest) :
    Yields told duty fault v (fun digest => told (.bcrypt plain) (.ok digest))
      (hashPassword plain) := by
  refine meets_heard (judges.free _ _ rfl) fun reply said => ?_
  cases reply with
  | ok digest => exact said
  | error _ =>
      intro blamed
      obtain ⟨digest,same⟩ := hashes _ said blamed
      cases same

theorem verifyPassword_yields (plain hashed : String) :
    Yields told duty fault v (fun _ => True) (verifyPassword cfg plain hashed) := by
  unfold verifyPassword
  split
  · trivial
  · exact judges.spares _ rfl

theorem transact_yields {body : Service α} {good : α → Prop}
    (inside : Yields told duty fault v good body) :
    Yields told duty fault v good (transact body) := by
  refine meets_heard (judges.free _ _ rfl) fun reply _ => ?_
  cases reply with
  | error err => exact judges.spares _ rfl
  | ok _ =>
      refine yields_settle inside fun result settled => ?_
      cases result with
      | error err => exact meets_heard (judges.free _ _ rfl) fun _ _ => settled
      | ok value =>
          refine meets_heard (judges.free _ _ rfl) fun reply _ => ?_
          cases reply with
          | ok _ => exact settled
          | error err => exact judges.spares _ rfl

-- A row that was read, with the statement that read it.
theorem query_yields {pick : Row → Option α} (known : missing.ordinary = true) (conn : Conn) :
    Yields told duty fault v (fun value => ∃ row, pick row = some value ∧
      (told (.select test) (.ok [row]) ∨ told (.lock test) (.ok [row])))
      (query conn test (scanOne pick missing text)) := by
  have scans (reply : Except SqlError (List Row))
      (said : ∀ row, reply = .ok [row] → told (.select test) (.ok [row]) ∨
      told (.lock test) (.ok [row])) :
      Yields told duty fault v (fun value => ∃ row, pick row = some value ∧
        (told (.select test) (.ok [row]) ∨ told (.lock test) (.ok [row])))
            (scanOne pick missing text reply) := by
    match reply,said with
    | .error err,_ => exact judges.spares _ rfl
    | .ok [],_ => exact judges.spares _ known
    | .ok [row],said =>
        simp only [scanOne]
        cases picked : pick row with
        | none => exact judges.spares _ rfl
        | some value => exact ⟨row,picked,said row rfl⟩
    | .ok (_ :: _ :: _),_ => exact judges.spares _ rfl
  cases conn with
  | pool =>
      exact meets_heard (judges.free _ _ rfl) fun reply said => scans reply fun row same =>
        .inl (same ▸ said)
  | tx =>
      exact meets_heard (judges.free _ _ rfl) fun reply said => scans reply fun row same =>
        .inr (same ▸ said)

theorem execute_yields (reply : Except SqlError α) (text : String) :
    Yields told duty fault v (fun _ => True) (execute text reply) := by
  cases reply with
  | ok _ => trivial
  | error err => exact judges.spares _ rfl

end Commands

section Statements
variable (judges : Judges duty fault)
include judges

theorem storeUser_yields
    (owed : duty v (.insert fun began _ => .user ⟨{u with createdAt := began,updatedAt := began},
      none⟩)) : Yields told duty fault v (fun _ => True) (storeUser u) := by
  refine meets_heard owed fun reply _ => ?_
  split
  · trivial
  · exact judges.spares _ rfl
  · exact judges.spares _ rfl
  · exact judges.spares _ rfl

theorem updateUserRow_yields (owed : duty v (.update (userWithID u.id) (rewriteUser u))) :
    Yields told duty fault v (fun _ => True) (updateUserRow u) := by
  refine meets_heard owed fun reply _ => ?_
  split
  · trivial
  · exact judges.spares _ rfl
  · exact judges.spares _ rfl
  · exact judges.spares _ rfl

theorem storeRegistrationToken_yields
    (owed : duty v (.insert fun _ serial => .registration
      {token with id := serial,usedAt := none,revokedAt := none})) :
    Yields told duty fault v (fun _ => True) (storeRegistrationToken token) := by
  refine meets_heard owed fun reply _ => ?_
  split
  · trivial
  · exact judges.spares _ rfl
  · exact judges.spares _ rfl

theorem recordAudit_yields
    (owed : ∀ make : Time → Nat → AuditEntry, duty v
      (.insert fun began serial => .audit (make began serial))) :
    Yields told duty fault v (fun _ => True) (recordAudit ctx record) :=
  meets_heard (owed _) fun _ _ => execute_yields judges _ _

end Statements

section Entities
variable (judges : Judges duty fault)
include judges

theorem require_yields (permission : Permission) :
    Yields told duty fault v (fun _ => True) (require cfg ctx permission) := by
  unfold require
  split
  · exact judges.spares _ rfl
  · split
    · trivial
    · exact judges.spares _ rfl

theorem requireSelfOr_yields (userID : UUID) (permission : Permission) :
    Yields told duty fault v (fun _ => True) (requireSelfOr cfg ctx userID permission) := by
  unfold requireSelfOr
  split
  · exact judges.spares _ rfl
  · split
    · trivial
    · split
      · trivial
      · exact judges.spares _ rfl

theorem auditContext_yields (text : String) :
    Yields told duty fault v (fun a => ctx.audit = some a) (auditContext ctx text) := by
  unfold auditContext
  split
  · assumption
  · exact judges.spares _ rfl

theorem newSession_yields : Yields told duty fault v (fun made => ∃ a, ctx.audit = some a ∧
    made.1.userAgent = a.userAgent)
    (newSession cfg ctx userID) := by
  unfold newSession
  split
  · exact judges.spares _ rfl
  · split
    · exact judges.spares _ rfl
    · refine yields_bind (newUUID_yields judges) fun _ _ =>
        yields_bind (generateOpaqueToken_yields judges "rt") fun _ _ =>
        yields_bind (auditContext_yields judges "new session") fun a given =>
        yields_bind (now_yields judges) fun _ _ => ?_
      exact ⟨a,given,rfl⟩

theorem rotate_yields (session : Session) :
    Yields told duty fault v (fun made => ∃ a hash accessed, ctx.audit = some a ∧
      made.1 = {session with
        refreshTokenHash := hash,accessedAt := accessed,ipAddr := a.ip,userAgent := a.userAgent})
    (rotate cfg ctx session) := by
  refine yields_bind (generateOpaqueToken_yields judges "rt") fun _ _ =>
    yields_bind (auditContext_yields judges "rotate session") fun a given =>
    yields_bind (now_yields judges) fun accessed _ => ?_
  exact ⟨a,_,accessed,given,rfl⟩

theorem newRegistrationToken_yields (name email : String) :
    Yields told duty fault v (fun made => made.1.name = name ∧ made.1.email = email)
      (newRegistrationToken cfg name email) := by
  refine yields_bind (wrapping_yields judges (generateOpaqueToken_yields judges "regt")) fun _ _ =>
    yields_bind (now_yields judges) fun _ _ => ?_
  exact ⟨rfl,rfl⟩

omit judges in
-- A user that fails its own check is to blame on a field of it.
theorem checked_yields {u : User}
    (blameless : ∀ detail, User.validate cfg u = .error (.validation detail) →
      ¬fault (.validation detail)) :
    Yields told duty fault v (fun _ => User.validate cfg u = .ok ())
      (checked (User.validate cfg u)) := by
  cases valid : User.validate cfg u with
  | ok _ => trivial
  | error err =>
      have detailed : ∃ detail, err = .validation detail := by
        unfold User.validate at valid
        split_ifs at valid <;> cases valid <;> exact ⟨_,rfl⟩
      obtain ⟨detail,rfl⟩ := detailed
      exact blameless detail valid

theorem newUser_yields
    (blameless : ∀ id verified detail, User.validate cfg ⟨id,name,email,some verified,digest,none,
      none,.user,none,0,0⟩ = .error (.validation detail) → ¬fault (.validation detail)) :
    Yields told duty fault v (fun u => ∃ id verified, u = ⟨id,name,email,some verified,digest,none,
      none,.user,none,0,0⟩)
      (newUser cfg name email digest) := by
  refine yields_bind (newUUID_yields judges) fun id _ => yields_bind (now_yields judges)
    fun verified _ => yields_bind (checked_yields (blameless id verified)) fun _ _ => ?_
  exact ⟨id,verified,rfl⟩

theorem useToken_yields (token : RegistrationToken) :
    Yields told duty fault v (fun made => ∃ used, made = {token with usedAt := some used})
      (useToken token) := by
  refine yields_bind (now_yields judges) fun checkedAt _ => ?_
  split
  · exact judges.spares _ rfl
  · exact yields_bind (now_yields judges) fun used _ => ⟨used,rfl⟩

theorem signAccessToken_yields (userID sessID : UUID) (role : Role) :
    Yields told duty fault v (fun _ => True) (signAccessToken cfg userID sessID role) := by
  refine yields_bind (now_yields judges) fun _ _ => meets_heard (judges.free _ _ rfl)
    fun reply _ => ?_
  cases reply with
  | ok _ => trivial
  | error _ => exact judges.spares _ rfl

theorem produceEvent_yields (message : Message) :
    Yields told duty fault v (fun _ => True) (produceEvent message) := by
  refine meets_heard (judges.free _ _ rfl) fun reply _ => ?_
  cases reply with
  | ok _ => trivial
  | error _ => exact judges.spares _ rfl

theorem cleanupDeadline_yields : Yields told duty fault v (fun _ => True) cleanupDeadline :=
  yields_bind (now_yields judges) fun _ _ => trivial

theorem setMarkerCmd_yields (key value text : String) (ttl : Duration) (deadline : Time) :
    Yields told duty fault v (fun _ => True) (setMarkerCmd key value text ttl deadline) := by
  refine meets_heard (judges.free _ _ rfl) fun reply _ => ?_
  cases reply with
  | ok _ => trivial
  | error _ => exact judges.spares _ rfl

theorem revokeAllForUser_yields (userID : UUID) (deadline : Time) :
    Yields told duty fault v (fun _ => True) (revokeAllForUser cfg userID deadline) := by
  unfold revokeAllForUser
  split
  · trivial
  · exact yields_bind (now_yields judges) fun _ _ => setMarkerCmd_yields judges _ _ _ _ _

theorem revokeSessionMarker_yields (sessionID : UUID) (deadline : Time) :
    Yields told duty fault v (fun _ => True) (revokeSessionMarker cfg sessionID deadline) := by
  unfold revokeSessionMarker
  split
  · trivial
  · exact setMarkerCmd_yields judges _ _ _ _ _

end Entities
end RestApi
