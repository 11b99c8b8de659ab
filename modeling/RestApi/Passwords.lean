import RestApi.History
import RestApi.Inputs
import RestApi.Replies

namespace RestApi.Passwords
open Pool Program Service Validator

-- A request whose new password came through the validation of its input.
inductive Chosen (isEmail : String → Bool) : Request → String → Prop where
  | completeRegistration (accepted : CompleteRegistrationInput.validate isEmail input = .ok passed)
      : Chosen isEmail (.completeRegistration ctx passed.token passed.password) passed.password
  | resetPassword (accepted : ResetPasswordInput.validate isEmail input = .ok passed) :
      Chosen isEmail (.resetPassword ctx passed.token passed.newPassword) passed.newPassword
  | changePassword (accepted : ChangePasswordInput.validate isEmail input = .ok passed) :
      Chosen isEmail (.changePassword ctx userID passed.password passed.newPassword)
        passed.newPassword

theorem chosen_accepted (chosen : Chosen isEmail request p) : PasswordAccepted p := by
  cases chosen with
  | completeRegistration accepted =>
      exact (passwordTags_pass isEmail "password" _).mp
        ((validate_ok accepted).2 _ (List.mem_cons_of_mem _ List.mem_cons_self))
  | resetPassword accepted =>
      exact (passwordTags_pass isEmail "new_password" _).mp
        ((validate_ok accepted).2 _ (List.mem_cons_of_mem _ List.mem_cons_self))
  | changePassword accepted =>
      exact (passwordTags_pass isEmail "new_password" _).mp
        ((validate_ok accepted).2 _ (List.mem_cons_of_mem _ List.mem_cons_self))

-- How bcrypt answers: it takes 72 bytes, and no digest is empty.
def Bcrypts : (c : Cmd) → Reply c → Prop
  | .bcrypt plain,.error _ => 72 < plain.utf8ByteSize
  | .bcrypt plain,.ok digest => digest ≠ "" ∧ plain.utf8ByteSize ≤ 72
  | _,_ => True

-- Of that what holds even if bcrypt may fail for other reasons.
def Takes : (c : Cmd) → Reply c → Prop
  | .bcrypt plain,.ok _ => plain.utf8ByteSize ≤ 72
  | _,_ => True

-- Errors that come from the new password and nothing else.
def Blames (err : Err) : Prop := err.root = .bcrypt ∨ err.root = .validation "password is required"

instance (err : Err) : Decidable (Blames err) := inferInstanceAs (Decidable (_ ∨ _))

theorem blames_judged : Judges (fun _ _ => True) Blames where
  free _ _ _ := trivial
  spares err ordinary := by
    rintro (hashing | blank)
    · rw [Err.ordinary,hashing] at ordinary
      cases ordinary
    · rw [Err.ordinary,blank] at ordinary
      cases ordinary
  through _ _ blamed := blamed

section Requests
variable {cfg : Config} {v : Option Request} {p : String}

theorem hashPassword_spared (short : p.utf8ByteSize ≤ 72) :
    Yields Bcrypts (fun _ _ => True) Blames v (· ≠ "") (hashPassword p) := by
  refine yields_mono (fun _ said => said.1)
    (hashPassword_yields blames_judged fun reply said _ => ?_)
  cases reply with
  | ok digest => exact ⟨digest,rfl⟩
  | error _ => exact absurd said (Nat.not_lt.mpr short)

theorem validate_password {u : User}
    (refused : User.validate cfg u = .error (.validation "password is required")) :
    u.password = "" := by
  unfold User.validate at refused
  split_ifs at refused with _ _ _ blank
  all_goals first | exact blank | simp at refused

-- A look-up that fails, whichever error its caller makes of it.
theorem absent_spared {good : α → Prop} {other : Err} (ordinary : other.ordinary = true) (err : Err)
    (settled : ¬Blames err) :
    Yields Bcrypts (fun _ _ => True) Blames v good
      (throw (if err.isNotFound then other else err)) := by
  split
  · exact blames_judged.spares other ordinary
  · exact settled

theorem completeRegistration_spared (short : p.utf8ByteSize ≤ 72) (ctx : Ctx) (token : String) :
    Yields Bcrypts (fun _ _ => True) Blames v (fun _ => True)
      (AuthService.completeRegistration cfg ctx token p) := by
  refine transact_yields blames_judged (yields_bind
    (yields_attempt (query_yields blames_judged rfl .tx)) fun result settled => ?_)
  cases result with
  | error err => exact absent_spared rfl err settled
  | ok regToken =>
      refine yields_then (now_yields blames_judged) fun checkedAt => ?_
      split
      · exact blames_judged.spares _ rfl
      · refine yields_bind (hashPassword_spared short) fun digest real =>
          yields_bind (newUser_yields blames_judged ?_) fun u _ =>
          yields_bind (useToken_yields blames_judged regToken) fun used _ =>
          yields_then (meets_heard trivial fun _ _ => execute_yields blames_judged _ _) fun _ =>
          yields_then (storeUser_yields blames_judged trivial) fun _ =>
          yields_then (recordAudit_yields blames_judged fun _ => trivial) fun _ => trivial
        rintro id verified detail refused (_ | blank)
        · contradiction
        · cases blank
          exact real (validate_password refused)

-- After the commit only the markers are left to write.
theorem marked_spared (userID : UUID) : Yields Bcrypts (fun _ _ => True) Blames v
  (fun _ => True) (do
    let deadline ← cleanupDeadline
    let _ ← attempt (revokeAllForUser cfg userID deadline)
    return Value.nil) :=
  yields_then (cleanupDeadline_yields blames_judged) fun deadline =>
    yields_bind (yields_attempt (revokeAllForUser_yields blames_judged userID deadline)) fun _ _ =>
      trivial

theorem resetPassword_spared (short : p.utf8ByteSize ≤ 72) (ctx : Ctx) (token : String) :
    Yields Bcrypts (fun _ _ => True) Blames v (fun _ => True)
      (AuthService.resetPassword cfg ctx token p) := by
  refine yields_then (transact_yields blames_judged
    (yields_bind (yields_attempt (query_yields blames_judged rfl .tx)) fun result settled =>
      ?_)) marked_spared
  cases result with
  | error err => exact absent_spared rfl err settled
  | ok found =>
      refine yields_then (now_yields blames_judged) fun checkedAt => ?_
      split
      · exact blames_judged.spares _ rfl
      · exact yields_bind (query_yields blames_judged rfl .tx) fun user _ =>
          yields_bind (hashPassword_spared short) fun digest _ =>
          yields_then (now_yields blames_judged) fun used =>
          yields_then (meets_heard trivial fun _ _ => execute_yields blames_judged _ _) fun _ =>
          yields_then (updateUserRow_yields blames_judged trivial) fun _ =>
          yields_then (meets_heard trivial fun _ _ => execute_yields blames_judged _ _) fun _ =>
          yields_then (recordAudit_yields blames_judged fun _ => trivial) fun _ => trivial

theorem changePassword_spared (short : p.utf8ByteSize ≤ 72) (ctx : Ctx) (userID : UUID)
    (old : String) :
    Yields Bcrypts (fun _ _ => True) Blames v (fun _ => True)
      (AuthService.changePassword cfg ctx userID old p) :=
  yields_then (requireSelfOr_yields blames_judged userID _) fun _ =>
    yields_bind (query_yields blames_judged rfl .pool) fun _ _ =>
    yields_then (verifyPassword_yields blames_judged old _) fun _ =>
    yields_bind (hashPassword_spared short) fun _ _ =>
    yields_then (transact_yields blames_judged
    (yields_then (updateUserRow_yields blames_judged trivial) fun _ => yields_then
    (meets_heard trivial fun _ _ => execute_yields blames_judged _ _) fun _ =>
    recordAudit_yields blames_judged fun _ => trivial)) fun _ => marked_spared userID

end Requests

section Refusals
variable {cfg : Config} {v : Option Request} {p : String}

theorem blameless : Judges (fun _ _ => True) fun _ => False where
  free _ _ _ := trivial
  spares _ _ := id
  through _ _ := id

-- However it ends, it is not with a value.
abbrev Refuses (v : Option Request) (program : Service α) : Prop :=
  Yields Takes (fun _ _ => True) (fun _ => False) v (fun _ => False) program

theorem hashPassword_refuses (long : 72 < p.utf8ByteSize) (v : Option Request) :
    Refuses v (hashPassword p) := by
  refine meets_heard trivial fun reply said => ?_
  cases reply with
  | ok digest => exact absurd said (Nat.not_le.mpr long)
  | error _ => exact id

theorem completeRegistration_refuses (long : 72 < p.utf8ByteSize) (ctx : Ctx) (token : String) :
    Refuses v (AuthService.completeRegistration cfg ctx token p) := by
  refine transact_yields blameless (yields_bind
    (yields_attempt (query_yields blameless rfl .tx)) fun result _ => ?_)
  cases result with
  | error err => exact id
  | ok regToken =>
      refine yields_then (now_yields blameless) fun checkedAt => ?_
      split
      · exact id
      · exact yields_bind (hashPassword_refuses long v) fun _ => False.elim

theorem resetPassword_refuses (long : 72 < p.utf8ByteSize) (ctx : Ctx) (token : String) :
    Refuses v (AuthService.resetPassword cfg ctx token p) := by
  refine yields_bind (transact_yields blameless (yields_bind
    (yields_attempt (query_yields blameless rfl .tx)) fun result _ => ?_)) fun _ => False.elim
  cases result with
  | error err => exact id
  | ok found =>
      refine yields_then (now_yields blameless) fun checkedAt => ?_
      split
      · exact id
      · exact yields_bind (query_yields blameless rfl .tx) fun user _ =>
          yields_bind (hashPassword_refuses long v) fun _ => False.elim

theorem changePassword_refuses (long : 72 < p.utf8ByteSize) (ctx : Ctx) (userID : UUID)
    (old : String) : Refuses v (AuthService.changePassword cfg ctx userID old p) :=
  yields_then (requireSelfOr_yields blameless userID _) fun _ =>
    yields_bind (query_yields blameless rfl .pool) fun _ _ =>
    yields_then (verifyPassword_yields blameless old _) fun _ =>
    yields_bind (hashPassword_refuses long v) fun _ => False.elim

end Refusals

-- bcrypt fails for no other reason than the length.
def onlyTooLong (s : Api) : Act Request Choice Surroundings → Prop
  | .step pid .fails => match s.threads pid with
      | some (.call (.bcrypt plain) _) => 72 < plain.utf8ByteSize
      | _ => True
  | _ => True

def tooLong : Option (Service Value) → Bool
  | some (.call (.bcrypt plain) _) => 72 < plain.utf8ByteSize
  | _ => true

instance (s : Api) (act : Act Request Choice Surroundings) : Decidable (onlyTooLong s act) :=
  match act with
  | .step pid .fails => decidable_of_iff (tooLong (s.threads pid) = true) (by
      unfold tooLong onlyTooLong
      split <;> split <;> simp_all)
  | .step _ .runs => .isTrue trivial
  | .step _ .lost => .isTrue trivial
  | .step _ (.violates _) => .isTrue trivial
  | .step _ (.value _) => .isTrue trivial
  | .step _ (.plan _) => .isTrue trivial
  | .step _ .next => .isTrue trivial
  | .spawn _ _ => .isTrue trivial
  | .kill _ => .isTrue trivial
  | .env _ => .isTrue trivial

section Runs
variable {cfg : Config} {isEmail : String → Bool}

theorem serve_spared (chosen : Chosen isEmail request p) (short : p.utf8ByteSize ≤ 72) :
    Yields Bcrypts (fun _ _ => True) Blames (some request) (fun _ => True)
      (serve cfg request) := by
  cases chosen with
  | completeRegistration _ => exact completeRegistration_spared short _ _
  | resetPassword _ => exact resetPassword_spared short _ _
  | changePassword _ => exact changePassword_spared short _ _ _

theorem serve_refuses (chosen : Chosen isEmail request p) (long : 72 < p.utf8ByteSize) :
    Refuses (some request) (serve cfg request) := by
  cases chosen with
  | completeRegistration _ => exact completeRegistration_refuses long _ _
  | resetPassword _ => exact resetPassword_refuses long _ _
  | changePassword _ => exact changePassword_refuses long _ _ _

-- How a request ends whose new password is of this kind.
def Judged (isEmail : String → Bool) (kind : String → Prop) (fault : Err → Prop)
    (good : Value → Prop) (v : Option Request) (result : Except Err Value) : Prop :=
  ∀ request p, v = some request → Chosen isEmail request p → kind p → Settled fault good result

theorem serve_judged {told : (c : Cmd) → Reply c → Prop} {kind : String → Prop}
    {fault : Err → Prop} {good : Value → Prop}
    (ends : ∀ request p, Chosen isEmail request p → kind p →
      Yields told (fun _ _ => True) fault (some request) good (serve cfg request))
    (request : Request) :
    Meets (Heard told) (fun _ _ => True) (Judged isEmail kind fault good) (serve cfg request)
      (some request) := by
  by_cases judged : ∃ p, Chosen isEmail request p ∧ kind p
  · obtain ⟨p,chosen,fits⟩ := judged
    exact meets_mono (fun _ _ owed => owed) (fun _ _ settled _ _ _ _ _ => settled)
      (ends request p chosen fits)
  · refine meets_always (fun _ => trivial) (fun result => ?_) _
    rintro _ p same chosen fits
    cases same
    exact absurd ⟨p,chosen,fits⟩ judged

theorem takes_heard {w : World} {c : Cmd} {answer : Reply c}
    (ran : exec cfg w pid c choice = some (after,some answer)) : Takes c answer := by
  cases c with
  | bcrypt plain =>
      cases choice <;> simp only [exec,reduceCtorEq,Option.ite_none_right_eq_some,Option.some.injEq,
        Prod.mk.injEq] at ran
      · obtain ⟨_,rfl⟩ := ran
        trivial
      · obtain ⟨⟨short,_⟩,_,rfl⟩ := ran
        exact short
  | _ => trivial

theorem bcrypts_heard (blank : ∀ plain, cfg.compareHashAndPassword "" plain = false) {s : Api}
    {c : Cmd} {answer : Reply c} {next : Reply c → Service Value}
    (here : s.threads pid = some (.call c next)) (allowed : onlyTooLong s (.step pid choice))
    (ran : exec cfg s.shared pid c choice = some (after,some answer)) : Bcrypts c answer := by
  cases c with
  | bcrypt plain =>
      cases choice <;> simp only [exec,reduceCtorEq,Option.ite_none_right_eq_some,Option.some.injEq,
        Prod.mk.injEq] at ran
      · obtain ⟨rfl,rfl⟩ := ran
        simp only [onlyTooLong,here] at allowed
        exact allowed
      · obtain ⟨⟨short,verifies⟩,rfl,rfl⟩ := ran
        refine ⟨?_,short⟩
        rintro rfl
        rw [blank] at verifies
        cases verifies
  | _ => trivial

-- HashPassword takes what fits into bcrypt.
theorem hashPassword_takes (v : Option Request) :
    Yields Bcrypts (fun _ _ => True) (fun _ => True) v (· ≠ "") (hashPassword p) ↔
      p.utf8ByteSize ≤ 72 := by
  constructor
  · intro taken
    by_contra long
    have heard : Heard Bcrypts v (.bcrypt p) (some (.error ())) v :=
      ⟨rfl,by rintro _ ⟨⟩; exact Nat.not_le.mp long⟩
    have settled : ¬True := meets_reply taken heard
    exact settled trivial
  · refine fun short => meets_heard trivial fun reply said => ?_
    cases reply with
    | ok digest => exact said.1
    | error _ => exact absurd said (Nat.not_lt.mpr short)

-- A validated password is stored exactly when it fits into bcrypt: then HashPassword
-- takes it and none of the three requests fails because of it in any run. Otherwise
-- HashPassword never returns a digest, and the request never succeeds.
theorem validated_password_stored (blank : ∀ plain, cfg.compareHashAndPassword "" plain = false)
    (chosen : Chosen isEmail request p) :
    (((∀ v, Yields Bcrypts (fun _ _ => True) (fun _ => True) v (· ≠ "") (hashPassword p)) ∧
      ∀ base serial uuids now s pid err, Reached (api cfg) onlyTooLong
        (boot base serial uuids now) s →
        s.shared.requests pid = some request → s.threads pid = some (.fail err) → ¬Blames err) ↔
          p.utf8ByteSize ≤ 72) ∧
    (72 < p.utf8ByteSize → (∀ v, Refuses v (hashPassword p)) ∧
      ∀ allow base serial uuids now s pid value, Reached (api cfg) allow
        (boot base serial uuids now) s →
        s.shared.requests pid = some request → s.threads pid ≠ some (.done value)) := by
  refine ⟨⟨fun stored => (hashPassword_takes none).mp (stored.1 none),
    fun short => ⟨fun v => (hashPassword_takes v).mpr short,?_⟩⟩,
    fun long => ⟨fun v => hashPassword_refuses long v,?_⟩⟩
  · intro base serial uuids now s pid err path asked failed
    have sound : Sound (api cfg) onlyTooLong (fun _ => True) World.requests (Heard Bcrypts)
        (fun _ _ => True) (Judged isEmail (·.utf8ByteSize ≤ 72) Blames fun _ => True) :=
      heard_sound (serve_judged fun _ _ => serve_spared) (fun _ _ => trivial)
        (fun _ here _ allowed ran =>
          ⟨trivial,fun answer same => bcrypts_heard blank here allowed (same ▸ ran)⟩)
        (fun _ _ => trivial) (fun _ _ => trivial)
    have kept := reached_kept sound trivial (fun _ => rfl) path
    exact kept.2 pid _ failed request p asked chosen short
  · intro allow base serial uuids now s pid value path asked ended
    have sound : Sound (api cfg) allow (fun _ => True) World.requests (Heard Takes)
        (fun _ _ => True) (Judged isEmail (72 < ·.utf8ByteSize) (fun _ => False)
          fun _ => False) :=
      heard_sound (serve_judged fun _ _ => serve_refuses) (fun _ _ => trivial)
        (fun _ _ _ _ ran => ⟨trivial,fun answer same => takes_heard (same ▸ ran)⟩)
        (fun _ _ => trivial) (fun _ _ => trivial)
    have kept := reached_kept sound trivial (fun _ => rfl) path
    exact kept.2 pid _ ended request p asked chosen long

-- Every validated password of one-byte characters fits.
theorem ascii_fits (chosen : Chosen isEmail request p)
    (ascii : ∀ c ∈ p.toList, c.utf8Size = 1) : p.utf8ByteSize ≤ 72 := by
  have bytes (text : List Char) (single : ∀ c ∈ text, c.utf8Size = 1) :
      (String.ofList text).utf8ByteSize = text.length := by
    induction text with
    | nil => rfl
    | cons c rest ih =>
        obtain ⟨here,there⟩ := List.forall_mem_cons.mp single
        rw [String.ofList_cons,String.utf8ByteSize_append,String.utf8ByteSize_singleton,ih there,
          here,List.length_cons,Nat.add_comm]
  have count := bytes p.toList ascii
  rw [String.ofList_toList] at count
  exact count ▸ (chosen_accepted chosen).2

end Runs

namespace Controls
open RestApi.Controls

def chosen (password : String) : Request := .completeRegistration ⟨none,none⟩ "regt_t0" password

theorem validated_password_stored_eight : Chosen (fun _ => true) (chosen "password") "password" ∧
    ∀ base serial uuids now s pid err, Reached (api config) onlyTooLong
      (boot base serial uuids now) s →
      s.shared.requests pid = some (chosen "password") → s.threads pid = some (.fail err) →
        ¬Blames err := by
  have accepted : CompleteRegistrationInput.validate (fun _ => true) ⟨"regt_t0","password"⟩ = .ok
      ⟨"regt_t0","password"⟩ := by
    decide +kernel
  have picked : Chosen (fun _ => true) (chosen "password") "password" :=
    .completeRegistration accepted
  exact ⟨picked,((validated_password_stored (by simp [config]) picked).1.mpr (by decide +kernel)).2⟩

-- Forty letters with an accent, eighty bytes.
def accented : String := String.ofList (List.replicate 40 'é')

def refused : List (Act Request Choice Surroundings) :=
  [.spawn 0 (chosen accented),.step 0 .runs,.step 0 (.plan [.registration 0]),.step 0 .next,
    .step 0 .runs,.step 0 .runs,.step 0 .fails,.step 0 .runs]

def failure (s : Api) (pid : Pid) : Option Err := match s.threads pid with
  | some (.fail err) => some err
  | _ => none

theorem failure_thread {s : Api} (failed : failure s pid = some err) :
    s.threads pid = some (.fail err) := by
  unfold failure at failed
  split at failed
  · cases failed
    assumption
  · cases failed

theorem accented_password_refused : Chosen (fun _ => true) (chosen accented) accented ∧
    ∃ s, Reached (api config) onlyTooLong (boot [.registration invitation] 1 [] (1000*second)) s ∧
      s.shared.requests 0 = some (chosen accented) ∧ ∃ err, s.threads 0 = some (.fail err) ∧
        Blames err := by
  have accepted : CompleteRegistrationInput.validate (fun _ => true) ⟨"regt_t0",accented⟩ = .ok
      ⟨"regt_t0",accented⟩ := by
    decide +kernel
  refine ⟨.completeRegistration accepted,?_⟩
  obtain ⟨s,path,asked,failed⟩ :=
    run_finds (api config) onlyTooLong (boot [.registration invitation] 1 [] (1000*second)) refused
    (fun s => s.shared.requests 0 = some (chosen accented) ∧ failure s 0 = some .bcrypt)
    (by decide +kernel)
  exact ⟨s,path,asked,.bcrypt,failure_thread failed,.inl rfl⟩

end Controls
end RestApi.Passwords
