import RestApi.Discipline
import RestApi.ServiceContracts

namespace RestApi.Mailings
open Pool Program Protocols RowStore Service Discipline

variable {cfg : Config}

-- A message and the row, written by this transaction, that its link is good for.
inductive Sent (cfg : Config) (raw : String) (t : Tx Row Key) : Request → Message → Prop where
  | invitation
      (stored : .registration ⟨serial,name,email,cfg.hashStr ("regt_" ++ raw),created,
        created+cfg.registrationTokenTTL,none,none⟩ ∈ t.writes) :
      Sent cfg raw t (.register ctx name email) ⟨"email.user_registration",email,name,
        cfg.completeRegistrationFormEndpoint ++ "?token=" ++ ("regt_" ++ raw),
        cfg.registrationTokenTTL⟩
  | recovery (live : .user ⟨usr,none⟩ ∈ t.seen) (same : usr.email = email)
      (stored : .recovery ⟨serial,usr.id,cfg.hashStr raw,issued,issued+cfg.passwordRecoveryTokenTTL,
        none⟩ ∈ t.writes) :
      Sent cfg raw t (.recoverPassword ctx email) ⟨"email.password_recovery",usr.email,usr.name,
        cfg.resetPasswordFormEndpoint ++ "?token=" ++ raw,cfg.passwordRecoveryTokenTTL⟩

-- Mail goes out for a token of the sender's own, after its row was committed.
def Mails (cfg : Config) (request : Request) (v : View) (c : Cmd) : Prop := match c with
  | .produce message =>
      ∃ raw t, .token raw ∈ v.events ∧ v.made = some t ∧ Sent cfg raw t request message
  | _ => True

section Contracts
variable {asked : Option Request}

theorem mails_free (cfg : Config) (request : Request) (v : View) (c : Cmd)
    (free : c.free = true) : Mails cfg request v c := by
  cases c <;> trivial

theorem invite_mails {post : View → Except Err String → Prop} (ctx : Ctx) (name email : String)
    (failed : ∀ after err, post after (.error err))
    (invited : ∀ after raw t serial created, .token raw ∈ after.events → after.made = some t →
      .registration ⟨serial,name,email,cfg.hashStr ("regt_" ++ raw),created,
      created+cfg.registrationTokenTTL,none,none⟩ ∈ t.writes → post after (.ok ("regt_" ++ raw))) :
    Meets (Local cfg) (Mails cfg (.register ctx name email)) post
      (AuthService.invite cfg ctx name email) ⟨asked,none,[],none⟩ := by
  have free := mails_free cfg (.register ctx name email)
  refine transact_meets free failed fun began since => ?_
  refine meets_bind (meets_settle (lockOne_meets (user_shape _) rfl rfl rfl (fun _ _ => trivial)
    (fun _ _ _ _ _ _ _ _ _ => trivial) ?_ ?_))
  · intro t1 looking ran clean nobody
    refine meets_bind (wrapping_meets (fun _ _ => trivial)
      (updateAll_meets rfl ran.frame.1 (by simp [clean,Schema.keys]) (fun _ _ => trivial)
      (fun _ _ => trivial) ?_))
    intro t2 revoking ran2 scanned writes
    refine meets_bind (wrapping_meets (fun _ _ => trivial)
      (newRegistrationToken_meets free (fun _ _ => trivial) trivial fun raw created => ?_))
    refine meets_bind (wrapping_meets (fun _ _ => trivial)
      (insert_meets free rfl (fun _ _ => trivial) fun serial fresh => ?_))
    refine meets_bind (recordAudit_meets free rfl (fun _ _ => trivial) fun entry unheld => ?_)
    exact ⟨trivial,invited _ raw _ serial created (by simp) rfl
      (List.mem_cons_of_mem _ List.mem_cons_self)⟩
  · exact fun after err known => by simp [Meets,known]

theorem register_mails (ctx : Ctx) (name email : String) :
    Meets (Local cfg) (Mails cfg (.register ctx name email)) (fun _ _ => True)
    (AuthService.register cfg ctx name email) ⟨asked,none,[],none⟩ := by
  have invited : Meets (Local cfg) (Mails cfg (.register ctx name email)) (fun _ _ => True)
      ((AuthService.invite cfg ctx name email).bind fun rawToken =>
        (wrapping "registration succeeded but failed to send completion email"
          (produceEvent ⟨"email.user_registration",email,name,
          cfg.completeRegistrationFormEndpoint ++ "?token=" ++ rawToken,
            cfg.registrationTokenTTL⟩)).bind fun _ => .done Value.nil)
      ⟨asked,none,[],none⟩ := by
    refine meets_bind (invite_mails ctx name email (fun _ _ => trivial)
      fun after raw t serial created minted made stored => ?_)
    refine meets_bind (wrapping_meets (fun _ _ => trivial)
      (produceEvent_meets ?_ (fun _ _ => trivial) trivial))
    exact ⟨raw,t,minted,made,.invitation stored⟩
  unfold AuthService.register
  split
  · exact meets_bind (require_meets (fun _ _ => trivial) fun _ => invited)
  · exact invited

theorem recoverPassword_mails (ctx : Ctx) (email : String) :
    Meets (Local cfg) (Mails cfg (.recoverPassword ctx email)) (fun _ _ => True)
    (AuthService.recoverPassword cfg ctx email) ⟨asked,none,[],none⟩ := by
  have free := mails_free cfg (.recoverPassword ctx email)
  refine meets_bind (tryAcquire_meets free trivial (fun _ _ => trivial) (fun acquiredAt => ?_)
    fun _ _ => trivial)
  refine meets_bind (transact_meets free (fun _ _ => trivial) fun began since => ?_)
  refine meets_bind (lockOne_meets (user_shape _) rfl rfl rfl
    (fun _ _ => trivial) ?_ (fun _ _ _ _ _ => trivial) fun _ _ _ => trivial)
  intro t1 scan usr stamp ran clean hits locked passes
  have same : usr.email = email := by simpa [liveUser] using passes
  refine meets_bind (newPasswordRecoveryToken_meets free (fun _ _ => trivial) trivial
    fun raw issued => ?_)
  refine meets_bind (insert_meets free rfl (fun _ _ => trivial) fun serial fresh => ?_)
  refine meets_bind (recordAudit_meets free rfl (fun _ _ => trivial) fun entry unheld => ?_)
  refine ⟨trivial,meets_bind (produceEvent_meets ?_ (fun _ _ => trivial) trivial)⟩
  exact ⟨raw,_,by simp,rfl,.recovery (List.mem_map_of_mem locked) same
    (List.mem_cons_of_mem _ List.mem_cons_self)⟩

-- The other requests send no mail.
theorem serve_mails (request : Request) :
    Meets (Local cfg) (Mails cfg request) (fun _ _ => True) (serve cfg request)
      ⟨asked,none,[],none⟩ := by
  cases request with
  | register ctx name email => exact register_mails ctx name email
  | recoverPassword ctx email => exact recoverPassword_mails ctx email
  | _ =>
      refine follows_meets (fun _ _ c allowed => ?_) (serve_outside _)
      cases c <;> first | trivial | exact allowed.2.elim

end Contracts

section Stages

-- Before the throttle has let a request through, after that, and after its mail.
inductive Stage where
  | asking
  | permitted
  | sent
  deriving DecidableEq, Repr

def Cmd.quiet : Cmd → Bool
  | .produce _ => false
  | .redisSetNX _ _ _ => false
  | _ => true

def posting : Protocol Cmd Reply Stage where
  allows stage
    | .produce message =>
        stage = .permitted ∨ stage = .asking ∧ message.stream = "email.user_registration"
    | .redisSetNX _ _ _ => stage = .asking
    | _ => True
  after stage
    | .produce _,_ => .sent
    | .redisSetNX _ _ _,.ok true => .permitted
    | _,_ => stage

theorem quiet_allows (quiet : Cmd.quiet c = true) (stage : Stage) : posting.allows stage c := by
  cases c <;> trivial

theorem quiet_moved {c : Cmd} (quiet : Cmd.quiet c = true) (stage : Stage)
    (reply : Option (Reply c)) : posting.moved stage c reply = stage := by
  cases reply with
  | none => rfl
  | some answer => cases c <;> first | rfl | cases quiet

-- Code that is no errand's keeps its stage.
theorem outside_posts {program : Service α} (outside : ∀ request, Outside request program)
    (stage : Stage) : Follows posting (fun after _ => after = stage) program stage := by
  have silent : Meets (Scripted posting) (fun _ c => Cmd.quiet c = true)
      (fun _ _ => True) program stage := by
    refine follows_meets (fun _ _ c allowed => ?_) (outside (.logout ⟨none,none⟩ uuidNil))
    cases c <;> first | rfl | exact allowed.2.elim
  refine meets_mono (fun _ c owed => quiet_allows owed.2 _) (fun _ _ ended => ended.1)
    (meets_stable (fun after => after = stage)
      (fun here c reply after quiet stepped still => ?_) rfl silent)
  rw [stepped,quiet_moved quiet,still]

theorem produceEvent_posts {stage : Stage} (allowed : posting.allows stage (.produce message)) :
    Follows posting (fun _ _ => True) (produceEvent message) stage :=
  follows_call allowed fun reply => by cases reply <;> trivial

theorem posts_bind {program : Service α} {next : α → Service β} {stage : Stage}
    (first : Follows posting (fun after _ => after = stage) program stage)
    (continues : ∀ value, Follows posting (fun _ _ => True) (next value) stage) :
    Follows posting (fun _ _ => True) (program.bind next) stage := by
  refine meets_bind (meets_mono (fun _ _ owed => owed) (fun after result ended => ?_) first)
  subst ended
  cases result with
  | ok value => exact continues value
  | error err => trivial

theorem register_posts (ctx : Ctx) (name email : String) :
    Follows posting (fun _ _ => True) (AuthService.register cfg ctx name email) .asking := by
  have invited : Follows posting (fun _ _ => True) ((AuthService.invite cfg ctx name email).bind
      fun rawToken => (wrapping "registration succeeded but failed to send completion email"
      (produceEvent ⟨"email.user_registration",email,name,cfg.completeRegistrationFormEndpoint ++
      "?token=" ++ rawToken,cfg.registrationTokenTTL⟩)).bind fun _ => .done Value.nil) .asking := by
    refine posts_bind (outside_posts (fun _ => invite_outside ctx name email) .asking) fun raw => ?_
    refine meets_bind (meets_settle (meets_mono (fun _ _ owed => owed) (fun _ result _ => ?_)
      (produceEvent_posts (.inr ⟨rfl,rfl⟩))))
    cases result <;> trivial
  unfold AuthService.register
  split
  · exact posts_bind (outside_posts (fun _ => (require_aloof ctx _).outside) .asking) fun _ =>
      invited
  · exact invited

theorem tryAcquire_posts (key : String) (ttl : Duration) :
    Follows posting (fun after result => match result with
    | .ok th => th.1 = true → after = .permitted
    | .error _ => True) (tryAcquire key ttl) .asking := by
  unfold tryAcquire
  split
  · trivial
  · split
    · trivial
    · refine follows_call rfl fun reply => ?_
      cases reply with
      | error _ => trivial
      | ok acquired =>
          cases acquired with
          | true => exact meets_bind (follows_call trivial fun _ => fun _ => rfl)
          | false =>
              refine meets_bind (follows_call trivial fun _ => follows_call trivial fun reply => ?_)
              cases reply with
              | error _ => trivial
              | ok _ => rintro ⟨⟩

theorem recoverPassword_posts (ctx : Ctx) (email : String) :
    Follows posting (fun _ _ => True) (AuthService.recoverPassword cfg ctx email) .asking := by
  refine meets_bind (meets_mono (fun _ _ owed => owed) (fun after result ended => ?_)
    (tryAcquire_posts _ _))
  cases result with
  | error _ => trivial
  | ok th =>
      dsimp only
      split
      · trivial
      · rename_i acquired
        rw [ended (by simpa using acquired)]
        refine posts_bind (outside_posts (fun _ => transact_outside ?_) .permitted) fun _ => ?_
        · exact inside_bind query_inside fun _ =>
            inside_bind (newPasswordRecoveryToken_aloof _).inside fun _ => inside_bind insert_inside
            fun _ => inside_bind insert_inside fun _ => trivial
        · refine meets_bind (meets_mono (fun _ _ owed => owed) (fun _ result _ => ?_)
            (produceEvent_posts (.inl rfl)))
          cases result <;> trivial

theorem serve_posts (request : Request) :
    Follows posting (fun _ _ => True) (serve cfg request) .asking := by
  cases request with
  | register ctx name email => exact register_posts ctx name email
  | recoverPassword ctx email => exact recoverPassword_posts ctx email
  | _ =>
      refine follows_meets (fun _ _ c allowed => ?_) (serve_outside _)
      cases c <;> first | trivial | exact allowed.2.elim

end Stages

section Runs
variable {w after : World} {pid : Pid}

-- The commit that a message announces.
def Announces (cfg : Config) (w : World) (entry : Entry Row Key) (raw : String)
    (message : Message) : Prop :=
  ∃ request, w.requests entry.owner = some request ∧ (entry.owner,.token raw) ∈ w.journal ∧
    Sent cfg raw entry.tx request message

-- Every message has a commit of a goroutine that is done with its mail.
def Announced (cfg : Config) (w : World) (stages : Pid → Stage) : Prop :=
  (∀ message ∈ w.outbox, ∃ entry ∈ w.db.log, ∃ raw, Announces cfg w entry raw message ∧
    stages entry.owner = .sent) ∧ w.outbox.Nodup

theorem Sent.link {t : Tx Row Key} (sent : Sent cfg raw t request message) :
    message.stream = "email.user_registration" ∧
      message.url = cfg.completeRegistrationFormEndpoint ++ "?token=" ++ ("regt_" ++ raw) ∨
      message.stream = "email.password_recovery" ∧ message.url = cfg.resetPasswordFormEndpoint ++
        "?token=" ++ raw := by
  cases sent with
  | invitation _ => exact .inl ⟨rfl,rfl⟩
  | recovery _ _ _ => exact .inr ⟨rfl,rfl⟩

-- A message gives its token away.
theorem sent_once {t t' : Tx Row Key} {one two : Request} (first : Sent cfg raw t one message)
    (second : Sent cfg raw' t' two message) : raw = raw' := by
  rcases first.link with ⟨stream,url⟩ | ⟨stream,url⟩ <;> rcases second.link with ⟨other,link⟩ |
    ⟨other,link⟩
  · exact String.append_right_inj _ |>.mp (String.append_right_inj _ |>.mp (url.symm.trans link))
  · exact absurd (stream.symm.trans other) (by decide)
  · exact absurd (stream.symm.trans other) (by decide)
  · exact String.append_right_inj _ |>.mp (url.symm.trans link)

theorem Announces.grows (announces : Announces cfg w entry raw message) (grows : Grows w after) :
    Announces cfg after entry raw message := by
  obtain ⟨request,asked,minted,sent⟩ := announces
  exact ⟨request,grows.requests _ _ asked,grows.journal minted,sent⟩

theorem announced_grows {stages changed : Pid → Stage} (announced : Announced cfg w stages)
    (grows : Grows w after) (same : after.outbox = w.outbox)
    (stay : ∀ pid, pid ∈ w.db.log.map Entry.owner → stages pid = .sent → changed pid = .sent) :
    Announced cfg after changed := by
  obtain ⟨newer,log⟩ := grows.log
  refine ⟨fun message member => ?_,same ▸ announced.2⟩
  obtain ⟨entry,there,raw,announces,done⟩ := announced.1 message (same ▸ member)
  exact ⟨entry,log ▸ List.mem_append_right _ there,raw,announces.grows grows,
    stay _ (List.mem_map_of_mem there) done⟩

-- The commit a goroutine remembers.
theorem made_entry {t : Tx Row Key} (made : w.made pid = some t) :
    ∃ entry ∈ w.db.log, entry.owner = pid ∧ entry.tx = t := by
  obtain ⟨entry,found,rfl⟩ := Option.map_eq_some_iff.mp made
  exact ⟨entry,List.mem_of_find?_eq_some found,by simpa using List.find?_some found,rfl⟩

theorem sent_stays {c : Cmd} {reply : Option (Reply c)} (allowed : posting.allows .sent c) :
    posting.moved .sent c reply = .sent := by
  cases c with
  | redisSetNX key value ttl => cases allowed
  | produce message => rcases allowed with other | ⟨other,_⟩ <;> cases other
  | _ => exact quiet_moved rfl _ _

theorem api_posts {base : List Row} (keyed : schema.Keyed base) (apart : schema.Apart base)
    (allow : Api → Act Request Choice Surroundings → Prop) :
    Guarded (api cfg) allow (boot base serial uuids started) posting (fun _ => .asking) .sent
      (Announced cfg) where
  accepts := by
    intro s stages pid request next prior _ announced accepted
    obtain ⟨valid,_⟩ := reached_contract keyed apart prior
    have grows := turns_grows (moves_turns
      (.spawn accepted : Moves (api cfg) s (.spawn pid request) _))
    obtain ⟨unasked,rfl⟩ := accept_parts accepted
    refine announced_grows announced grows rfl fun other member done => ?_
    have different : other ≠ pid := by
      rintro rfl
      obtain ⟨entry,logged,rfl⟩ := List.mem_map.mp member
      have noted := mem_own.mpr (valid.owners entry logged)
      rw [(valid.unborn _ unasked).2] at noted
      cases noted
    rwa [Function.update_of_ne different]
  executes := by
    intro s stages pid c rest choice next reply prior announced here allowed _ ran
    have done := exec_executed ran
    have grows := executed_grows done
    have stay (other : Pid) (_ : other ∈ s.shared.db.log.map Entry.owner)
        (finished : stages other = .sent) :
        Function.update stages pid (posting.moved (stages pid) c reply) other = .sent := by
      by_cases same : other = pid
      · subst same
        rw [Function.update_self,finished]
        exact sent_stays (finished ▸ allowed)
      · rwa [Function.update_of_ne same]
    rcases executed_outbox done with same | ⟨message,rfl⟩
    · exact announced_grows announced grows same stay
    · cases done with
      | unproduced => exact announced_grows announced grows rfl stay
      | produced =>
          obtain ⟨request,asked,raw,t,minted,made,sent⟩ :=
            reached_owes (fun request => serve_mails request) keyed apart prior here
          obtain ⟨entry,logged,rfl,rfl⟩ := made_entry made
          have fresh : message ∉ s.shared.outbox := by
            intro member
            obtain ⟨other,_,raw',⟨_,_,minted',sent'⟩,finished⟩ := announced.1 message member
            cases sent_once sent sent'
            obtain ⟨valid,_⟩ := reached_contract keyed apart prior
            rw [← valid.tokens _ _ raw (mem_own.mp minted) minted'] at finished
            rcases allowed with permitted | ⟨asking,_⟩
            · exact absurd (permitted.symm.trans finished) (by decide)
            · exact absurd (asking.symm.trans finished) (by decide)
          refine ⟨fun other member => ?_,List.nodup_cons.mpr ⟨fresh,announced.2⟩⟩
          rcases List.mem_cons.mp member with rfl | older
          · exact ⟨entry,logged,raw,⟨request,asked,mem_own.mp minted,sent⟩,Function.update_self ..⟩
          · obtain ⟨earlier,there,raw',announces,finished⟩ := announced.1 other older
            exact ⟨earlier,there,raw',announces.grows grows,
              stay _ (List.mem_map_of_mem there) finished⟩
  abandons := by
    intro w stages pid announced
    refine announced_grows announced (store_grows rfl rfl rfl) rfl fun other _ finished => ?_
    by_cases same : other = pid
    · subst same
      exact Function.update_self ..
    · rwa [Function.update_of_ne same]
  environs := by
    intro s stages event next announced _ ran
    have grows := turns_grows (moves_turns (.env ran : Moves (api cfg) s (.env event) _))
    refine announced_grows announced grows ?_ fun _ _ finished => finished
    rcases surroundings_parts ran with ⟨elapsed,rfl⟩ | ⟨objects,rfl⟩
    · rfl
    · rfl

end Runs

namespace Controls
open RestApi.Controls

end Controls
end RestApi.Mailings
