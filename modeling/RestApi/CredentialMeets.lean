import RestApi.AuthMeets

namespace RestApi
open Pool Program RowStore Service

variable {cfg : Config} {asked : Option Request}

section Registration

theorem produceEvent_meets {duty : View → Cmd → Prop} {post : View → Except Err Unit → Prop}
    {v : View} (owed : duty v (.produce message)) (failed : ∀ after err, post after (.error err))
    (sent : post v (.ok ())) : Meets (Local cfg) duty post (produceEvent message) v := by
  refine meets_call (fun _ _ stepped => nomatch stepped) owed fun reply _ stepped => ?_
  cases stepped
  cases reply with
  | ok _ => exact sent
  | error _ => exact failed _ _

theorem invite_meets {post : View → Except Err String → Prop} (ctx : Ctx) (name email : String)
    (permitted : cfg.internalMode = true → require cfg ctx .registerUser = .done ())
    (failed : ∀ after err, post after (.error err))
    (invited : ∀ after raw, .committed ∈ after.events → post after (.ok raw)) :
    Meets (Local cfg) (Owed cfg (.register ctx name email)) post
      (AuthService.invite cfg ctx name email) ⟨asked,none,[],none⟩ := by
  have free : ∀ v c, c.free = true → Owed cfg (.register ctx name email) v c :=
    fun _ _ => owed_free nofun
  refine transact_meets free failed fun began since => ?_
  refine meets_bind (meets_settle (lockOne_meets
    (user_shape _) rfl rfl rfl ?_ (fun _ _ _ _ _ _ _ _ _ => trivial) ?_ ?_))
  · exact fun next sofar => ⟨trivial,fun t same => fun _ _ _ _ _ _ => trivial⟩
  · intro t1 looking ran clean nobody
    refine meets_bind (wrapping_meets (fun _ _ => trivial)
      (updateAll_meets rfl ran.frame.1 (by simp [clean,Schema.keys]) ?_ (fun _ _ => trivial) ?_))
    · exact fun next sofar => ⟨trivial,fun t same => fun _ _ _ _ _ _ => trivial⟩
    intro t2 revoking ran2 scanned writes
    refine meets_bind (wrapping_meets (fun _ _ => trivial)
      (newRegistrationToken_meets free (fun _ _ => trivial) ⟨trivial,by simp⟩ fun raw created =>
      ?_))
    refine meets_bind (wrapping_meets (fun _ _ => trivial)
      (insert_meets free rfl (fun _ _ => trivial) fun serial fresh => ?_))
    refine meets_bind (recordAudit_meets free rfl (fun _ _ => trivial) fun entry unheld => ?_)
    refine ⟨⟨trivial,by simp,by simp,_,rfl,?_⟩,invited _ _ (by simp)⟩
    have looked := (ran.scanned (by simp [Tx.empty,Schema.keys])).later ran2.frame.2.2.2
      (by rw [ran2.frame.2.2.1]; exact List.subset_cons_self _ _)
    have superseded : t2.writes = revoking.hits.map (supersede t2.began) := by
      rw [writes,clean,List.append_nil,ran2.frame.2.1]
    exact .register permitted (looked.later (List.Subset.refl _) (List.Subset.refl _)) nobody
      (scanned.later (List.Subset.refl _) (List.Subset.refl _))
        (show Event.token raw ∈ _ by simp) fresh unheld
      (congrArg (fun older => _ :: _ :: older) superseded)
  · exact fun after err known => by simp [Meets,known]

theorem register_meets (ctx : Ctx) (name email : String) :
    Meets (Local cfg) (Owed cfg (.register ctx name email))
    (Ends cfg (.register ctx name email)) (AuthService.register cfg ctx name email)
      ⟨asked,none,[],none⟩ := by
  have free : ∀ v c, c.free = true → Owed cfg (.register ctx name email) v c :=
    fun _ _ => owed_free nofun
  unfold AuthService.register
  dsimp only
  split
  · refine meets_bind (require_meets (fun _ _ => trivial) fun permitted => ?_)
    refine meets_bind (invite_meets ctx name email (fun _ => permitted) (fun _ _ => trivial)
      fun after raw committed => ?_)
    exact meets_bind (wrapping_meets (fun _ _ => trivial)
      (produceEvent_meets ⟨trivial,committed⟩ (fun _ _ => trivial) committed))
  · rename_i open'
    refine meets_bind (invite_meets ctx name email (fun closed => absurd closed open')
      (fun _ _ => trivial) fun after raw committed => ?_)
    exact meets_bind (wrapping_meets (fun _ _ => trivial)
      (produceEvent_meets ⟨trivial,committed⟩ (fun _ _ => trivial) committed))

theorem registrationWithID_key (passes : registrationWithID tokenID row = true) :
    row.key = .registration tokenID := by
  cases row <;> simp_all [registrationWithID,Row.key]

theorem completeRegistration_meets (ctx : Ctx) (text password : String) :
    Meets (Local cfg) (Owed cfg (.completeRegistration ctx text password))
      (Ends cfg (.completeRegistration ctx text password))
      (AuthService.completeRegistration cfg ctx text password) ⟨asked,none,[],none⟩ := by
  have free : ∀ v c, c.free = true → Owed cfg (.completeRegistration ctx text password) v c :=
    fun _ _ => owed_free nofun
  refine transact_meets free (fun _ _ => trivial) fun began since => ?_
  refine meets_bind (meets_settle (lockOne_meets
    (registration_shape _) rfl rfl rfl ?_ ?_ (fun _ _ _ _ _ => trivial) fun _ _ _ => trivial))
  · exact fun next sofar => ⟨trivial,fun t same => fun _ _ _ _ _ _ => trivial⟩
  intro t1 scan token stamp ran clean hits locked passes
  have same : token.tokenHash = cfg.hashStr text := by simpa [registrationWithHash] using passes
  refine meets_bind (now_meets free fun checkedAt latest => ?_)
  have early : stamp ≤ checkedAt := (latest.2 t1 rfl).2 _ locked
  dsimp only
  split
  · trivial
  rename_i checked
  have valid : token.isValid checkedAt = true := by simpa using checked
  refine meets_bind (hashPassword_meets free (fun _ _ => trivial) fun digest _ verifies => ?_)
  refine meets_bind (newUser_meets free (fun _ _ => trivial) ⟨trivial,by simp⟩
    fun drawn verified => ?_)
  refine meets_bind (useToken_meets free (fun _ _ => trivial) fun again used => ?_)
  refine meets_bind (updateSeen_meets rfl ran.frame.1 (List.mem_map_of_mem locked)
    (by simp [clean,Schema.keys]) (by simp [registrationWithID])
    (fun _ found => registrationWithID_key found) ?_ (fun _ _ => trivial) ?_)
  · exact fun next sofar => ⟨trivial,fun t same => fun _ _ _ _ _ _ => trivial⟩
  intro t2 scan2 ran2 writes
  refine meets_bind (insert_meets free rfl ?_ fun _ fresh => ?_)
  · intro after err
    split <;> trivial
  refine meets_bind (recordAudit_meets free rfl (fun _ _ => trivial) fun entry unheld => ?_)
  refine ⟨⟨trivial,by simp,by simp,_,rfl,?_⟩,List.mem_cons_self⟩
  exact .completeRegistration ⟨show Event.clock checkedAt ∈ _ by simp,stamp,ran2.frame.2.2.2 locked,
    early⟩ same valid (show Event.uuid drawn ∈ _ by simp) verifies rfl fresh unheld
    (congrArg (fun older => _ :: _ :: older) (by rw [writes,clean]; rfl))

end Registration

section Passwords

theorem tryAcquire_meets {duty : View → Cmd → Prop} {post : View → Except Err (Bool × Time) → Prop}
    {v : View} (free : ∀ v c, c.free = true → duty v c)
    (owed : duty v (.redisSetNX ("throttle:" ++ key) "L" ttl))
    (failed : ∀ after err, post after (.error err))
    (acquired : ∀ time, post (v.note (.clock time)) (.ok (true,time+ttl)))
    (throttled : ∀ after time, post after (.ok (false,time))) :
    Meets (Local cfg) duty post (tryAcquire key ttl) v := by
  unfold tryAcquire
  split
  · exact failed _ _
  · split
    · exact failed _ _
    · refine meets_call (fun _ _ stepped => nomatch stepped) owed fun reply _ stepped => ?_
      cases stepped
      cases reply with
      | error _ => exact failed _ _
      | ok first =>
          refine meets_bind (now_meets free fun time _ => ?_)
          cases first with
          | true => exact acquired time
          | false =>
              refine meets_call (fun _ _ stepped => nomatch stepped) (free _ _ rfl)
                fun reply _ stepped => ?_
              cases reply with
              | error _ => exact failed _ _
              | ok retryAfter => exact throttled _ _

theorem recoverPassword_meets (ctx : Ctx) (email : String) :
    Meets (Local cfg) (Owed cfg (.recoverPassword ctx email))
    (Ends cfg (.recoverPassword ctx email)) (AuthService.recoverPassword cfg ctx email)
      ⟨asked,none,[],none⟩ := by
  have free : ∀ v c, c.free = true → Owed cfg (.recoverPassword ctx email) v c :=
    fun _ _ => owed_free nofun
  refine meets_bind (tryAcquire_meets free ⟨trivial,email,rfl⟩ (fun _ _ => trivial)
    (fun acquiredAt => ?_) fun _ _ => trivial)
  refine meets_bind (transact_meets free (fun _ _ => trivial) fun began since => ?_)
  refine meets_bind (lockOne_meets (user_shape _) rfl rfl rfl ?_ ?_ (fun _ _ _ _ _ => trivial)
    fun _ _ _ => trivial)
  · exact fun next sofar => ⟨trivial,fun t same => fun _ _ _ _ _ _ => trivial⟩
  intro t1 scan usr stamp ran clean hits locked passes
  have same : usr.email = email := by simpa [liveUser] using passes
  refine meets_bind (newPasswordRecoveryToken_meets free (fun _ _ => trivial) ⟨trivial,by simp⟩
    fun raw issued => ?_)
  refine meets_bind (insert_meets free rfl (fun _ _ => trivial) fun serial fresh => ?_)
  refine meets_bind (recordAudit_meets free rfl (fun _ _ => trivial) fun entry unheld => ?_)
  refine ⟨⟨trivial,by simp,by simp,_,rfl,?_⟩,?_⟩
  · exact .recoverPassword (List.mem_map_of_mem locked) same
      (show Event.token raw ∈ _ by simp) fresh unheld
      (congrArg (fun older => _ :: _ :: older) clean)
  · exact meets_bind (produceEvent_meets ⟨trivial,List.mem_cons_self⟩
      (fun _ _ => trivial) List.mem_cons_self)

theorem userWithID_key (passes : userWithID userID row = true) : row.key = .user userID := by
  cases row <;> simp_all [userWithID,Row.key]

theorem recoveryWithID_key (passes : recoveryWithID tokenID row = true) :
    row.key = .recovery tokenID := by
  cases row <;> simp_all [recoveryWithID,Row.key]

theorem recoveryWithHash_level (passes : recoveryWithHash digest row = true) :
    row.key.level = 0 := by
  cases row <;> first | rfl | cases passes

theorem changePassword_meets (ctx : Ctx) (userID : UUID) (password newPassword : String) :
    Meets (Local cfg) (Owed cfg (.changePassword ctx userID password newPassword))
      (Ends cfg (.changePassword ctx userID password newPassword))
      (AuthService.changePassword cfg ctx userID password newPassword) ⟨asked,none,[],none⟩ := by
  have free : ∀ v c, c.free = true → Owed cfg
    (.changePassword ctx userID password newPassword) v c := fun _ _ => owed_free (by rintro _ ⟨⟩)
  refine meets_bind (requireSelfOr_meets (fun _ => trivial) fun permitted => ?_)
  refine meets_bind (selectOne_meets free ?_ (fun _ => trivial) fun _ _ _ => trivial)
  intro position row usr passes picked
  cases user_shape _ row usr passes picked
  have same : usr.id = userID := by simpa [liveUser] using passes
  refine meets_bind (verifyPassword_meets (fun verified => ?_) fun _ _ => trivial)
  refine meets_bind (hashPassword_meets free (fun _ _ => trivial) fun digest short verifies => ?_)
  refine meets_bind (transact_meets free (fun _ _ => trivial) fun began since => ?_)
  refine meets_bind (updateAll_meets rfl rfl (by simp [Tx.empty,Schema.keys]) ?_ ?_ ?_)
  · refine fun next sofar => ⟨trivial,fun t equal => ?_⟩
    cases equal
    refine orderly_first rfl rfl (fun _ found => userWithID_key found)
      (fun nothing lock member => ?_) sofar
    rw [nothing] at member; cases member
  · intro after err
    split <;> trivial
  intro t1 scan ran scanned writes
  have single := ran.single fun _ found => userWithID_key found
  rcases hits : scan.hits with _ | ⟨old,_ | ⟨_,_⟩⟩
  · trivial
  · obtain ⟨found,seen⟩ := scanned.hits old (by rw [hits]; exact List.mem_cons_self)
    cases old with
    | user old =>
      have target : old.user.id = userID := by simpa [userWithID,same] using found
      refine meets_bind (revokeUserSessionRows_meets rfl ran.frame.1 ?_ ?_ (fun _ _ => trivial) ?_)
      · rw [writes,hits]
        simp [rewriteUser,Row.key,Key.level,Tx.empty]
      · refine fun next sofar => ⟨trivial,fun t equal => ?_⟩
        cases equal
        refine sessions_climb ran.frame.1 ?_ sofar fun k level climbs => climbs
        exact ran.locks (fun k => k.level < 2) (by simp [Tx.empty]) fun _ found => by
          rw [show schema.key _ = _ from userWithID_key found]; exact Nat.one_lt_two
      intro t2 revoking ran2 scanned2 writes2
      refine recordAudit_meets free rfl (fun _ _ => trivial) fun entry unheld =>
        ⟨⟨trivial,by simp,by simp,_,rfl,?_⟩,?_⟩
      · refine .changePassword permitted
          (show Event.selected position [.user ⟨usr,none⟩] ∈ _ by simp) same verified short verifies
          (ran2.seen seen) target (scanned2.later (List.Subset.refl _) (List.Subset.refl _))
          (by rw [ran2.frame.2.2.1]; rfl) unheld (congrArg (List.cons _) ?_)
        rw [writes2,writes,hits,ran2.frame.2.1,ran.frame.2.1]
        rfl
      · refine meets_bind (meets_bind (now_meets free fun created _ => ?_))
        exact meets_bind (meets_settle (watermark_meets free (by simp) (by simp)
          (fun _ _ _ _ committed watermark => ⟨trivial,rfl,committed,watermark⟩)
            fun _ _ committed _ => committed))
    | _ => cases found
  · rw [hits] at single; simp at single

theorem resetPassword_meets (ctx : Ctx) (text password : String) :
    Meets (Local cfg) (Owed cfg (.resetPassword ctx text password))
      (Ends cfg (.resetPassword ctx text password))
      (AuthService.resetPassword cfg ctx text password) ⟨asked,none,[],none⟩ := by
  have free : ∀ v c, c.free = true → Owed cfg (.resetPassword ctx text password) v c :=
    fun _ _ => owed_free nofun
  refine meets_bind (transact_meets free (fun _ _ => trivial) fun began since => ?_)
  refine meets_bind (meets_settle (lockOne_meets
    (recovery_shape _) rfl rfl rfl ?_ ?_ (fun _ _ _ _ _ => trivial) fun _ _ _ => trivial))
  · refine fun next sofar => ⟨trivial,fun t same => ?_⟩
    cases same
    refine orderly_progress rfl sofar fun row passes _ _ added lock member => ?_
    rcases added lock member with old | ⟨here,found,also,keyed⟩
    · cases old
    · exact .inr ⟨by rw [← keyed,recoveryWithHash_level also,recoveryWithHash_level passes],here⟩
  intro t1 scan token stamp ran clean hits locked passes
  have same : token.tokenHash = cfg.hashStr text := by simpa [recoveryWithHash] using passes
  have looked : Scanned schema (recoveryWithHash (cfg.hashStr text)) t1 scan :=
    ran.scanned (by simp [Tx.empty,Schema.keys])
  have bottom : ∀ lock ∈ t1.locked, lock.1.key.level = 0 :=
    ran.locks (fun k => k.level = 0) (by simp [Tx.empty]) fun _ found =>
      recoveryWithHash_level found
  refine meets_bind (now_meets free fun checkedAt latest => ?_)
  have early : stamp ≤ checkedAt := (latest.2 t1 rfl).2 _ locked
  dsimp only
  split
  · trivial
  rename_i usable
  simp only [Bool.or_eq_true,not_or,Bool.not_eq_true,PasswordRecoveryToken.isUsed,
    Option.isSome_eq_false_iff,Option.isNone_iff_eq_none] at usable
  refine meets_bind (lockOne_meets (user_shape _) rfl ran.frame.1 clean ?_ ?_ (fun _ _ _ _ _ =>
    trivial) fun _ _ _ => trivial)
  · refine fun next sofar => ⟨trivial,fun t same => ?_⟩
    cases same
    refine orderly_progress ran.frame.1 sofar fun row passes unheld _ added lock member => ?_
    rw [userByID_key passes] at unheld ⊢
    rcases added lock member with old | ⟨_,found,also,keyed⟩
    · exact .inl (by rw [bottom lock old]; exact Nat.zero_lt_one)
    · exact absurd (holds_seen.mpr ⟨_,List.mem_map_of_mem member,
        keyed.symm.trans (userByID_key also)⟩) unheld
  intro t2 scan2 usr stamp2 ran2 clean2 hits2 locked2 passes2
  have owner : usr.id = token.userID := by simpa [liveUser] using passes2
  refine meets_bind (hashPassword_meets free (fun _ _ => trivial) fun digest short verifies => ?_)
  refine meets_bind (now_meets free fun used _ => ?_)
  have still := ran2.frame.2.2.2 locked
  refine meets_bind (updateSeen_meets rfl ran2.frame.1 (List.mem_map_of_mem still)
    (by simp [clean2,Schema.keys]) (by simp [recoveryWithID])
    (fun _ found => recoveryWithID_key found) ?_ (fun _ _ => trivial) ?_)
  · refine fun next sofar => ⟨trivial,fun t same => ?_⟩
    cases same
    exact orderly_held ran2.frame.1 (holds_seen.mpr ⟨_,List.mem_map_of_mem still,rfl⟩)
      (fun _ found => recoveryWithID_key found) sofar
  intro t3 scan3 ran3 writes3
  have held := ran3.seen (List.mem_map_of_mem locked2)
  refine meets_bind (updateSeen_meets rfl ran3.frame.1 held
    (by simp [writes3,clean2,Schema.keys,schema,useRecovery,Row.key]) (by simp [userWithID])
    (fun _ found => userWithID_key found) ?_ ?_ ?_)
  · refine fun next sofar => ⟨trivial,fun t same => ?_⟩
    cases same
    exact orderly_held ran3.frame.1 (holds_seen.mpr ⟨_,held,rfl⟩)
      (fun _ found => userWithID_key found) sofar
  · intro after err
    split <;> trivial
  intro t4 scan4 ran4 writes4
  refine meets_bind (revokeUserSessionRows_meets rfl ran4.frame.1 ?_ ?_ (fun _ _ => trivial) ?_)
  · rw [writes4,writes3,clean2]
    simp [rewriteUser,useRecovery,Row.key,Key.level]
  · refine fun next sofar => ⟨trivial,fun t same => ?_⟩
    cases same
    have below2 := ran2.locks (fun k => k.level < 2) (fun lock member => by
      rw [show (schema.key lock.1).level = 0 from bottom lock member]; exact Nat.zero_lt_two)
      fun _ found => by rw [show schema.key _ = _ from userByID_key found]; exact Nat.one_lt_two
    have below3 := ran3.locks (fun k => k.level < 2) below2 fun _ found => by
      rw [show schema.key _ = _ from recoveryWithID_key found]; exact Nat.zero_lt_two
    have below4 := ran4.locks (fun k => k.level < 2) below3 fun _ found => by
      rw [show schema.key _ = _ from userWithID_key found]; exact Nat.one_lt_two
    exact sessions_climb ran4.frame.1 below4 sofar fun k level climbs => climbs
  intro t5 revoking ran5 scanned writes5
  refine meets_bind (recordAudit_meets free rfl (fun _ _ => trivial) fun entry unheld => ?_)
  refine ⟨⟨trivial,by simp,by simp,_,rfl,?_⟩,?_⟩
  · have looked5 : Scanned schema (recoveryWithHash (cfg.hashStr text)) t5 scan := by
      refine looked.later (fun _ member => ?_) fun _ member => ?_
      · exact ran5.frame.2.2.2 (ran4.frame.2.2.2 (ran3.frame.2.2.2 (ran2.frame.2.2.2 member)))
      · rw [ran5.frame.2.2.1,ran4.frame.2.2.1,ran3.frame.2.2.1,ran2.frame.2.2.1]
        simp [member]
    refine .resetPassword (looked5.later (List.Subset.refl _) (List.Subset.refl _)) hits
      ⟨show Event.clock checkedAt ∈ _ by simp,stamp,?_,early⟩ same usable.1 usable.2
      (ran5.seen (ran4.seen held)) owner short verifies (show Event.clock used ∈ _ by simp)
      (scanned.later (List.Subset.refl _) (List.Subset.refl _))
        (by rw [ran5.frame.2.2.1]; rfl) unheld (congrArg (List.cons _) ?_)
    · exact ran5.frame.2.2.2 (ran4.frame.2.2.2 (ran3.frame.2.2.2 still))
    · rw [writes5,writes4,writes3,clean2,ran5.frame.2.1,ran4.frame.2.1]
      rfl
  · refine meets_bind (meets_bind (now_meets free fun created _ => ?_))
    exact meets_bind (meets_settle (watermark_meets free (by simp) (by simp)
      (fun _ _ _ _ committed watermark => ⟨trivial,rfl,committed,_,watermark⟩)
        fun _ _ committed _ => committed))

end Passwords
end RestApi
