import RestApi.CredentialMeets

namespace RestApi
open Pool Program RowStore Service

variable {cfg : Config} {asked : Option Request}

section Users

-- A user row locked by id is the first lock of these transactions.
theorem user_first {next : Tx Row Key} {change : Option (Row → Row)}
    (climbs : next.locked = [] → Climbs request next (.user userID))
    (sofar : Progress schema (liveUser fun u => u.id = userID) change (.empty began since) next) :
    Orderly request next :=
  orderly_first rfl rfl (fun _ found => userByID_key found) climbs sofar

-- userRepository.Update of the row a transaction has locked.
theorem updateUserRow_meets {duty : View → Cmd → Prop} {post : View → Except Err User → Prop}
    {v : View} {t : Tx Row Key} {prev usr : User} (running : v.tx = some t) (idle : t.scan = none)
    (clean : t.writes = []) (live : .user ⟨prev,none⟩ ∈ t.seen) (same : usr.id = prev.id)
    (owed : ∀ next, Orderly request next →
      duty (v.within next) (.update (userWithID usr.id) (rewriteUser usr)))
    (failed : ∀ after err, post after (.error err))
    (stored : ∀ after, t.locked ⊆ after.locked →
      after.writes = [rewriteUser usr after.began (.user ⟨prev,none⟩)] →
      post (v.within after) (.ok {usr with updatedAt := after.began})) :
    Meets (Local cfg) duty post (updateUserRow usr) v := by
  refine updateSeen_meets running idle live (by simp [clean,Schema.keys])
    (by simp [userWithID,same]) (fun _ found => (userWithID_key found).trans
    (by rw [same]; rfl)) ?_ ?_ ?_
  · exact fun next sofar => owed next (orderly_held idle (holds_seen.mpr ⟨_,live,rfl⟩)
      (fun _ found => (userWithID_key found).trans (by rw [same]; rfl)) sofar)
  · intro after err
    split <;> first | contradiction | exact failed _ _
  · intro after scan ran writes
    have done := stored after ran.frame.2.2.2 (by rw [writes,clean,ran.frame.2.1])
    rw [ran.frame.2.1] at done
    exact done

theorem updateUser_meets (ctx : Ctx) (userID : UUID) (name phone gender : String) :
    Meets (Local cfg) (Owed cfg (.updateUser ctx userID name phone gender))
      (Ends cfg (.updateUser ctx userID name phone gender))
      (UserService.updateUser cfg ctx userID name phone gender) ⟨asked,none,[],none⟩ := by
  have free : ∀ v c, c.free = true → Owed cfg (.updateUser ctx userID name phone gender) v c :=
    fun _ _ => owed_free nofun
  refine meets_bind (requireSelfOr_meets (fun _ => trivial) fun permitted => ?_)
  refine transact_meets free (fun _ _ => trivial) fun began since => ?_
  refine meets_bind (lockOne_meets (user_shape _) rfl rfl rfl ?_ ?_ (fun _ _ _ _ _ => trivial)
    fun _ _ _ => trivial)
  · exact fun next sofar => ⟨trivial,fun t equal =>
      by cases equal; exact user_first (fun nothing => nothing) sofar⟩
  intro t1 scan prev stamp ran clean hits locked passes
  have same : prev.id = userID := by simpa [liveUser] using passes
  refine meets_bind (checked_meets (fun _ _ => trivial) fun valid => ?_)
  refine meets_bind (updateUserRow_meets rfl ran.frame.1 clean (List.mem_map_of_mem locked) rfl
    (fun next orderly => ⟨trivial,fun t equal => by cases equal; exact orderly⟩)
      (fun _ _ => trivial) fun t2 still writes => ?_)
  refine meets_bind (recordAudit_meets free rfl (fun _ _ => trivial) fun entry unheld => ?_)
  refine ⟨⟨trivial,by simp,by simp,_,rfl,?_⟩,List.mem_cons_self⟩
  exact .updateUser permitted (List.mem_map_of_mem (still locked)) same rfl valid unheld
    (congrArg (List.cons _) writes)

-- What a transaction does before its end leaves no trace but readings.
def Event.plain : Event → Bool
  | .clock _ => true
  | .uuid _ => true
  | .selected _ _ => true
  | _ => false

def Cmd.inner : Cmd → Bool
  | .lock _ => true
  | .update _ _ => true
  | c => c.free

structure Quiet (start v : View) : Prop where
  grown : start.events ⊆ v.events
  made : v.made = start.made
  plain : ∀ event ∈ v.events, event ∈ start.events ∨ event.plain = true

theorem quiet_note {start v : View} (quiet : Quiet start v) (plain : event.plain = true) :
    Quiet start (v.note event) := by
  refine ⟨fun old member => List.mem_cons_of_mem _ (quiet.grown member),quiet.made,
    fun noted member => ?_⟩
  rcases List.mem_cons.mp member with rfl | old
  · exact .inr plain
  · exact quiet.plain noted old

theorem local_quiet {start v after : View} {c : Cmd} {reply : Option (Reply c)}
    (inner : c.inner = true) (stepped : Local cfg v c reply after)
    (quiet : Quiet start v) : Quiet start after := by
  cases stepped with
  | lock ran => cases ran <;> exact ⟨quiet.grown,quiet.made,quiet.plain⟩
  | update ran => cases ran <;> exact ⟨quiet.grown,quiet.made,quiet.plain⟩
  | clock _ => exact quiet_note quiet rfl
  | uuid _ => exact quiet_note quiet rfl
  | selected _ => exact quiet_note quiet rfl
  | _ => first | exact ⟨quiet.grown,quiet.made,quiet.plain⟩ | cases inner

-- The transaction that gives a user another picture, or none.
def Swaps (cfg : Config) (request : Request) (userID : UUID) (after : View)
    (prevImage : Option String) : Prop :=
  ∃ t prev, after.tx = some t ∧ .user ⟨prev,none⟩ ∈ t.seen ∧ prev.id = userID ∧
    prevImage = prev.profilePicture ∧ Commits cfg request t after.events

theorem changeProfilePicture_swaps (ctx : Ctx) (userID : UUID) (ext : String) {v : View}
    (permitted : requireSelfOr cfg ctx userID .userUpdate = .done ())
    (drawn : .uuid made ∈ v.events)
    (stored : .stored (UserService.buildImagePath (made ++ ext)) ∈ v.events) :
    Meets (Local cfg) (fun v c => Owed cfg (.changeProfilePicture ctx userID ext) v c ∧
      c.inner = true)
      (fun after result => match result with
        | .ok prevImage => Swaps cfg (.changeProfilePicture ctx userID ext) userID after prevImage
        | .error _ => True) (do
      let prev ← getByID .tx userID
      let usr := {prev with profilePicture := setNullable (made ++ ext)}
      let stored ← updateUserRow usr
      recordAudit ctx ⟨.changeProfilePicture,"user",userID,some (.user prev),some (.user stored),[]⟩
      return prev.profilePicture) (v.within (.empty began since)) := by
  have free : ∀ v c, c.free = true → Owed cfg (.changeProfilePicture ctx userID ext) v c ∧
    c.inner = true := fun _ c free => ⟨owed_free nofun free,by cases c <;> first | rfl | exact free⟩
  refine meets_bind (lockOne_meets (user_shape _) rfl rfl rfl ?_ ?_ (fun _ _ _ _ _ => trivial)
    fun _ _ _ => trivial)
  · exact fun next sofar => ⟨⟨trivial,fun t equal =>
      by cases equal; exact user_first (fun nothing => nothing) sofar⟩,rfl⟩
  intro t1 scan prev stamp ran clean hits locked passes
  have same : prev.id = userID := by simpa [liveUser] using passes
  refine meets_bind (updateUserRow_meets rfl ran.frame.1 clean (List.mem_map_of_mem locked) rfl
    (fun next orderly => ⟨⟨trivial,fun t equal => by cases equal; exact orderly⟩,rfl⟩)
      (fun _ _ => trivial) fun t2 still writes => ?_)
  refine meets_bind (recordAudit_meets free rfl (fun _ _ => trivial) fun entry unheld => ?_)
  refine ⟨_,prev,rfl,List.mem_map_of_mem (still locked),same,rfl,?_⟩
  exact .changeProfilePicture permitted
    (List.mem_map_of_mem (still locked)) same drawn stored rfl unheld
    (congrArg (List.cons _) writes)

theorem changeProfilePicture_meets (ctx : Ctx) (userID : UUID) (ext : String) :
    Meets (Local cfg) (Owed cfg (.changeProfilePicture ctx userID ext))
      (Ends cfg (.changeProfilePicture ctx userID ext))
      (UserService.changeProfilePicture cfg ctx userID ext) ⟨asked,none,[],none⟩ := by
  have free : ∀ v c, c.free = true → Owed cfg (.changeProfilePicture ctx userID ext) v c :=
    fun _ _ => owed_free nofun
  refine meets_bind (requireSelfOr_meets (fun _ => ⟨.inl rfl,by simp⟩) fun permitted => ?_)
  refine meets_bind (newUUID_meets ⟨trivial,by simp⟩ (fun drawn _ => ?_)
    fun _ => ⟨.inl rfl,by simp⟩)
  refine meets_bind (meets_call (fun _ _ stepped => nomatch stepped) ⟨trivial,rfl,drawn,by simp,rfl⟩
    fun _ _ stepped => ?_)
  cases stepped with
  | unput => exact ⟨.inl rfl,by simp⟩
  | put =>
    have dropped : ∀ after : View, ∀ err, .uuid drawn ∈ after.events →
      (after.made = none ∨ .unconfirmed ∈ after.events) →
        (∀ path, .stored path ∈ after.events → path = UserService.buildImagePath (drawn ++ ext)) →
        Meets (Local cfg) (Owed cfg (.changeProfilePicture ctx userID ext))
          (Ends cfg (.changeProfilePicture ctx userID ext)) (do
          UserService.asyncDeleteImage (UserService.buildImagePath (drawn ++ ext))
          throw err) after := by
      intro after err noted failed only
      refine meets_bind (meets_call (fun _ _ stepped => nomatch stepped)
        ⟨trivial,.inr ⟨failed,drawn,noted,rfl⟩⟩ fun _ _ stepped => ?_)
      cases stepped
      exact ⟨by simpa using failed,fun path there => by simp [only path (by simpa using there)]⟩
    refine meets_bind (meets_settle (transact_settles free
      (fun err => dropped _ err (by simp) (.inl rfl) (by simp)) fun began since => ?_))
    refine meets_mono (fun _ _ owed => owed.2.1) ?_ (meets_stable (Quiet _)
      (fun _ _ _ _ owed => local_quiet owed.2) ⟨List.Subset.refl _,rfl,fun _ => .inl⟩
      (changeProfilePicture_swaps ctx userID ext permitted (show Event.uuid drawn ∈ _ by simp)
      (show Event.stored _ ∈ _ by simp)))
    rintro after result ⟨quiet,held⟩
    have noted : .uuid drawn ∈ after.events := quiet.grown (by simp)
    have only : ∀ path, .stored path ∈ after.events →
        path = UserService.buildImagePath (drawn ++ ext) := by
      intro path there
      rcases quiet.plain _ there with old | plain
      · simpa using old
      · cases plain
    cases result with
    | error err => exact dropped _ err noted (.inl quiet.made) only
    | ok prevImage =>
        obtain ⟨t,prev,running,seen,same,rfl,commits⟩ := held
        refine ⟨⟨trivial,fun there => ?_,fun path there => ?_,t,running,commits⟩,?_,
          fun err => ⟨?_,?_⟩⟩
        · rcases quiet.plain _ there with old | plain
          · simp at old
          · cases plain
        · rcases quiet.plain _ there with old | plain
          · simp at old
          · cases plain
        · have replaced : Replaced after.committed userID prev := ⟨t,running,seen,same⟩
          cases image : prev.profilePicture with
          | none => exact ⟨List.mem_cons_self,prev,replaced,by simp [image]⟩
          | some name =>
              refine meets_bind (meets_call (fun _ _ stepped => nomatch stepped)
                ⟨trivial,.inl ⟨prev,name,replaced,image,rfl⟩⟩ fun _ _ stepped => ?_)
              cases stepped
              exact ⟨by simp,prev,replaced,by simp [image]⟩
        · exact dropped _ err noted (.inl quiet.made) only
        · exact dropped _ err (by simp [noted]) (.inr (by simp)) (by simpa using only)

theorem deleteProfilePicture_swaps (ctx : Ctx) (userID : UUID) {v : View}
    (permitted : requireSelfOr cfg ctx userID .userUpdate = .done ()) :
    Meets (Local cfg) (fun v c => Owed cfg (.deleteProfilePicture ctx userID) v c ∧ c.inner = true)
      (fun after result => match result with
        | .ok prevImage => Swaps cfg (.deleteProfilePicture ctx userID) userID after prevImage
        | .error _ => True) (do
      let prev ← getByID .tx userID
      match prev.profilePicture with
      | none => return none
      | some image => do
        let usr := {prev with profilePicture := none}
        let stored ← updateUserRow usr
        recordAudit ctx ⟨.deleteProfilePicture,"user",userID,some (.user prev),
          some (.user stored),[]⟩
        return some image) (v.within (.empty began since)) := by
  have free : ∀ v c, c.free = true → Owed cfg (.deleteProfilePicture ctx userID) v c ∧
    c.inner = true := fun _ c free => ⟨owed_free nofun free,by cases c <;> first | rfl | exact free⟩
  refine meets_bind (lockOne_meets (user_shape _) rfl rfl rfl ?_ ?_ (fun _ _ _ _ _ => trivial)
    fun _ _ _ => trivial)
  · exact fun next sofar => ⟨⟨trivial,fun t equal =>
      by cases equal; exact user_first (fun nothing => nothing) sofar⟩,rfl⟩
  intro t1 scan prev stamp ran clean hits locked passes
  have same : prev.id = userID := by simpa [liveUser] using passes
  cases image : prev.profilePicture with
  | none =>
      simp only [image]
      refine ⟨t1,prev,rfl,List.mem_map_of_mem locked,same,image.symm,?_⟩
      exact .keepNoPicture permitted (List.mem_map_of_mem locked) same image clean
  | some path =>
      simp only [image]
      refine meets_bind (updateUserRow_meets rfl ran.frame.1 clean (List.mem_map_of_mem locked) rfl
        (fun next orderly => ⟨⟨trivial,fun t equal => by cases equal; exact orderly⟩,rfl⟩)
          (fun _ _ => trivial)
        fun t2 still writes => ?_)
      refine meets_bind (recordAudit_meets free rfl (fun _ _ => trivial) fun entry unheld => ?_)
      refine ⟨_,prev,rfl,List.mem_map_of_mem (still locked),same,image.symm,?_⟩
      exact .deleteProfilePicture permitted
        (List.mem_map_of_mem (still locked)) same image rfl unheld (congrArg (List.cons _) writes)

theorem deleteProfilePicture_meets (ctx : Ctx) (userID : UUID) :
    Meets (Local cfg) (Owed cfg (.deleteProfilePicture ctx userID))
      (Ends cfg (.deleteProfilePicture ctx userID))
      (UserService.deleteProfilePicture cfg ctx userID) ⟨asked,none,[],none⟩ := by
  have free : ∀ v c, c.free = true → Owed cfg (.deleteProfilePicture ctx userID) v c :=
    fun _ _ => owed_free nofun
  refine meets_bind (requireSelfOr_meets (fun _ => .inl rfl) fun permitted => ?_)
  refine meets_bind (transact_settles free (fun _ => .inl rfl) fun began since => ?_)
  refine meets_mono (fun _ _ owed => owed.2.1) ?_ (meets_stable (Quiet _)
    (fun _ _ _ _ owed => local_quiet owed.2) ⟨List.Subset.refl _,rfl,fun _ => .inl⟩
    (deleteProfilePicture_swaps ctx userID permitted))
  rintro after result ⟨quiet,held⟩
  cases result with
  | error err => exact .inl quiet.made
  | ok prevImage =>
      obtain ⟨t,prev,running,seen,same,rfl,commits⟩ := held
      have replaced : Replaced after.committed userID prev := ⟨t,running,seen,same⟩
      refine ⟨⟨trivial,fun there => ?_,fun path there => ?_,t,running,commits⟩,?_,
        fun err => ⟨.inl quiet.made,.inr (by simp)⟩⟩
      · rcases quiet.plain _ there with old | plain
        · simp at old
        · cases plain
      · rcases quiet.plain _ there with old | plain
        · simp at old
        · cases plain
      · cases image : prev.profilePicture with
        | none => exact ⟨List.mem_cons_self,prev,replaced,by simp [image]⟩
        | some name =>
            refine meets_bind (meets_call (fun _ _ stepped => nomatch stepped)
              ⟨trivial,prev,name,replaced,image,rfl⟩ fun _ _ stepped => ?_)
            cases stepped
            exact ⟨by simp,prev,replaced,by simp [image]⟩

theorem deleteUser_meets (ctx : Ctx) (userID : UUID) :
    Meets (Local cfg) (Owed cfg (.deleteUser ctx userID)) (Ends cfg (.deleteUser ctx userID))
      (UserService.deleteUser cfg ctx userID) ⟨asked,none,[],none⟩ := by
  have free : ∀ v c, c.free = true → Owed cfg (.deleteUser ctx userID) v c :=
    fun _ _ => owed_free nofun
  have cleanup : ∀ v : View, .committed ∈ v.events →
    Meets (Local cfg) (Owed cfg (.deleteUser ctx userID))
      (Ends cfg (.deleteUser ctx userID)) (do
        let deadline ← cleanupDeadline
        revokeAllForUser cfg userID deadline
        return .nil) v := by
    intro v committed
    refine meets_bind (meets_bind (now_meets free fun created _ => ?_))
    exact meets_bind (watermark_meets free (by simp [committed]) (by simp)
      (fun _ _ _ _ committed watermark => ⟨trivial,rfl,committed,watermark⟩)
      fun _ result committed marked => by
        cases result with
        | error err => trivial
        | ok _ => exact ⟨committed,marked rfl⟩)
  refine meets_bind (require_meets (fun _ _ => trivial) fun permitted => ?_)
  refine meets_bind (transact_meets free (fun _ _ => trivial) fun began since => ?_)
  refine meets_bind (meets_settle (lockOne_meets (user_shape _) rfl rfl rfl ?_ ?_ ?_ ?_))
  · refine fun next sofar => ⟨trivial,fun t equal => ?_⟩
    cases equal
    refine user_first (fun nothing lock member => ?_) sofar
    rw [nothing] at member; cases member
  · intro t1 scan usr stamp ran clean hits locked passes
    have same : usr.id = userID := by simpa [liveUser] using passes
    refine meets_bind (updateSeen_meets rfl ran.frame.1 (List.mem_map_of_mem locked)
      (by simp [clean,Schema.keys]) (by simp [userWithID])
      (fun _ found => userWithID_key found) ?_ (fun _ _ => trivial) ?_)
    · refine fun next sofar => ⟨trivial,fun t equal => ?_⟩
      cases equal
      exact orderly_held ran.frame.1 (holds_seen.mpr ⟨_,List.mem_map_of_mem locked,rfl⟩)
        (fun _ found => userWithID_key found) sofar
    intro t2 scan2 ran2 writes2
    refine meets_bind (revokeUserSessionRows_meets rfl ran2.frame.1 ?_ ?_ (fun _ _ => trivial) ?_)
    · rw [writes2,clean]
      simp [softDelete,Row.key,Key.level]
    · refine fun next sofar => ⟨trivial,fun t equal => ?_⟩
      cases equal
      have below := ran.locks (fun k => k.level < 2) (by simp [Tx.empty]) fun _ found => by
        rw [show schema.key _ = _ from userByID_key found]; exact Nat.one_lt_two
      have below2 := ran2.locks (fun k => k.level < 2) below fun _ found => by
        rw [show schema.key _ = _ from userWithID_key found]; exact Nat.one_lt_two
      exact sessions_climb ran2.frame.1 below2 sofar fun k level climbs => climbs
    intro t3 revoking ran3 scanned writes3
    refine recordAudit_meets free rfl (fun _ _ => trivial) fun entry unheld =>
      ⟨⟨trivial,by simp,by simp,_,rfl,?_⟩,cleanup _ (by simp)⟩
    subst same
    refine .deleteUser permitted (ran3.seen (ran2.seen (List.mem_map_of_mem locked))) rfl
      (scanned.later (List.Subset.refl _) (List.Subset.refl _))
        (by rw [ran3.frame.2.2.1]; rfl) unheld (congrArg (List.cons _) ?_)
    rw [writes3,writes2,clean,ran3.frame.2.1,ran2.frame.2.1]
    rfl
  · intro t1 scan ran clean nobody
    refine ⟨⟨trivial,by simp,by simp,t1,rfl,?_⟩,cleanup _ (by simp)⟩
    exact .deleteAbsent permitted (ran.scanned (by simp [Tx.empty,Schema.keys])) nobody clean
  · exact fun after err known => by simp [Meets,known]

end Users

section Authentication
variable {v : View} {token : AccessToken}

theorem verifyAccessToken_meets {post : View → Except Err Unit → Prop}
    (silent : ∀ time values, .fetched time values ∉ v.events)
    (failed : ∀ after err, (∀ time values, .fetched time values ∉ after.events) →
      post after (.error err))
    (verified : ∀ verifiedAt, verifiedAt < token.expiresAt →
      post (v.note (.clock verifiedAt)) (.ok ())) :
    Meets (Local cfg) (Owed cfg (.authenticate token)) post (verifyAccessToken token) v := by
  refine meets_call (fun _ _ stepped => nomatch stepped) ⟨silent,trivial⟩
    fun genuine _ stepped => ?_
  cases stepped
  cases genuine with
  | false => exact failed _ _ silent
  | true =>
      refine meets_call (fun _ _ stepped => nomatch stepped) ⟨silent,trivial⟩
        fun verifiedAt _ stepped => ?_
      cases stepped
      show Meets _ _ _ (if ¬verifiedAt < token.expiresAt then .fail Err.accessTokenExpired
        else if token.sessionID = uuidNil then .fail Err.accessTokenInvalid else .done ()) _
      have still : ∀ time values, Event.fetched time values ∉ (v.note
        (.clock verifiedAt)).events := by simpa using silent
      split
      · exact failed _ _ still
      · rename_i unexpired
        split
        · exact failed _ _ still
        · exact verified verifiedAt (Int.not_le.mp fun expired => unexpired
            (Int.not_lt.mpr expired))

theorem isRevoked_meets {post : View → Except Err Bool → Prop}
    (silent : ∀ time values, .fetched time values ∉ v.events)
    (asks : Asks (.authenticate token) v [revokedUserKey token.subject,
      revokedSessionKey token.sessionID] deadline)
    (unfetched : ∀ err, post (v.note .redisFailed) (.error err))
    (decided : ∀ time values, post (v.note (.fetched time values)) (verdict token values)) :
    Meets (Local cfg) (Owed cfg (.authenticate token)) post
      (isRevoked token.subject token.sessionID token.issuedAt deadline) v := by
  refine meets_call (fun _ _ stepped => nomatch stepped) ⟨silent,asks⟩ fun _ _ stepped => ?_
  cases stepped with
  | unfetched => exact unfetched _
  | @fetched _ _ values time =>
      have known := decided time values
      unfold verdict at known
      dsimp only
      cases told : decideRevoked (markerValue values 0) (markerValue values 1) token.issuedAt with
      | ok revoked => rw [told] at known; exact known
      | error err => rw [told] at known; exact known

-- Signature, expiry, then one look at the markers.
theorem authenticate_meets (token : AccessToken) :
    Meets (Local cfg) (Owed cfg (.authenticate token))
    (Ends cfg (.authenticate token)) (authenticate cfg token) ⟨asked,none,[],none⟩ := by
  refine meets_bind (verifyAccessToken_meets (by simp)
    (fun after err silent time values got => absurd got (silent time values))
    fun verifiedAt unexpired => ?_)
  refine meets_bind (meets_call (fun _ _ stepped => nomatch stepped)
    ⟨show ∀ time values, Event.fetched time values ∉ _ by simp,trivial⟩
      fun checkedAt _ stepped => ?_)
  cases stepped
  refine meets_bind (meets_settle (isRevoked_meets (by simp) ⟨rfl,⟨verifiedAt,by simp,unexpired⟩,
    checkedAt,by simp,rfl⟩ (fun err => ?_) fun time values => ?_))
  · show Meets _ _ _ (if cfg.revocationFailClosed then .fail Err.sessionInvalid else .done
      (Value.claims token)) _
    split
    · exact fun time values got => by simp at got
    · exact ⟨rfl,.inl (by simp)⟩
  · cases told : verdict token values with
    | error err =>
        show Meets _ _ _ (if cfg.revocationFailClosed then .fail Err.sessionInvalid else .done
          (Value.claims token)) _
        split
        · intro time' values' got
          simp only [View.note_events,List.mem_cons,Event.fetched.injEq,reduceCtorEq,
            List.not_mem_nil,or_false] at got
          rw [got.2,told]
          nofun
        · exact ⟨rfl,.inr ⟨time,values,by simp,by rw [told]; nofun⟩⟩
    | ok revoked =>
        cases revoked with
        | true =>
            intro time' values' got
            simp only [View.note_events,List.mem_cons,Event.fetched.injEq,reduceCtorEq,
              List.not_mem_nil,or_false] at got
            rw [got.2,told]
            simp
        | false => exact ⟨rfl,.inr ⟨time,values,by simp,by rw [told]; simp⟩⟩

end Authentication

theorem serve_meets (request : Request) :
    Meets (Local cfg) (Owed cfg request) (Ends cfg request) (serve cfg request)
      ⟨asked,none,[],none⟩ := by
  cases request with
  | register ctx name email => exact register_meets ctx name email
  | completeRegistration ctx token password => exact completeRegistration_meets ctx token password
  | login ctx email password => exact login_meets ctx email password
  | refreshAccessToken ctx token => exact refreshAccessToken_meets ctx token
  | logout ctx sessID => exact logout_meets ctx sessID
  | recoverPassword ctx email => exact recoverPassword_meets ctx email
  | resetPassword ctx token password => exact resetPassword_meets ctx token password
  | changePassword ctx userID password newPassword =>
      exact changePassword_meets ctx userID password newPassword
  | revokeUserSessions ctx userID => exact revokeUserSessions_meets ctx userID
  | revokeSession ctx sessionID => exact revokeSession_meets ctx sessionID
  | updateUser ctx userID name phone gender => exact updateUser_meets ctx userID name phone gender
  | deleteUser ctx userID => exact deleteUser_meets ctx userID
  | changeProfilePicture ctx userID ext => exact changeProfilePicture_meets ctx userID ext
  | deleteProfilePicture ctx userID => exact deleteProfilePicture_meets ctx userID
  | authenticate token => exact authenticate_meets token

-- What a goroutine was asked for does not change.
theorem local_request {v after : View} {c : Cmd} {reply : Option (Reply c)}
    (stepped : Local cfg v c reply after) : after.request = v.request := by
  cases stepped with
  | lock ran => cases ran <;> rfl
  | update ran => cases ran <;> rfl
  | _ => rfl

theorem api_sound (cfg : Config) :
    Sound (api cfg) (fun _ _ => True) WorldValid World.view (Local cfg) (duty cfg)
      (outcome cfg) where
  accepts valid accepted := by
    refine ⟨accept_valid valid accepted,?_,fun other different => accept_frame accepted different⟩
    rw [accept_view valid accepted]
    refine meets_mono ?_ ?_ (meets_stable (fun v => v.request = some _)
      (fun _ _ _ _ _ stepped known => (local_request stepped).trans known) rfl (serve_meets _))
    · exact fun v c owed => ⟨_,owed.1,owed.2⟩
    · exact fun v result held => ⟨_,held.1,held.2⟩
  executes := by
    intro s pid c next choice after reply valid _ owed _ ran
    obtain ⟨request,asked,_⟩ := owed
    have known : s.shared.requests pid ≠ none := by
      rw [show s.shared.requests pid = some request from asked]; nofun
    exact ⟨executed_valid valid known (exec_executed ran),executed_local valid (exec_executed ran),
      fun other different => executed_frame (exec_executed ran) different⟩
  abandons pid valid := ⟨abandon_valid valid pid,fun other different => abandon_frame _ different⟩
  environs valid _ ran := ⟨surroundings_valid valid ran,surroundings_view ran⟩

end RestApi
