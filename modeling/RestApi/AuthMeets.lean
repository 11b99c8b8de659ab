import RestApi.EntityRules

namespace RestApi
open Pool Program RowStore Service

variable {cfg : Config} {asked : Option Request}

-- One symbolic run per request. Events and writes are concrete lists by the time
-- of the commit, so the side conditions are list memberships.
section Sessions

theorem login_meets (ctx : Ctx) (email password : String) :
    Meets (Local cfg) (Owed cfg (.login ctx email password))
    (Ends cfg (.login ctx email password)) (AuthService.login cfg ctx email password)
      ⟨asked,none,[],none⟩ := by
  have free : ∀ v c, c.free = true → Owed cfg (.login ctx email password) v c :=
    fun _ _ => owed_free nofun
  refine meets_bind (meets_settle (selectOne_meets free ?_ (fun _ => trivial) fun _ _ _ => trivial))
  intro position row usr passes picked
  cases user_shape _ row usr passes picked
  have same : usr.email = email := by simpa [liveUser] using passes
  refine meets_bind (verifyPassword_meets (fun verified => ?_) fun _ _ => trivial)
  refine meets_bind (newSession_meets free (fun _ _ => trivial) ⟨trivial,by simp⟩
    (fun drawn => ⟨trivial,by simp⟩) fun drawn raw ip agent created => ?_)
  refine meets_bind (signAccessToken_meets free (fun _ _ => trivial) (fun signedAt => ?_)
    fun signedAt => ?_)
  · exact ⟨trivial,by simp,⟨_,_,rfl⟩,rfl,by simp,by simp [accessToken]⟩
  · refine meets_bind (transact_meets free (fun _ _ => trivial) fun began since => ?_)
    refine meets_bind (insert_meets free rfl (fun _ _ => trivial) fun _ _ => ?_)
    refine recordAudit_meets free rfl (fun _ _ => trivial) fun entry unheld => ?_
    refine ⟨⟨trivial,by simp,by simp,_,rfl,?_⟩,?_⟩
    · exact .login (show Event.selected position [.user ⟨usr,none⟩] ∈ _ by simp) same verified
        (show Event.uuid drawn ∈ _ by simp) (show Event.token raw ∈ _ by simp) rfl unheld rfl
    · exact ⟨List.mem_cons_self,_,raw,rfl,by simp⟩

theorem sessionWithHash_level (passes : sessionWithHash digest row = true) : row.key.level = 2 := by
  cases row <;> first | rfl | cases passes

theorem sessionWithID_key (passes : sessionWithID sessID row = true) :
    row.key = .session sessID := by
  cases row <;> simp_all [sessionWithID,Row.key]

theorem userByID_key (passes : liveUser (fun u => u.id = userID) row = true) :
    row.key = .user userID := by
  cases row <;> simp_all [liveUser,Row.key]

theorem activeSessionOf_level (passes : activeSessionOf userID row = true) : row.key.level = 2 := by
  cases row <;> first | rfl | cases passes

theorem refreshAccessToken_meets (ctx : Ctx) (text : String) :
    Meets (Local cfg) (Owed cfg (.refreshAccessToken ctx text))
    (Ends cfg (.refreshAccessToken ctx text)) (AuthService.refreshAccessToken cfg ctx text)
      ⟨asked,none,[],none⟩ := by
  have free : ∀ v c, c.free = true → Owed cfg (.refreshAccessToken ctx text) v c :=
    fun _ _ => owed_free nofun
  refine transact_meets free (fun _ _ => trivial) fun began since => ?_
  refine meets_bind (meets_settle (lockOne_meets
    (session_shape _) rfl rfl rfl ?_ ?_ (fun _ _ _ _ _ => trivial) fun _ _ _ => trivial))
  · refine fun next sofar => ⟨trivial,fun t same => ?_⟩
    cases same
    refine orderly_progress rfl sofar fun row passes _ _ added => ?_
    have current : ∀ lock ∈ next.locked, Current next lock.1.key ∧ lock.1.key.level = 2 := by
      intro lock member
      rcases added lock member with old | ⟨here,found,also,keyed⟩
      · cases old
      · exact ⟨here,keyed ▸ sessionWithHash_level also⟩
    exact ⟨fun lock member => (current lock member).2,
      .inl ⟨sessionWithHash_level passes,fun lock member => (current lock member).1⟩⟩
  intro t1 scan sess stamp ran clean hits locked passes
  have hash : sess.refreshTokenHash = cfg.hashStr text := by simpa [sessionWithHash] using passes
  have sessions : ∀ lock ∈ t1.locked, lock.1.key.level = 2 :=
    ran.locks (fun k => k.level = 2) (by simp [Tx.empty]) fun _ found => sessionWithHash_level found
  refine meets_bind (now_meets free fun checkedAt latest => ?_)
  have early : stamp ≤ checkedAt := (latest.2 t1 rfl).2 _ locked
  dsimp only
  split
  · trivial
  rename_i unexpired
  split
  · trivial
  rename_i unrevoked
  replace unexpired : sess.isExpired checkedAt = false := by simpa using unexpired
  replace unrevoked : sess.revokedAt = none := by simpa using unrevoked
  refine meets_bind (lockOne_meets (user_shape _) rfl ran.frame.1 clean ?_ ?_ (fun _ _ _ _ _ =>
    trivial) fun _ _ _ => trivial)
  · refine fun next sofar => ⟨trivial,fun t same => ?_⟩
    cases same
    refine orderly_progress ran.frame.1 sofar fun row passes unheld still added => ?_
    rw [userByID_key passes] at unheld ⊢
    refine ⟨fun lock member => ?_,.inr ⟨sess,List.mem_map_of_mem (still locked),rfl⟩⟩
    rcases added lock member with old | ⟨_,found,also,keyed⟩
    · exact sessions lock old
    · exact absurd (holds_seen.mpr ⟨_,List.mem_map_of_mem member,
        keyed.symm.trans (userByID_key also)⟩) unheld
  intro t2 scan2 usr stamp2 ran2 clean2 hits2 locked2 passes2
  have owner : usr.id = sess.userID := by simpa [liveUser] using passes2
  have still := ran2.frame.2.2.2 locked
  refine meets_bind (signAccessToken_meets free (fun _ _ => trivial) (fun signedAt => ?_)
    fun signedAt => ?_)
  · exact ⟨trivial,by simp,⟨_,_,rfl⟩,t2,sess,checkedAt,rfl,⟨by simp,stamp,still,early⟩,rfl,unrevoked,
      unexpired⟩
  · refine meets_bind (rotate_meets free (fun _ _ => trivial) ⟨trivial,by simp⟩
      fun raw ip agent accessed => ?_)
    refine meets_bind (updateSeen_meets rfl ran2.frame.1 (List.mem_map_of_mem still)
      (by simp [clean2,Schema.keys]) (by simp [sessionWithID])
      (fun _ found => sessionWithID_key found) ?_ (fun _ _ => trivial) ?_)
    · refine fun next sofar => ⟨trivial,fun t same => ?_⟩
      cases same
      exact orderly_held ran2.frame.1 (holds_seen.mpr ⟨_,List.mem_map_of_mem still,rfl⟩)
        (fun _ found => sessionWithID_key found) sofar
    intro t3 scan3 ran3 writes
    refine ⟨⟨trivial,by simp,by simp,t3,rfl,?_⟩,?_⟩
    · exact .refreshAccessToken ⟨show Event.clock checkedAt ∈ _ by simp,stamp,ran3.frame.2.2.2 still,
        early⟩ hash unexpired unrevoked (ran3.seen (List.mem_map_of_mem locked2)) owner
        (show Event.token raw ∈ _ by simp) (by rw [writes,clean2]; rfl)
    · exact ⟨List.mem_cons_self,_,raw,rfl,by simp⟩

-- The session row is dead already, or this transaction revokes it.
theorem endSession_meets {post : View → Except Err Unit → Prop} {v : View} {t : Tx Row Key}
    {sess : Session} {stamp : Int} (service : ∀ token, request ≠ .authenticate token)
    (running : v.tx = some t) (idle : t.scan = none) (clean : t.writes = [])
    (locked : (.session sess,stamp) ∈ t.locked) (failed : ∀ after err, post after (.error err))
    (dead : ∀ checkedAt, stamp ≤ checkedAt → sess.isExpired checkedAt = true ∨
      sess.revokedAt.isSome = true → post (v.note (.clock checkedAt)) (.ok ()))
    (ended : ∀ checkedAt revokedAt after serial, stamp ≤ checkedAt →
      (.session sess,stamp) ∈ after.locked → ¬after.holds schema (.audit serial) →
      after.writes = [.audit (auditEntry ctx record after.began serial),
      .session (sess.revoke revokedAt)] →
      post (((v.note (.clock checkedAt)).note (.clock revokedAt)).within after) (.ok ())) :
    Meets (Local cfg) (Owed cfg request) post (AuthService.endSession ctx sess record) v := by
  have free : ∀ v c, c.free = true → Owed cfg request v c := fun _ _ => owed_free service
  refine meets_bind (now_meets free fun checkedAt latest => ?_)
  have early : stamp ≤ checkedAt := (latest.2 t running).2 _ locked
  dsimp only
  split
  · rename_i lapsed
    exact dead checkedAt early (by simpa using lapsed)
  · refine meets_bind (now_meets free fun revokedAt _ => ?_)
    refine meets_bind (updateSeen_meets running idle (List.mem_map_of_mem locked)
      (by simp [clean,Schema.keys]) (by simp [sessionWithID,Session.revoke])
      (fun _ found => sessionWithID_key found) ?_ (fun _ _ => failed _ _) ?_)
    · refine fun next sofar => ⟨unanswered service _,fun t same => ?_⟩
      cases same
      exact orderly_held idle (holds_seen.mpr ⟨_,List.mem_map_of_mem locked,rfl⟩)
        (fun _ found => sessionWithID_key found) sofar
    intro t1 scan ran writes
    refine recordAudit_meets free rfl (fun _ _ => failed _ _) fun serial unheld => ?_
    exact ended checkedAt revokedAt _ serial early (ran.frame.2.2.2 locked) unheld
      (by rw [writes,clean]; rfl)

theorem logout_meets (ctx : Ctx) (sessID : UUID) : Meets (Local cfg) (Owed cfg (.logout ctx sessID))
    (Ends cfg (.logout ctx sessID)) (AuthService.logout cfg ctx sessID) ⟨asked,none,[],none⟩ := by
  have free : ∀ v c, c.free = true → Owed cfg (.logout ctx sessID) v c := fun _ _ => owed_free nofun
  refine meets_bind (transact_meets free (fun _ _ => trivial) fun began since => ?_)
  refine meets_bind (lockOne_meets (session_shape _) rfl rfl rfl ?_ ?_ (fun _ _ _ _ _ => trivial)
    fun _ _ _ => trivial)
  · refine fun next sofar => ⟨trivial,fun t same => ?_⟩
    cases same
    exact orderly_first rfl rfl (fun _ found => sessionWithID_key found)
      (fun nothing => nothing) sofar
  intro t1 scan sess stamp ran clean hits locked passes
  have same : sess.id = sessID := by simpa [sessionWithID] using passes
  -- Whatever the transaction found, the marker follows its commit.
  have cleanup : ∀ v : View, .committed ∈ v.events →
    Meets (Local cfg) (Owed cfg (.logout ctx sessID))
      (Ends cfg (.logout ctx sessID)) (do
        let deadline ← cleanupDeadline
        let _ ← attempt (revokeSessionMarker cfg sessID deadline)
        return .nil) v := by
    intro v committed
    refine meets_bind (meets_bind (now_meets free fun created _ => ?_))
    refine meets_bind (meets_settle (revokeSessionMarker_meets ?_ ?_ ?_ ?_))
    · exact fun after err grown failed => ⟨grown (by simp [committed]),.inr (.inl failed)⟩
    · exact ⟨trivial,rfl,by simp [committed],rfl,rfl⟩
    · exact ⟨by simp [committed],.inl (by simp)⟩
    · exact fun zero => ⟨by simp [committed],.inr (.inr zero)⟩
  refine endSession_meets nofun rfl ran.frame.1 clean locked (fun _ _ => trivial) ?_ ?_
  · intro checkedAt early lapsed
    refine ⟨⟨trivial,by simp,by simp,t1,rfl,?_⟩,cleanup _ (by simp)⟩
    exact .logoutDead ⟨show Event.clock checkedAt ∈ _ by simp,stamp,locked,early⟩ same lapsed clean
  · intro checkedAt revokedAt after serial early still unheld writes
    refine ⟨⟨trivial,by simp,by simp,after,rfl,?_⟩,cleanup _ (by simp)⟩
    exact .logout ⟨show Event.clock checkedAt ∈ _ by simp,stamp,still,early⟩ same unheld writes

theorem revokeSession_meets (ctx : Ctx) (sessID : UUID) :
    Meets (Local cfg) (Owed cfg (.revokeSession ctx sessID))
    (Ends cfg (.revokeSession ctx sessID)) (AuthService.revokeSession cfg ctx sessID)
      ⟨asked,none,[],none⟩ := by
  have free : ∀ v c, c.free = true → Owed cfg (.revokeSession ctx sessID) v c :=
    fun _ _ => owed_free nofun
  refine meets_bind (transact_meets free (fun _ _ => trivial) fun began since => ?_)
  refine meets_bind (lockOne_meets (session_shape _) rfl rfl rfl ?_ ?_ (fun _ _ _ _ _ => trivial)
    fun _ _ _ => trivial)
  · refine fun next sofar => ⟨trivial,fun t same => ?_⟩
    cases same
    exact orderly_first rfl rfl (fun _ found => sessionWithID_key found)
      (fun nothing => nothing) sofar
  intro t1 scan sess stamp ran clean hits locked passes
  have same : sess.id = sessID := by simpa [sessionWithID] using passes
  have cleanup : ∀ v : View, .committed ∈ v.events →
    Meets (Local cfg) (Owed cfg (.revokeSession ctx sessID))
      (Ends cfg (.revokeSession ctx sessID)) (do
        let deadline ← cleanupDeadline
        revokeSessionMarker cfg sessID deadline
        return .nil) v := by
    intro v committed
    refine meets_bind (meets_bind (now_meets free fun created _ => ?_))
    refine meets_bind (revokeSessionMarker_meets (fun _ _ _ _ => trivial) ?_ ?_ ?_)
    · exact ⟨trivial,rfl,by simp [committed],rfl,rfl⟩
    · exact ⟨by simp [committed],.inl (by simp)⟩
    · exact fun zero => ⟨by simp [committed],.inr (.inr zero)⟩
  refine meets_bind (requireSelfOr_meets (fun _ => trivial) fun permitted => ?_)
  refine endSession_meets nofun rfl ran.frame.1 clean locked (fun _ _ => trivial) ?_ ?_
  · intro checkedAt early lapsed
    refine ⟨⟨trivial,by simp,by simp,t1,rfl,?_⟩,cleanup _ (by simp)⟩
    exact .revokeSessionDead ⟨show Event.clock checkedAt ∈ _ by simp,stamp,locked,
      early⟩ same permitted lapsed clean
  · intro checkedAt revokedAt after serial early still unheld writes
    refine ⟨⟨trivial,by simp,by simp,after,rfl,?_⟩,cleanup _ (by simp)⟩
    exact .revokeSession ⟨show Event.clock checkedAt ∈ _ by simp,stamp,still,
      early⟩ same permitted unheld writes

theorem revokeUserSessionRows_meets {duty : View → Cmd → Prop}
    {post : View → Except Err Unit → Prop} {v : View} {t : Tx Row Key} (running : v.tx = some t)
    (idle : t.scan = none) (clear : ∀ row ∈ t.writes, row.key.level ≠ 2)
    (owed : ∀ after, Progress schema (activeSessionOf userID) (some (revokeRow t.began)) t after →
      duty (v.within after) (.update (activeSessionOf userID) revokeRow))
    (failed : ∀ after err, post after (.error err))
    (done : ∀ after scan, Ran schema (activeSessionOf userID)
      (some (revokeRow t.began)) t after scan → Scanned schema (activeSessionOf userID) after scan →
      after.writes = scan.hits.map (revokeRow after.began) ++ t.writes →
      post (v.within after) (.ok ())) :
    Meets (Local cfg) duty post (revokeUserSessionRows userID) v := by
  refine updateAll_meets running idle ?_ owed (fun _ _ => failed _ _)
    fun after scan ran scanned writes => ?_
  · intro row passes written
    obtain ⟨old,member,same⟩ := Schema.mem_keys.mp written
    have level : old.key.level = 2 := (congrArg Key.level same).trans (activeSessionOf_level passes)
    exact clear old member level
  · exact done after scan ran scanned (by rw [ran.frame.2.1]; exact writes)

-- Sessions come after everything else.
theorem sessions_climb {t next : Tx Row Key} {change : Option (Row → Row)} (idle : t.scan = none)
    (below : ∀ lock ∈ t.locked, lock.1.key.level < 2)
    (sofar : Progress schema (activeSessionOf userID) change t next)
    (climbs : ∀ k, k.level = 2 → (∀ lock ∈ next.locked, lock.1.key.level < k.level ∨
      lock.1.key.level = k.level ∧ Current next lock.1.key) → Climbs request next k) :
    Orderly request next := by
  refine orderly_progress idle sofar fun row passes _ _ added =>
    climbs _ (activeSessionOf_level passes) fun lock member => ?_
  rw [activeSessionOf_level passes]
  rcases added lock member with old | ⟨here,found,also,keyed⟩
  · exact .inl (below lock old)
  · exact .inr ⟨keyed ▸ activeSessionOf_level also,here⟩

theorem revokeUserSessions_meets (ctx : Ctx) (userID : UUID) :
    Meets (Local cfg) (Owed cfg (.revokeUserSessions ctx userID))
    (Ends cfg (.revokeUserSessions ctx userID)) (AuthService.revokeUserSessions cfg ctx userID)
      ⟨asked,none,[],none⟩ := by
  have free : ∀ v c, c.free = true → Owed cfg (.revokeUserSessions ctx userID) v c :=
    fun _ _ => owed_free nofun
  refine meets_bind (require_meets (fun _ _ => trivial) fun permitted => ?_)
  refine meets_bind (transact_meets free (fun _ _ => trivial) fun began since => ?_)
  refine meets_bind (revokeUserSessionRows_meets rfl rfl
    (by simp [Tx.empty]) ?_ (fun _ _ => trivial) ?_)
  · refine fun next sofar => ⟨trivial,fun t same => ?_⟩
    cases same
    refine orderly_progress rfl sofar fun row passes _ _ added =>
      ⟨activeSessionOf_level passes,fun lock member => ?_⟩
    rcases added lock member with old | ⟨here,found,also,keyed⟩
    · cases old
    · exact ⟨keyed ▸ activeSessionOf_level also,here⟩
  intro t1 scan ran scanned writes
  refine recordAudit_meets free rfl (fun _ _ => trivial) fun serial unheld =>
    ⟨⟨trivial,by simp,by simp,_,rfl,?_⟩,?_⟩
  · exact .revokeUserSessions permitted
      (scanned.later (List.Subset.refl _) (List.Subset.refl _)) unheld
      (congrArg (List.cons _) (writes.trans (List.append_nil _)))
  · refine meets_bind (meets_bind (now_meets free fun created _ => ?_))
    exact meets_bind (watermark_meets free (by simp) (by simp)
      (fun _ _ _ _ committed watermark => ⟨trivial,rfl,committed,watermark⟩)
      fun _ result committed _ => by cases result <;> first | exact committed | trivial)

end Sessions
end RestApi
