import RestApi.ServiceRules

namespace RestApi
open Pool Program RowStore Service

variable {cfg : Config} {duty : View → Cmd → Prop} {α : Type} {v : View}

section Checks

theorem require_meets {post : View → Except Err Unit → Prop}
    (failed : ∀ after err, post after (.error err))
    (permitted : require cfg ctx permission = .done () → post v (.ok ())) :
    Meets (Local cfg) duty post (require cfg ctx permission) v := by
  revert permitted
  unfold require
  cases ctx.rbac with
  | none => exact fun _ => failed _ _
  | some c =>
      dsimp only
      split
      · exact fun permitted => permitted rfl
      · exact fun _ => failed _ _

theorem requireSelfOr_meets {post : View → Except Err Unit → Prop}
    (failed : ∀ err, post v (.error err))
    (permitted : requireSelfOr cfg ctx userID permission = .done () → post v (.ok ())) :
    Meets (Local cfg) duty post (requireSelfOr cfg ctx userID permission) v := by
  revert permitted
  unfold requireSelfOr
  cases ctx.rbac with
  | none => exact fun _ => failed _
  | some c =>
      dsimp only
      split
      · exact fun permitted => permitted rfl
      · split
        · exact fun permitted => permitted rfl
        · exact fun _ => failed _

theorem auditContext_meets {post : View → Except Err AuditContext → Prop}
    (failed : ∀ after err, post after (.error err)) (given : ∀ a, post v (.ok a)) :
    Meets (Local cfg) duty post (auditContext ctx text) v := by
  unfold auditContext
  cases ctx.audit with
  | none => exact failed _ _
  | some a => exact given a

theorem checked_meets {post : View → Except Err Unit → Prop}
    (failed : ∀ after err, post after (.error err)) (passed : result = .ok () → post v (.ok ())) :
    Meets (Local cfg) duty post (checked result) v := by
  cases result with
  | error err => exact failed _ _
  | ok _ => exact passed rfl

-- Whatever the wrapped error is, an error it stays.
theorem wrapping_meets {post : View → Except Err α → Prop} {program : Service α}
    (failed : ∀ after err, post after (.error err))
    (meets : Meets (Local cfg) duty post program v) :
    Meets (Local cfg) duty post (wrapping text program) v := by
  refine meets_settle (meets_mono (fun _ _ owed => owed) ?_ meets)
  intro after result held
  cases result with
  | ok value => exact held
  | error err => exact failed _ _

end Checks

section Entities
variable (free : ∀ v c, c.free = true → duty v c)
include free

theorem newSession_meets {post : View → Except Err (Session × String) → Prop}
    (failed : ∀ after err, post after (.error err)) (draws : duty v .newUUID)
    (owed : ∀ drawn, duty (v.note (.uuid drawn)) .opaqueToken)
    (made : ∀ drawn raw ip agent created, post
      (((v.note (.uuid drawn)).note (.token raw)).note (.clock created))
      (.ok (⟨drawn,userID,cfg.hashStr ("rt_" ++ raw),ip,agent,created,created,created+cfg.sessionTTL,
      none⟩,"rt_" ++ raw))) : Meets (Local cfg) duty post (newSession cfg ctx userID) v := by
  unfold newSession
  split
  · exact failed _ _
  · split
    · exact failed _ _
    · refine meets_bind (newUUID_meets draws (fun drawn _ => ?_) fun _ => failed _ _)
      refine meets_bind (generateOpaqueToken_meets (owed drawn) (fun _ _ => failed _ _)
        fun raw => ?_)
      refine meets_bind (auditContext_meets (fun _ _ => failed _ _) fun a => ?_)
      refine meets_bind (now_meets free fun created _ => ?_)
      exact made drawn raw a.ip a.userAgent created

theorem rotate_meets {post : View → Except Err (Session × String) → Prop}
  (failed : ∀ after err, post after (.error err))
    (owed : duty v .opaqueToken)
    (made : ∀ raw ip agent accessed, post ((v.note (.token raw)).note (.clock accessed))
    (.ok ({session with
      refreshTokenHash := cfg.hashStr ("rt_" ++ raw),accessedAt := accessed,
      ipAddr := ip,userAgent := agent},"rt_" ++ raw))) :
    Meets (Local cfg) duty post (rotate cfg ctx session) v := by
  refine meets_bind (generateOpaqueToken_meets owed (fun _ _ => failed _ _) fun raw => ?_)
  refine meets_bind (auditContext_meets (fun _ _ => failed _ _) fun a => ?_)
  refine meets_bind (now_meets free fun accessed _ => ?_)
  exact made raw a.ip a.userAgent accessed

theorem newRegistrationToken_meets {post : View → Except Err (RegistrationToken × String) → Prop}
    (failed : ∀ after err, post after (.error err)) (owed : duty v .opaqueToken)
    (made : ∀ raw created, post ((v.note (.token raw)).note (.clock created))
      (.ok (⟨0,name,email,cfg.hashStr ("regt_" ++ raw),created,created+cfg.registrationTokenTTL,none,
      none⟩,"regt_" ++ raw))) :
    Meets (Local cfg) duty post (newRegistrationToken cfg name email) v := by
  refine meets_bind (wrapping_meets (fun _ _ => failed _ _)
    (generateOpaqueToken_meets owed (fun _ _ => failed _ _) fun raw => ?_))
  exact meets_bind (now_meets free fun created _ => made raw created)

theorem newPasswordRecoveryToken_meets
    {post : View → Except Err (PasswordRecoveryToken × String) → Prop}
    (failed : ∀ after err, post after (.error err)) (owed : duty v .opaqueToken)
    (made : ∀ raw issued, post ((v.note (.token raw)).note (.clock issued))
      (.ok (⟨0,userID,cfg.hashStr raw,issued,issued+cfg.passwordRecoveryTokenTTL,none⟩,raw))) :
    Meets (Local cfg) duty post (newPasswordRecoveryToken cfg userID) v := by
  refine meets_bind (generateOpaqueToken_meets owed (fun _ _ => failed _ _) fun raw => ?_)
  exact meets_bind (now_meets free fun issued _ => made raw issued)

theorem newUser_meets {post : View → Except Err User → Prop}
    (failed : ∀ after err, post after (.error err)) (draws : duty v .newUUID)
    (made : ∀ drawn verified, post ((v.note (.uuid drawn)).note (.clock verified))
      (.ok ⟨drawn,name,email,some verified,hashed,none,none,.user,none,0,0⟩)) :
    Meets (Local cfg) duty post (newUser cfg name email hashed) v := by
  refine meets_bind (newUUID_meets draws (fun drawn _ => ?_) fun _ => failed _ _)
  refine meets_bind (now_meets free fun verified _ => ?_)
  exact meets_bind (checked_meets (fun _ _ => failed _ _) fun _ => made drawn verified)

theorem useToken_meets {post : View → Except Err RegistrationToken → Prop}
    (failed : ∀ after err, post after (.error err))
    (made : ∀ checkedAt used, post ((v.note (.clock checkedAt)).note (.clock used))
      (.ok {token with usedAt := some used})) : Meets (Local cfg) duty post (useToken token) v := by
  refine meets_bind (now_meets free fun checkedAt _ => ?_)
  dsimp only
  split
  · exact failed _ _
  · exact meets_bind (now_meets free fun used _ => made checkedAt used)

theorem recordAudit_meets {post : View → Except Err Unit → Prop} {t : Tx Row Key}
    (running : v.tx = some t) (failed : ∀ after err, post after (.error err))
    (stored : ∀ serial, ¬t.holds schema (.audit serial) →
      post (v.within {t with writes := .audit (auditEntry ctx record t.began serial) :: t.writes})
      (.ok ())) : Meets (Local cfg) duty post (recordAudit ctx record) v :=
  insert_meets free running (fun _ _ => failed _ _) stored

end Entities

theorem revocationTTL_zero (zero : revocationTTL jwtTTL = 0) : jwtTTL ≤ 0 := by
  unfold revocationTTL revocationSkew second at zero
  grind

-- The marker is written, or Redis has failed, or tokens do not live at all.
theorem revokeSessionMarker_meets {post : View → Except Err Unit → Prop}
    (failed : ∀ after err, v.events ⊆ after.events → .redisFailed ∈ after.events →
      post after (.error err))
    (owed : duty v (.redisSet (revokedSessionKey sessID) "1" (revocationTTL cfg.jwtTTL) deadline))
    (marked : post (v.note (.marked (revokedSessionKey sessID) "1")) (.ok ()))
    (needless : cfg.jwtTTL ≤ 0 → post v (.ok ())) :
    Meets (Local cfg) duty post (revokeSessionMarker cfg sessID deadline) v := by
  unfold revokeSessionMarker
  split
  · rename_i zero
    exact needless (revocationTTL_zero zero)
  · refine meets_call (fun _ _ stepped => nomatch stepped) owed fun _ _ stepped => ?_
    cases stepped with
    | marked => exact marked
    | lostMark => exact failed _ _ (by simp) (by simp)
    | unmarked => exact failed _ _ (by simp) (by simp)

section Tokens
variable (free : ∀ v c, c.free = true → duty v c)
include free

theorem revokeAllForUser_meets {post : View → Except Err Unit → Prop}
    (failed : ∀ after err, v.events ⊆ after.events → post after (.error err))
    (owed : ∀ w, v.Latest w → duty (v.note (.clock w))
      (.redisSet (revokedUserKey userID) (formatInt w) (revocationTTL cfg.jwtTTL) deadline))
    (marked : ∀ w, post ((v.note (.clock w)).note (.marked (revokedUserKey userID) (formatInt w)))
      (.ok ())) (needless : cfg.jwtTTL ≤ 0 → post v (.ok ())) :
    Meets (Local cfg) duty post (revokeAllForUser cfg userID deadline) v := by
  unfold revokeAllForUser
  split
  · rename_i zero
    exact needless (revocationTTL_zero zero)
  · refine meets_bind (now_meets free fun w latest => ?_)
    refine meets_call (fun _ _ stepped => nomatch stepped) (owed w latest) fun _ _ stepped => ?_
    cases stepped with
    | marked => exact marked w
    | lostMark => exact failed _ _ (fun event member => by simp [member])
    | unmarked => exact failed _ _ (fun event member => by simp [member])

-- The clean-up after a bulk revocation; its deadline was set at `created`.
theorem watermark_meets {post : View → Except Err Unit → Prop} (committed : .committed ∈ v.events)
    (heard : .clock created ∈ v.events)
    (owed : ∀ view key value deadline, .committed ∈ view.events →
      Watermark view userID key value deadline →
      duty view (.redisSet key value (revocationTTL cfg.jwtTTL) deadline))
    (ended : ∀ after result, .committed ∈ after.events →
      (result = .ok () → cfg.jwtTTL ≤ 0 ∨ ∃ w, .clock w ∈ after.events ∧
      .marked (revokedUserKey userID) (formatInt w) ∈ after.events) → post after result) :
    Meets (Local cfg) duty post (revokeAllForUser cfg userID (created+5*second)) v := by
  refine revokeAllForUser_meets free (fun after err grown => ended _ _ (grown committed) nofun)
    (fun w latest => ?_) (fun w => ended _ _ (by simp [committed]) fun _ => .inr
    ⟨w,by simp,by simp⟩) fun dead => ended _ _ committed fun _ => .inl dead
  exact owed _ _ _ _ (by simp [committed])
    ⟨rfl,w,rfl,by simp,Int.add_le_add_right (latest.1 created heard) _⟩

theorem signAccessToken_meets {post : View → Except Err AccessToken → Prop}
    (failed : ∀ after err, post after (.error err))
    (owed : ∀ signedAt, duty (v.note (.clock signedAt))
      (.sign signedAt (accessToken cfg userID sessID role signedAt)))
    (signed : ∀ signedAt, post ((v.note (.clock signedAt)).note
      (.signed signedAt (accessToken cfg userID sessID role signedAt)))
      (.ok (accessToken cfg userID sessID role signedAt))) :
    Meets (Local cfg) duty post (signAccessToken cfg userID sessID role) v := by
  refine meets_bind (now_meets free fun signedAt _ => ?_)
  refine meets_call (fun _ _ stepped => nomatch stepped) (owed signedAt) fun _ _ stepped => ?_
  cases stepped with
  | signed => exact signed signedAt
  | unsigned => exact failed _ _

end Tokens

section Order
variable {t next : Tx Row Key} {test : Row → Bool} {change : Option (Row → Row)} {request : Request}

theorem orderly_progress (idle : t.scan = none) (sofar : Progress schema test change t next)
    (climbs : ∀ row, test row = true → ¬next.holds schema row.key → t.locked ⊆ next.locked →
      (∀ lock ∈ next.locked, lock ∈ t.locked ∨ Current next lock.1.key ∧
      ∃ found, test found = true ∧ found.key = lock.1.key) → Climbs request next row.key) :
    Orderly request next := by
  intro scan k rest running coming unheld
  rcases sofar with rfl | ⟨scan',sofar⟩
  · rw [idle] at running; cases running
  · cases sofar.scanning.symm.trans running
    obtain ⟨row,passes,rfl⟩ := sofar.coming k (by rw [coming]; exact List.mem_cons_self)
    refine climbs row passes unheld sofar.locked fun lock member => ?_
    rcases sofar.added lock member with old | new
    · exact .inl old
    · obtain ⟨visited,inside,same⟩ := Schema.mem_keys.mp new
      obtain ⟨found,also,keyed⟩ := sofar.visited visited inside
      exact .inr ⟨⟨_,running,new⟩,found,also,keyed.trans same⟩

-- No new lock is needed for a row locked before.
theorem orderly_held (idle : t.scan = none) (held : t.holds schema k)
    (only : ∀ row, test row = true → row.key = k)
    (sofar : Progress schema test change t next) : Orderly request next := by
  refine orderly_progress idle sofar fun row passes unheld locked _ => absurd ?_ unheld
  rw [only row passes]
  obtain ⟨old,member,same⟩ := holds_seen.mp held
  obtain ⟨lock,inside,rfl⟩ := List.mem_map.mp member
  exact holds_seen.mpr ⟨_,List.mem_map_of_mem (locked inside),same⟩

-- The first lock of a transaction, on the one row its WHERE names.
theorem orderly_first (idle : t.scan = none) (nothing : t.locked = [])
    (only : ∀ row, test row = true → row.key = k)
    (climbs : next.locked = [] → Climbs request next k)
    (sofar : Progress schema test change t next) : Orderly request next := by
  refine orderly_progress idle sofar fun row passes unheld _ added => ?_
  rw [only row passes] at unheld ⊢
  refine climbs (List.eq_nil_iff_forall_not_mem.mpr fun lock member => ?_)
  rcases added lock member with old | ⟨_,found,also,same⟩
  · rw [nothing] at old; cases old
  · exact unheld (holds_seen.mpr ⟨_,List.mem_map_of_mem member,same.symm.trans (only found also)⟩)

end Order
end RestApi
