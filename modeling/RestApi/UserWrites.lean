import RestApi.Serial

namespace RestApi.UserWrites
open Pool Program RowStore Service Serial

-- The requests that rewrite a user row and create nothing.
def writesUser : Request → Bool
  | .updateUser _ _ _ _ _ => true
  | .changeProfilePicture _ _ _ => true
  | .deleteProfilePicture _ _ => true
  | .resetPassword _ _ _ => true
  | .changePassword _ _ _ _ => true
  | _ => false

-- ChangePassword writes back the row it read before its transaction. A commit is
-- unraced if nobody has written that row since.
def Unraced (events : List Event) (t : Tx Row Key) (older : List (Entry Row Key)) : Prop :=
  ∀ position ∈ reads events, ∀ entry ∈ recent older position, ∀ row ∈ t.writes, row.key.level = 1 →
    row.key ∉ schema.keys entry.tx.writes

instance (events : List Event) (t : Tx Row Key) (older : List (Entry Row Key)) :
    Decidable (Unraced events t older) :=
  inferInstanceAs (Decidable (∀ position ∈ _, _))

def unraced (s : Api) : Act Request Choice Surroundings → Prop
  | .spawn _ request => writesUser request = true
  | .step pid _ =>
      ∀ t ∈ (committing s pid).toList, Unraced (own s.shared.journal pid) t s.shared.db.log
  | _ => True

instance : ∀ s act, Decidable (unraced s act)
  | _,.step _ _ => inferInstanceAs (Decidable (∀ t ∈ _, _))
  | _,.spawn _ _ => inferInstanceAs (Decidable (_ = true))
  | _,.kill _ => inferInstanceAs (Decidable True)
  | _,.env _ => inferInstanceAs (Decidable True)

-- What a request may hear when it runs by itself: what it heard in the run, or
-- a clock that is not behind that.
def Told (w : World) (pid : Pid) : Event → Prop
  | .clock time =>
      (pid,.clock time) ∈ w.journal ∨ ∀ earlier, (pid,.clock earlier) ∈ w.journal → earlier ≤ time
  | event => (pid,event) ∈ w.journal

section Statements
variable {rows writes : List Row}

theorem legal_rows (keyed : schema.Keyed rows) (apart : schema.Apart rows) :
    Legal (schema.overlay rows []).toFinset := by
  rw [Schema.overlay_nil]
  intro a first b second
  rw [List.mem_toFinset] at first second
  exact ⟨keyed a first b second,apart a first b second⟩

theorem mem_clear {row : Row} (member : row ∈ rows)
    (clear : ∀ other ∈ writes, other.key ≠ row.key) :
    row ∈ (schema.overlay rows writes).toFinset := by
  refine mem_draft.mpr (.inr ⟨member,fun written => ?_⟩)
  obtain ⟨other,wrote,same⟩ := Schema.mem_keys.mp written
  exact clear other wrote same

-- userRepository.Update of a row whose email stays as it is.
theorem rewriteUser_adds (u : User) (keyed : schema.Keyed rows)
    (legal : Legal (schema.overlay rows writes).toFinset)
    (clear : ∀ row ∈ writes, row.key.level ≠ 1) (member : .user old ∈ rows)
    (same : old.user.id = u.id) (email : old.user.email = u.email) :
    Adds rows writes (userWithID u.id) (rewriteUser u began) [.user old] := by
  have unwritten : ∀ other ∈ writes, other.key ≠ (Row.user old).key :=
    fun other wrote equal => clear other wrote (by rw [equal]; rfl)
  have finds : Finds (schema.overlay rows writes).toFinset (userWithID u.id) [.user old] := by
    refine finds_point legal (mem_clear member unwritten) (by simp [userWithID,same])
      fun other passes => ?_
    rw [userWithID_key passes,Row.key,same]
  refine ⟨keyed,legal,fun row wrote => ?_,finds,fun row passes => ?_,
    fun row there passes other => ?_⟩
  · cases row with
    | user new => exact absurd rfl (clear _ wrote)
    | _ => rfl
  · cases row <;> rfl
  · cases List.mem_singleton.mp ((finds.2 row).mpr ⟨there,passes⟩)
    cases other <;> simp [schema,rewriteUser,Row.violation,email]

theorem useRecovery_adds (keyed : schema.Keyed rows)
    (legal : Legal (schema.overlay rows writes).toFinset)
    (clear : ∀ row ∈ writes, row.key.level ≠ 0) (member : .recovery token ∈ rows) :
    Adds rows writes (recoveryWithID token.id) (useRecovery used began) [.recovery token] := by
  have unwritten : ∀ other ∈ writes, other.key ≠ (Row.recovery token).key :=
    fun other wrote equal => clear other wrote (by rw [equal]; rfl)
  have finds : Finds (schema.overlay rows writes).toFinset (recoveryWithID token.id)
    [.recovery token] := finds_point legal (mem_clear member unwritten) (by simp [recoveryWithID])
    fun other passes => recoveryWithID_key passes
  refine ⟨keyed,legal,fun row wrote => ?_,finds,fun row passes => ?_,
    fun row there passes other => ?_⟩
  · cases row with
    | recovery new => exact absurd rfl (clear _ wrote)
    | _ => rfl
  · cases row <;> rfl
  · cases row <;> cases other <;> rfl

theorem revokeRow_adds (keyed : schema.Keyed rows)
    (legal : Legal (schema.overlay rows writes).toFinset)
    (clear : ∀ row ∈ writes, row.key.level ≠ 2) (found : List Row)
    (exact' : ∀ row, row ∈ found ↔ row ∈ rows ∧ activeSessionOf userID row = true) :
    Adds rows writes (activeSessionOf userID) (revokeRow began) found.dedup := by
  have idle : ∀ row ∈ writes, activeSessionOf userID row = false := by
    intro row wrote
    cases row with
    | session new => exact absurd rfl (clear _ wrote)
    | _ => rfl
  refine ⟨keyed,legal,idle,⟨List.nodup_dedup found,fun row => ?_⟩,fun row passes => ?_,
    fun row there passes other => ?_⟩
  · rw [List.mem_dedup,exact',mem_draft]
    constructor
    · rintro ⟨member,passes⟩
      refine ⟨.inr ⟨member,fun written => ?_⟩,passes⟩
      obtain ⟨other,wrote,same⟩ := Schema.mem_keys.mp written
      exact clear other wrote
        (by rw [show other.key = row.key from same]; exact activeSessionOf_level passes)
    · rintro ⟨wrote | ⟨member,_⟩,passes⟩
      · rw [idle row wrote] at passes; cases passes
      · exact ⟨member,passes⟩
  · cases row <;> rfl
  · cases row <;> cases other <;> rfl

theorem sweep_unaudited {hits : List Row}
    (swept : ∀ row, row ∈ hits ↔ row ∈ rows ∧ activeSessionOf userID row = true)
    (others : .audit entry ∉ schema.keys writes) :
    .audit entry ∉ schema.keys (hits.dedup.map (revokeRow began) ++ writes) := by
  intro written
  obtain ⟨row,wrote,key⟩ := Schema.mem_keys.mp written
  rcases List.mem_append.mp wrote with revoked | other
  · obtain ⟨hit,inside,rfl⟩ := List.mem_map.mp revoked
    have active := ((swept hit).mp (List.mem_dedup.mp inside)).2
    cases hit with
    | session => cases key
    | _ => cases active
  · exact others (Schema.mem_keys.mpr ⟨row,other,key⟩)

theorem sweep_once (record : Row) (hits rest : List Row) :
    (schema.overlay rows (record :: (hits.dedup.map (revokeRow began) ++ rest))).toFinset =
      (schema.overlay rows (record :: (hits.map (revokeRow began) ++ rest))).toFinset :=
  draft_congr (by simp)

end Statements

section Requests
variable {cfg : Config} {told : Event → Prop} {rows writes : List Row} {began : Time}

theorem getByID_runs (legal : Legal (schema.overlay rows writes).toFinset)
    (clear : ∀ row ∈ writes, row.key.level ≠ 1) (member : .user ⟨usr,none⟩ ∈ rows)
    (same : usr.id = userID) :
    Runs (Atomic cfg told) (getByID .tx userID) (within rows began writes) (.ok usr)
      (within rows began writes) := by
  have unwritten : ∀ other ∈ writes, other.key ≠ (Row.user ⟨usr,none⟩).key :=
    fun other wrote equal => clear other wrote (by rw [equal]; rfl)
  refine lock_runs (finds_point legal (mem_clear member unwritten) (by simp [liveUser,same])
    fun other passes => ?_) rfl
  rw [userByID_key passes,Row.key,same]

theorem updateUserRow_runs
    (adds : Adds rows writes (userWithID u.id) (rewriteUser u began) [.user old]) :
    Runs (Atomic cfg told) (updateUserRow u) (within rows began writes)
      (.ok {u with updatedAt := began})
      (within rows began (rewriteUser u began (.user old) :: writes)) := update_runs adds .done

theorem revokeUserSessionRows_runs
    (adds : Adds rows writes (activeSessionOf userID) (revokeRow began) found) :
    Runs (Atomic cfg told) (revokeUserSessionRows userID) (within rows began writes) (.ok ())
      (within rows began (found.map (revokeRow began) ++ writes)) := update_runs adds .done

theorem require_runs {check : Service Unit} (permitted : check = .done ()) :
    Runs (Atomic cfg told) check d (.ok ()) d := by
  rw [permitted]
  exact .done

theorem checked_runs {outcome : Except Err Unit} (valid : outcome = .ok ()) :
    Runs (Atomic cfg told) (checked outcome) d (.ok ()) d := by
  rw [valid]
  exact .done

variable (keyed : schema.Keyed rows) (apart : schema.Apart rows)
include keyed apart

theorem updateUser_alone (permitted : requireSelfOr cfg ctx userID .userUpdate = .done ())
    (member : .user ⟨prev,none⟩ ∈ rows) (same : prev.id = userID)
    (changed : usr = {prev with
      name := name,phone := setNullable phone,gender := setNullable (cfg.toUpper gender)})
    (valid : User.validate cfg usr = .ok ()) (fresh : .audit entry ∉ schema.keys rows) :
    Runs (Atomic cfg told) (UserService.updateUser cfg ctx userID name phone gender)
      ⟨rows.toFinset,none⟩ (.ok .nil)
      ⟨(schema.overlay rows
        [.audit (auditEntry ctx ⟨.userUpdate,"user",userID,some (.user prev),
          some (.user {usr with updatedAt := began}),[]⟩
          began entry),
          .user ⟨{usr with updatedAt := began},none⟩]).toFinset,none⟩ := by
  subst changed
  have legal := legal_rows keyed apart
  have clear : ∀ row ∈ ([] : List Row), row.key.level ≠ 1 := by simp
  have adds : Adds rows [] _ (rewriteUser _ began) [.user ⟨prev,none⟩] :=
    rewriteUser_adds {prev with
      name := name,phone := setNullable phone,
      gender := setNullable (cfg.toUpper gender)} keyed legal clear member rfl rfl
  refine runs_bind (require_runs permitted) (transact_runs began ?_)
  refine runs_bind (getByID_runs legal clear member same) ?_
  refine runs_bind (checked_runs valid) (runs_bind (updateUserRow_runs adds) ?_)
  exact runs_bind (recordAudit_runs adds.stays fresh
    (by simp [Schema.keys,schema,Row.key,rewriteUser])) .done

theorem changeProfilePicture_alone (permitted : requireSelfOr cfg ctx userID .userUpdate = .done ())
    (member : .user ⟨prev,none⟩ ∈ rows) (same : prev.id = userID) (heard : told (.uuid made))
    (changed : usr = {prev with profilePicture := setNullable (made ++ ext)})
    (fresh : .audit entry ∉ schema.keys rows) :
    Runs (Atomic cfg told) (UserService.changeProfilePicture cfg ctx userID ext)
      ⟨rows.toFinset,none⟩ (.ok .nil)
      ⟨(schema.overlay rows
        [.audit (auditEntry ctx ⟨.changeProfilePicture,"user",userID,some (.user prev),
          some (.user {usr with updatedAt := began}),[]⟩ began entry),
          .user ⟨{usr with updatedAt := began},none⟩]).toFinset,none⟩ := by
  subst changed
  have legal := legal_rows keyed apart
  have clear : ∀ row ∈ ([] : List Row), row.key.level ≠ 1 := by simp
  have adds : Adds rows [] _ (rewriteUser _ began) [.user ⟨prev,none⟩] :=
    rewriteUser_adds {prev with profilePicture := setNullable (made ++ ext)} keyed legal clear
      member rfl rfl
  have put : Atomic cfg told ⟨rows.toFinset,none⟩ (.put (UserService.buildImagePath (made ++ ext)))
    (some (.ok ())) _ := .outside rfl
  refine runs_bind (require_runs permitted)
    (runs_bind (newUUID_runs heard) (runs_bind (.call put .done) ?_))
  apply runs_bind
  · exact runs_settle (transact_runs began
      (runs_bind (getByID_runs legal clear member same)
      (runs_bind (updateUserRow_runs adds)
      (runs_bind (recordAudit_runs adds.stays fresh
      (by simp [Schema.keys,schema,Row.key,rewriteUser])) .done)))) .done
  · cases prev.profilePicture with
    | none => exact .done
    | some image =>
        have dropped {d : Desk} : Atomic cfg told d
          (.asyncDelete (UserService.buildImagePath image)) (some ()) d := .outside rfl
        exact .call dropped .done

theorem deleteProfilePicture_alone (permitted : requireSelfOr cfg ctx userID .userUpdate = .done ())
    (member : .user ⟨prev,none⟩ ∈ rows) (same : prev.id = userID)
    (image : prev.profilePicture = some path) (changed : usr = {prev with profilePicture := none})
    (fresh : .audit entry ∉ schema.keys rows) :
    Runs (Atomic cfg told) (UserService.deleteProfilePicture cfg ctx userID) ⟨rows.toFinset,none⟩
      (.ok .nil)
      ⟨(schema.overlay rows
        [.audit (auditEntry ctx ⟨.deleteProfilePicture,"user",userID,some (.user prev),
          some (.user {usr with updatedAt := began}),[]⟩ began entry),
          .user ⟨{usr with updatedAt := began},none⟩]).toFinset,none⟩ := by
  subst changed
  have legal := legal_rows keyed apart
  have clear : ∀ row ∈ ([] : List Row), row.key.level ≠ 1 := by simp
  have adds : Adds rows [] _ (rewriteUser _ began) [.user ⟨prev,none⟩] :=
    rewriteUser_adds {prev with profilePicture := none} keyed legal clear member rfl rfl
  have dropped {d : Desk} : Atomic cfg told d (.asyncDelete (UserService.buildImagePath path))
    (some ()) d := .outside rfl
  refine runs_bind (require_runs permitted)
    (runs_bind (show Runs _ _ _ (.ok (some path)) _ from transact_runs began ?_)
      (.call dropped .done))
  refine runs_bind (getByID_runs legal clear member same) ?_
  simp only [image]
  refine runs_bind (updateUserRow_runs adds) ?_
  exact runs_bind (recordAudit_runs adds.stays fresh
    (by simp [Schema.keys,schema,Row.key,rewriteUser])) .done

theorem keepNoPicture_alone (permitted : requireSelfOr cfg ctx userID .userUpdate = .done ())
    (member : .user ⟨prev,none⟩ ∈ rows) (same : prev.id = userID)
    (blank : prev.profilePicture = none) :
    Runs (Atomic cfg told) (UserService.deleteProfilePicture cfg ctx userID) ⟨rows.toFinset,none⟩
      (.ok .nil)
      ⟨(schema.overlay rows []).toFinset,none⟩ := by
  refine runs_bind (require_runs permitted)
    (runs_bind (show Runs _ _ _ (.ok none) _ from transact_runs 0 ?_) .done)
  refine runs_bind (getByID_runs (legal_rows keyed apart) (by simp) member same) ?_
  simp only [blank]
  exact .done

theorem changePassword_alone {hits : List Row}
    (permitted : requireSelfOr cfg ctx userID .changePassword = .done ())
    (member : .user ⟨usr,none⟩ ∈ rows) (same : usr.id = userID)
    (verified : cfg.compareHashAndPassword usr.password password = true)
    (short : newPassword.utf8ByteSize ≤ 72)
    (verifies : cfg.compareHashAndPassword digest newPassword = true)
    (swept : ∀ row, row ∈ hits ↔ row ∈ rows ∧ activeSessionOf userID row = true)
    (fresh : .audit entry ∉ schema.keys rows) (heard : told (.clock later)) :
    Runs (Atomic cfg told) (AuthService.changePassword cfg ctx userID password newPassword)
      ⟨rows.toFinset,none⟩ (.ok .nil)
      ⟨(schema.overlay rows (.audit (auditEntry ctx ⟨.changePassword,"user",userID,none,none,
        []⟩ began entry)
        :: (hits.map (revokeRow began) ++
          [rewriteUser {usr with password := digest} began (.user ⟨usr,none⟩)]))).toFinset,
          none⟩ := by
  have legal := legal_rows keyed apart
  have adds : Adds rows [] _ (rewriteUser _ began) [.user ⟨usr,none⟩] :=
    rewriteUser_adds {usr with password := digest} keyed legal (by simp) member rfl rfl
  have sweeps : Adds rows [_] _ (revokeRow began) hits.dedup :=
    revokeRow_adds keyed adds.stays (by simp [rewriteUser,Row.key,Key.level]) hits swept
  have found : Finds rows.toFinset (liveUser fun u => u.id = userID) [.user ⟨usr,none⟩] := by
    rw [← Schema.overlay_nil (S := schema) rows]
    exact finds_point legal (mem_clear member (by simp)) (by simp [liveUser,same])
      fun other passes => by
      rw [userByID_key passes,Row.key,same]
  rw [← sweep_once]
  refine runs_bind (require_runs permitted) (runs_bind (select_runs found rfl) ?_)
  refine runs_bind (verifyPassword_runs verified) (runs_bind (hashPassword_runs short verifies) ?_)
  refine runs_bind (show Runs _ _ _ (.ok ()) _ from transact_runs began ?_)
    (runs_bind (cleanup_runs heard) (runs_bind
    (runs_settle (revokeAllForUser_runs heard) .done) .done))
  refine runs_bind (updateUserRow_runs adds) (runs_bind (revokeUserSessionRows_runs sweeps) ?_)
  exact recordAudit_runs sweeps.stays fresh
    (sweep_unaudited swept (by simp [Schema.keys,schema,Row.key,rewriteUser]))

theorem resetPassword_alone {hits : List Row} (member : .recovery token ∈ rows)
    (hash : token.tokenHash = cfg.hashStr text)
    (only : ∀ other, .recovery other ∈ rows → other.tokenHash = cfg.hashStr text → other = token)
    (unexpired : token.expired checkedAt = false) (unused : token.usedAt = none)
    (live : .user ⟨usr,none⟩ ∈ rows) (owner : usr.id = token.userID)
    (short : password.utf8ByteSize ≤ 72)
    (verifies : cfg.compareHashAndPassword digest password = true)
    (swept : ∀ row, row ∈ hits ↔ row ∈ rows ∧ activeSessionOf usr.id row = true)
    (fresh : .audit entry ∉ schema.keys rows) (checked : told (.clock checkedAt))
    (stamped : told (.clock used)) (heard : told (.clock later)) :
    Runs (Atomic cfg told) (AuthService.resetPassword cfg ctx text password) ⟨rows.toFinset,none⟩
      (.ok .nil)
      ⟨(schema.overlay rows (.audit (auditEntry ctx ⟨.resetPassword,"user",usr.id,none,none,
        []⟩ began entry)
        :: (hits.map (revokeRow began) ++
          [.user ⟨{usr with password := digest,updatedAt := began},none⟩,
            .recovery {token with usedAt := some used}]))).toFinset,none⟩ := by
  have legal := legal_rows keyed apart
  have marks : Adds rows [] _ (useRecovery (some used) began) [.recovery token] :=
    useRecovery_adds keyed legal (by simp) member
  have adds : Adds rows [_] _ (rewriteUser _ began) [.user ⟨usr,none⟩] :=
    rewriteUser_adds {usr with password := digest} keyed marks.stays
      (by simp [useRecovery,Row.key,Key.level]) live rfl rfl
  have sweeps : Adds rows [_,_] _ (revokeRow began) hits.dedup :=
    revokeRow_adds keyed adds.stays (by simp [rewriteUser,useRecovery,Row.key,Key.level]) hits swept
  have found : Finds (schema.overlay rows []).toFinset (recoveryWithHash (cfg.hashStr text))
      [.recovery token] := by
    refine ⟨List.nodup_singleton _,fun row => ?_⟩
    rw [List.mem_singleton,Schema.overlay_nil,List.mem_toFinset]
    constructor
    · rintro rfl
      exact ⟨member,by simp [recoveryWithHash,hash]⟩
    · rintro ⟨there,passes⟩
      cases row with
      | recovery other => rw [only other there (by simpa [recoveryWithHash] using passes)]
      | _ => cases passes
  rw [← sweep_once]
  refine runs_bind (show Runs _ _ _ (.ok usr.id) _ from transact_runs began ?_)
    (runs_bind (cleanup_runs heard) (runs_bind
    (runs_settle (revokeAllForUser_runs heard) .done) .done))
  refine runs_bind (runs_settle (lock_runs found rfl) .done) (runs_bind (now_runs checked) ?_)
  simp only [unexpired,PasswordRecoveryToken.isUsed,unused,Option.isSome_none,Bool.or_self,
    Bool.false_eq_true,if_false]
  refine runs_bind (getByID_runs legal (by simp) live owner)
    (runs_bind (hashPassword_runs short verifies) ?_)
  refine runs_bind (now_runs stamped) (runs_bind (update_runs marks .done)
    (runs_bind (updateUserRow_runs adds) ?_))
  refine runs_bind (revokeUserSessionRows_runs sweeps)
    (runs_bind (recordAudit_runs sweeps.stays fresh ?_) .done)
  exact sweep_unaudited swept (by simp [Schema.keys,schema,Row.key,rewriteUser,useRecovery])

end Requests

section Runs
variable {cfg : Config} {w : World} {Met : List Event → Tx Row Key → List (Entry Row Key) → Prop}
  {older : List (Entry Row Key)} {entry : Entry Row Key} {request : Request} {events : List Event}
  {t : Tx Row Key} (kinds : ∀ pid request, w.requests pid = some request →
  writesUser request = true)
include kinds

-- No token appears and none changes its hash.
theorem recovery_traced (history : History cfg w Met log) (past : n ≤ log.length)
    (member : .recovery token ∈ schema.rows w.db.base log) :
    ∃ old, .recovery old ∈ schema.rowsAt w.db.base log n ∧ old.id = token.id ∧
      old.tokenHash = token.tokenHash := by
  induction history generalizing token with
  | start => exact ⟨token,by simpa [Schema.rowsAt] using member,rfl,rfl⟩
  | @commit older entry request events before made ih =>
      rcases Nat.lt_or_eq_of_le past with longer | rfl
      · have early : n ≤ older.length := Nat.le_of_lt_succ longer
        rw [Schema.rowsAt_cons early]
        rcases recovery_step made.fits made.commits member with ⟨prev,there,step⟩ | ⟨_,issued⟩
        · obtain ⟨old,found,id,hash⟩ := ih early there
          cases step with
          | kept => exact ⟨old,found,id,hash⟩
          | used => exact ⟨old,found,id,hash⟩
        · obtain ⟨_,_,rfl⟩ := issued.asked
          cases kinds _ _ made.asked
      · rw [Schema.rowsAt_length]
        exact ⟨token,member,rfl,rfl⟩

theorem token_single (before : History cfg w Met older) (fits : Fits schema w.db.base older t)
    (keyed : schema.Keyed (schema.rows w.db.base older))
    (looked : Scanned schema (recoveryWithHash digest) t looking)
    (single : looking.hits = [.recovery token])
    (own : ∀ row, .recovery row ∈ t.writes → row.id = token.id) :
    ∀ other, .recovery other ∈ schema.rows w.db.base older → other.tokenHash = digest →
      other = token := by
  intro other member hash
  have current : .recovery token ∈ schema.rows w.db.base older :=
    fits.current _ (looked.hits _ (by rw [single]; exact List.mem_singleton_self _)).2
  have same (id : token.id = other.id) : other = token := by
    have key : schema.key (.recovery other) = schema.key (.recovery token) :=
      congrArg Key.recovery id.symm
    exact Row.recovery.inj (keyed _ member _ current key)
  have start := (fits.scans looking (List.mem_append_right _ looked.listed)).2.1
  obtain ⟨old,snapshot,id,also⟩ := recovery_traced kinds before start member
  have key : schema.key (.recovery old) = schema.key (.recovery other) := congrArg Key.recovery id
  rcases looked.covers fits snapshot (by simp [recoveryWithHash,also,hash]) with hit |
    ⟨row,locked,fails,equal⟩ | written
  · obtain ⟨row,found,equal⟩ := Schema.mem_keys.mp hit
    rw [single,List.mem_singleton] at found
    subst found
    exact same (Key.recovery.inj (equal.trans key))
  · cases keyed _ (fits.current row locked) _ member (equal.trans key)
    simp [recoveryWithHash,hash] at fails
  · obtain ⟨row,wrote,equal⟩ := Schema.mem_keys.mp written
    cases row with
    | recovery new => exact same ((own new wrote).symm.trans (Key.recovery.inj (equal.trans key)))
    | _ => cases equal

theorem sweep_exact (before : History cfg w Met older) (fits : Fits schema w.db.base older t)
    (keyed : schema.Keyed (schema.rows w.db.base older)) (sweeps : Sweeps t userID revoking)
    (row : Row) :
    row ∈ revoking.hits ↔ row ∈ schema.rows w.db.base older ∧
      activeSessionOf userID row = true := by
  constructor
  · intro hit
    exact ⟨fits.current row (sweeps.scanned.hits row hit).2,(sweeps.scanned.hits row hit).1⟩
  · rintro ⟨member,active⟩
    cases row with
    | session sess =>
        refine sweep_finds before fits keyed sweeps
          (fun login recently unlocked new wrote => ?_) member active
        obtain ⟨_,_,_,made⟩ := before.made (mem_recent recently)
        rcases session_written made.commits wrote with ⟨old,seen,_⟩ | ⟨_,_,_,_,rfl,_⟩
        · simp [Tx.seen,unlocked] at seen
        · cases kinds _ _ made.asked
    | _ => cases active

omit kinds in
theorem audit_fresh (fits : Fits schema w.db.base older t)
    (writes : t.writes = .audit record :: rest) (unheld : ¬t.holds schema (.audit record.id)) :
    .audit record.id ∉ schema.keys (schema.rows w.db.base older) :=
  (fits.owned (.audit record) (by rw [writes]; exact List.mem_cons_self)).resolve_left unheld

omit kinds in
-- The row ChangePassword read is the one it overwrites.
theorem read_current {position : Nat} (fits : Fits schema w.db.base older t)
    (keyed : schema.Keyed (schema.rows w.db.base older))
    (selects : ∀ n rows, .selected n rows ∈ events → n ≤ older.length ∧
      ∀ row ∈ rows, row ∈ schema.rowsAt w.db.base older n) (met : Unraced events t older)
    (found : .selected position [.user ⟨usr,none⟩] ∈ events) (locked : .user old ∈ t.seen)
    (target : old.user.id = usr.id) (wrote : .user usr.id ∈ schema.keys t.writes) :
    .user ⟨usr,none⟩ ∈ schema.rows w.db.base older ∧ old = ⟨usr,none⟩ := by
  obtain ⟨row,written,key⟩ := Schema.mem_keys.mp wrote
  replace key : row.key = .user usr.id := key
  obtain ⟨past,snapshot⟩ := selects position _ found
  have untouched : ∀ entry ∈ recent older position, schema.key
      (.user ⟨usr,none⟩) ∉ schema.keys entry.tx.writes := by
    intro entry recently
    have clear := met position (mem_reads found) entry recently row written (by rw [key]; rfl)
    rwa [key] at clear
  have current := rowsAt_kept past (snapshot _ List.mem_cons_self) untouched
  exact ⟨current,Row.user.inj (keyed _ (fits.current _ locked) _ current
    (congrArg Key.user target))⟩

theorem commits_alone (clocks : ∀ pid time, (pid,.clock time) ∈ w.journal → time ≤ w.db.now)
    (before : History cfg w Met older) (keyed : schema.Keyed (schema.rows w.db.base older))
    (apart : schema.Apart (schema.rows w.db.base older)) (fits : Fits schema w.db.base older t)
    (known : events ⊆ own w.journal pid)
    (selects : ∀ n rows, .selected n rows ∈ events → n ≤ older.length ∧
      ∀ row ∈ rows, row ∈ schema.rowsAt w.db.base older n) (commits : Commits cfg request t events)
    (met : Unraced events t older) (kind : writesUser request = true) :
    ∃ value, Runs (Atomic cfg (Told w pid)) (serve cfg request)
      ⟨(schema.rows w.db.base older).toFinset,none⟩ (.ok value)
      ⟨(schema.overlay (schema.rows w.db.base older) t.writes).toFinset,none⟩ := by
  have told {event : Event} (heard : event ∈ events) : (pid,event) ∈ w.journal :=
    mem_own.mp (known heard)
  have later : Told w pid (.clock w.db.now) := .inr fun earlier => clocks pid earlier
  cases commits with
  | updateUser permitted live same changed valid unheld writes =>
      have fresh := audit_fresh fits writes unheld
      rw [writes]
      exact ⟨_,updateUser_alone keyed apart permitted
        (fits.current _ live) same changed valid fresh⟩
  | changeProfilePicture permitted live same drawn _ changed unheld writes =>
      have fresh := audit_fresh fits writes unheld
      rw [writes]
      exact ⟨_,changeProfilePicture_alone keyed apart permitted (fits.current _ live) same
        (told drawn) changed fresh⟩
  | keepNoPicture permitted live same blank writes =>
      rw [writes]
      exact ⟨_,keepNoPicture_alone keyed apart permitted (fits.current _ live) same blank⟩
  | deleteProfilePicture permitted live same image changed unheld writes =>
      have fresh := audit_fresh fits writes unheld
      rw [writes]
      exact ⟨_,deleteProfilePicture_alone keyed apart permitted
        (fits.current _ live) same image changed fresh⟩
  | resetPassword looked single checked hash unexpired unused live owner short verifies heard
      revoked last unheld writes =>
      have fresh := audit_fresh fits writes unheld
      have swept := sweep_exact kinds before fits keyed
        (sweeps_writes revoked last writes (by simp))
      have only := token_single kinds before fits keyed looked single fun row wrote => by
        simp only [writes,List.mem_cons,List.mem_append,reduceCtorEq,Row.recovery.injEq,
          List.not_mem_nil,or_false,false_or] at wrote
        rcases wrote with hit | rfl
        · obtain ⟨_,_,same⟩ := revoked_row hit revoked.hits
          cases same
        · rfl
      rw [writes]
      exact ⟨_,resetPassword_alone keyed apart
        (fits.current _ checked.seen) hash only unexpired unused
        (fits.current _ live) owner short verifies swept fresh (.inl (told checked.1))
        (.inl (told heard)) later⟩
  | changePassword permitted found same verified short verifies locked target revoked last unheld
      writes =>
      have fresh := audit_fresh fits writes unheld
      have swept := sweep_exact kinds before fits keyed
        (sweeps_writes revoked last writes (by simp [rewriteUser]))
      subst same
      obtain ⟨current,rfl⟩ := read_current fits keyed selects met found locked target
        (by rw [writes]; simp [Schema.keys,schema,Row.key,rewriteUser,target])
      rw [writes]
      exact ⟨_,changePassword_alone keyed apart permitted current rfl verified short verifies
        swept fresh later⟩
  | _ => cases kind

theorem history_serial (clocks : ∀ pid time, (pid,.clock time) ∈ w.journal → time ≤ w.db.now)
    (keyed : schema.Keyed w.db.base) (apart : schema.Apart w.db.base)
    (history : History cfg w Unraced log) :
    InTurn cfg (Told w) w.requests w.db.base.toFinset (log.map Entry.owner)
      (schema.rows w.db.base log).toFinset := by
  induction history with
  | start => exact .start
  | commit before made ih =>
      have chronicle := before.chronicle keyed apart
      obtain ⟨value,ran⟩ := commits_alone kinds clocks before chronicle.keyed chronicle.apart
        made.fits
        made.known made.selects made.commits made.met
        (kinds _ _ made.asked)
      exact .next ih made.asked ran

omit kinds in
-- The current-password check held for the row that was overwritten.
theorem checked_current (keyed : schema.Keyed (schema.rows w.db.base older))
    (fits : Fits schema w.db.base older t)
    (selects : ∀ n rows, .selected n rows ∈ events → n ≤ older.length ∧
      ∀ row ∈ rows, row ∈ schema.rowsAt w.db.base older n) (met : Unraced events t older)
    (commits : Commits cfg (.changePassword ctx userID password newPassword) t events) :
    ∃ usr, .user ⟨usr,none⟩ ∈ schema.rows w.db.base older ∧ usr.id = userID ∧
      cfg.compareHashAndPassword usr.password password = true := by
  cases commits with
  | changePassword _ found same verified _ _ locked target _ _ _ writes =>
      obtain ⟨current,_⟩ := read_current fits keyed selects met found locked
        (target.trans same.symm)
        (by rw [writes]; simp [Schema.keys,schema,Row.key,rewriteUser,target,same])
      exact ⟨_,current,same,verified⟩

omit kinds in
-- What a writer of user rows that has returned without error has done.
theorem finished_committed {v : View} (asked : v.request = some request)
    (kind : writesUser request = true)
    (ended : outcome cfg v (.ok value)) : .committed ∈ v.events := by
  obtain ⟨request',same,ends⟩ := ended
  cases asked.symm.trans same
  cases request <;> first | exact ends | exact ends.1 | cases kind

end Runs

section Inversion
variable {cfg : Config} {told : Event → Prop} {d last : Desk}

theorem select_parts {pick : Row → Option α}
   
    (ran : Runs (Atomic cfg told) (query .pool test (scanOne pick missing text)) d
      (.ok value) last) : last = d ∧ ∃ row ∈ d.rows, test row = true ∧ pick row = some value := by
  cases ran with
  | call stepped rest =>
      cases stepped with
      | @selected _ found finds =>
          match found with
          | [] => cases rest
          | _ :: _ :: _ => cases rest
          | [row] =>
              obtain ⟨member,passes⟩ := (finds.2 row).mp (List.mem_singleton_self row)
              simp only [scanOne] at rest
              split at rest
              · rename_i picked
                cases rest
                exact ⟨rfl,row,member,passes,picked⟩
              · cases rest
      | outside elsewhere => cases elsewhere

theorem transact_parts {body : Service α}
    (ran : Runs (Atomic cfg told) (transact body) d (.ok value) last) :
    ∃ began middle draft, Runs (Atomic cfg told) body {d with tx := some (began,d.rows)}
      (.ok value) middle ∧
      (∃ stamp, middle.tx = some (stamp,draft)) ∧ last = ⟨draft,none⟩ := by
  cases ran with
  | call stepped rest =>
      cases stepped with
      | opened =>
          obtain ⟨result,middle,inner,ended⟩ := runs_settle_parts rest
          cases result with
          | error =>
              cases ended with
              | call _ failed => cases failed
          | ok =>
              cases ended with
              | call stepped finished =>
                  cases stepped with
                  | committed running => cases finished; exact ⟨_,middle,_,inner,⟨_,running⟩,rfl⟩
                  | outside elsewhere => cases elsewhere
      | outside elsewhere => cases elsewhere

theorem update_parts {next : Except SqlError (List Row) → Service α}
    (ran : Runs (Atomic cfg told) (.call (.update test change) next) d result last) :
    ∃ began draft found, d.tx = some (began,draft) ∧
      Runs (Atomic cfg told) (next (.ok found))
        {d with tx := some (began,rewrite draft test (change began))} result last := by
  cases ran with
  | call stepped rest =>
      cases stepped with
      | updated running _ _ => exact ⟨_,_,_,running,rest⟩
      | outside elsewhere => cases elsewhere

theorem execute_parts (ran : Runs (Atomic cfg told) (execute text (.ok found)) d (.ok value) last) :
    last = d := by
  cases ran; rfl

theorem updateUserRow_parts (ran : Runs (Atomic cfg told) (updateUserRow u) d (.ok value) last) :
    ∃ began draft,
    last.tx = some (began,rewrite draft (userWithID u.id) (rewriteUser u began)) := by
  obtain ⟨began,draft,found,_,rest⟩ := update_parts ran
  split at rest
  · cases rest; exact ⟨began,draft,rfl⟩
  · cases rest
  · cases rest
  · cases rest

theorem now_parts (ran : Runs (Atomic cfg told) now d result last) : last = d := by
  cases ran with
  | call stepped rest => cases stepped <;> cases rest <;> rfl

theorem requireSelfOr_parts
    (ran : Runs (Atomic cfg told) (requireSelfOr cfg ctx userID permission) d (.ok value) last) :
    last = d := by
  unfold requireSelfOr at ran
  split at ran
  · cases ran
  · split at ran
    · cases ran; rfl
    · split at ran <;> cases ran; rfl

theorem verifyPassword_parts
    (ran : Runs (Atomic cfg told) (verifyPassword cfg plain digest) d (.ok value) last) :
    last = d ∧ cfg.compareHashAndPassword digest plain = true := by
  unfold verifyPassword at ran
  split at ran
  · rename_i verifies
    cases ran; exact ⟨rfl,verifies⟩
  · cases ran

theorem hashPassword_parts (ran : Runs (Atomic cfg told) (hashPassword plain) d (.ok digest) last) :
    last = d ∧ cfg.compareHashAndPassword digest plain = true := by
  cases ran with
  | call stepped rest =>
      cases stepped with
      | hashed _ verifies => cases rest; exact ⟨rfl,verifies⟩
      | unhashed _ => cases rest
      | outside elsewhere => cases elsewhere

theorem revokeAllForUser_parts
    (ran : Runs (Atomic cfg told) (revokeAllForUser cfg userID deadline) d result last) :
    last = d := by
  unfold revokeAllForUser at ran
  split at ran
  · cases ran; rfl
  · obtain ⟨read,middle,first,second⟩ := runs_settle_parts ran
    cases now_parts first
    cases read with
    | error => cases second; rfl
    | ok time =>
        cases second with
        | @call _ _ reply _ _ _ _ stepped rest =>
            cases stepped
            cases reply <;> cases rest <;> rfl

theorem recordAudit_parts (before : d.tx = some (began,draft))
    (ran : Runs (Atomic cfg told) (recordAudit ctx record) d (.ok value) last) :
    ∃ record, last.tx = some (began,insert (.audit record) draft) := by
  cases ran with
  | call stepped rest =>
      cases stepped with
      | inserted running _ _ =>
          cases before.symm.trans running
          cases rest
          exact ⟨_,rfl⟩
      | outside elsewhere => cases elsewhere

-- Alone, ChangePassword checks the stored password and leaves the new one.
theorem changePassword_parts
    (ran : Runs (Atomic cfg told) (AuthService.changePassword cfg ctx userID password newPassword)
      ⟨rows,none⟩ (.ok value) last) :
    (∃ row, .user row ∈ rows ∧ row.user.id = userID ∧
      cfg.compareHashAndPassword row.user.password password = true) ∧
      ∀ row, .user row ∈ last.rows → row.user.id = userID →
        cfg.compareHashAndPassword row.user.password newPassword = true := by
  -- The permission check, the read outside the transaction, the check and the hash.
  obtain ⟨_,_,permitted,ran⟩ := runs_bind_parts ran
  obtain ⟨usr,_,read,ran⟩ := runs_bind_parts ran
  obtain ⟨_,_,verified,ran⟩ := runs_bind_parts ran
  obtain ⟨digest,_,hashed,ran⟩ := runs_bind_parts ran
  cases requireSelfOr_parts permitted
  obtain ⟨rfl,row,member,passes,picked⟩ := select_parts read
  obtain ⟨rfl,checked⟩ := verifyPassword_parts verified
  obtain ⟨rfl,verifies⟩ := hashPassword_parts hashed
  cases user_shape _ row usr passes picked
  have same : usr.id = userID := by simpa [liveUser] using passes
  refine ⟨⟨_,member,same,checked⟩,?_⟩
  -- The transaction, and what follows its commit.
  obtain ⟨_,_,changed,ran⟩ := runs_bind_parts ran
  obtain ⟨began,middle,draft,body,⟨_,running⟩,rfl⟩ := transact_parts changed
  obtain ⟨_,_,timed,ran⟩ := runs_bind_parts ran
  obtain ⟨_,_,clock,ended⟩ := runs_bind_parts timed
  cases now_parts clock
  cases ended
  obtain ⟨_,_,marked,ran⟩ := runs_bind_parts ran
  obtain ⟨_,_,marked,last⟩ := runs_settle_parts marked
  cases revokeAllForUser_parts marked
  cases last
  cases ran
  obtain ⟨_,_,updated,body⟩ := runs_bind_parts body
  obtain ⟨_,_,swept,recorded⟩ := runs_bind_parts body
  obtain ⟨stamp,rows,first⟩ := updateUserRow_parts updated
  obtain ⟨_,_,_,second,rest⟩ := update_parts swept
  cases execute_parts rest
  cases first.symm.trans second
  obtain ⟨record,third⟩ := recordAudit_parts rfl recorded
  cases third.symm.trans running
  intro row stored owner
  replace stored := (Finset.mem_insert.mp stored).resolve_left (by rintro ⟨⟩)
  obtain ⟨kept,there,equal⟩ := Finset.mem_image.mp stored
  obtain ⟨old,_,rfl⟩ := Finset.mem_image.mp there
  cases old with
  | user old =>
      by_cases target : old.user.id = usr.id
      · simp [userWithID,target,rewriteUser,activeSessionOf] at equal
        rw [← equal]
        exact verifies
      · simp [userWithID,target,activeSessionOf] at equal
        exact absurd (equal ▸ owner.trans same.symm) target
  | session old =>
      simp only [userWithID,Bool.false_eq_true,if_false] at equal; split at equal <;> cases equal
  | _ => simp [userWithID,activeSessionOf] at equal

end Inversion

theorem user_writes_serialisable {base : List Row} {s : Api} (keyed : schema.Keyed base)
    (apart : schema.Apart base)
    (path : Reached (api cfg) unraced (boot base serial uuids start) s) :
    InTurn cfg (Told s.shared) s.shared.requests base.toFinset
      (s.shared.db.log.map Entry.owner) s.shared.committed.toFinset ∧
      (s.shared.db.log.map Entry.owner).Nodup ∧
      (∀ pid value, s.threads pid = some (.done value) → pid ∈ s.shared.db.log.map Entry.owner) ∧
      ∀ newer entry older ctx userID password newPassword, s.shared.db.log = newer ++
        entry :: older →
        s.shared.requests entry.owner = some (.changePassword ctx userID password newPassword) →
        ∃ usr, .user ⟨usr,none⟩ ∈ schema.rows base older ∧ usr.id = userID ∧
          cfg.compareHashAndPassword usr.password password = true := by
  have origin : s.shared.db.base = base := (reached_grows path).base
  have kinds := reached_requests (fun request => writesUser request = true)
    (fun _ _ _ allowed => allowed) path
  have history := reached_history keyed apart
    (fun _ _ _ t allowed running => allowed t (by simp [running])) path
  obtain ⟨valid,meets⟩ := reached_contract keyed apart path
  refine ⟨?_,history.nodup,fun pid value ended => ?_,
    fun newer entry older ctx userID password newPassword log asked => ?_⟩
  · rw [← origin] at keyed apart ⊢
    exact history_serial kinds valid.clocks keyed apart history
  · have finished : outcome cfg (s.shared.view pid) (.ok value) := meets pid _ ended
    obtain ⟨request,asked,_⟩ := id finished
    exact reached_committed path pid (mem_own.mp
      (finished_committed asked (kinds pid request asked) finished))
  · rw [log] at history
    obtain ⟨before,request,events,made⟩ := history.split
    cases asked.symm.trans made.asked
    rw [← origin] at keyed apart ⊢
    exact checked_current (before.chronicle keyed apart).keyed made.fits made.selects made.met
      made.commits

namespace Controls
open RestApi.Controls

def writers : Api → Act Request Choice Surroundings → Prop
  | _,.spawn _ request => writesUser request = true
  | _,_ => True

instance : ∀ s act, Decidable (writers s act)
  | _,.spawn _ _ => inferInstanceAs (Decidable (_ = true))
  | _,.step _ _ => inferInstanceAs (Decidable True)
  | _,.kill _ => inferInstanceAs (Decidable True)
  | _,.env _ => inferInstanceAs (Decidable True)

def request (newPassword : String) : Request := .changePassword asAnn "u1" "old" newPassword

def checked (pid : Pid) (newPassword : String) : Schedule :=
  [.spawn pid (request newPassword),.step pid .runs,.step pid (.value ("$" ++ newPassword))]

-- The transaction, the clean-up deadline and the watermark.
def changed (pid : Pid) : Schedule :=
  [.step pid .runs,.step pid (.plan [.user "u1"]),.step pid .next,.step pid .runs,
    .step pid (.plan []),.step pid .runs,.step pid .runs,.step pid .runs,.step pid .runs,
    .step pid .runs,.step pid .runs]

def renamed (pid : Pid) : Schedule :=
  [.spawn pid (.updateUser asAnn "u1" "Bea" "" ""),.step pid .runs,.step pid (.plan [.user "u1"]),
    .step pid .next,.step pid .runs,.step pid (.plan [.user "u1"]),.step pid .next,.step pid .runs,
    .step pid .runs,.step pid .runs]

def succeeded (s : Api) (pid : Pid) : Bool := match s.threads pid with
  | some (.done _) => true
  | _ => false

-- Once the password is another one, a change from the old one cannot succeed.
theorem second_refused (asked : requests p = some (request x))
    (asked' : requests q = some (request y)) (differs : x ≠ "old") :
    ¬InTurn config told requests base [q,p] rows := by
  intro serial
  cases serial with
  | next past again ran =>
      cases asked'.symm.trans again
      cases past with
      | next _ again earlier =>
          cases asked.symm.trans again
          obtain ⟨row,member,owner,checked⟩ := (changePassword_parts ran).1
          have renewed := (changePassword_parts earlier).2 row member owner
          simp only [config,decide_eq_true_eq] at checked renewed
          exact differs ((String.append_right_inj "$").mp (renewed.symm.trans checked))

-- Both check the old password, then one overwrites the other.
theorem passwords_race : ∃ s, Reached (api config) writers init s ∧ succeeded s 0 = true ∧
    succeeded s 1 = true ∧
    ∀ order rows, order.Perm [0,1] → ¬InTurn config (fun _ _ => True) s.shared.requests
      [Row.user ⟨ann,none⟩].toFinset order rows := by
  obtain ⟨s,path,first,second,asked,asked'⟩ := run_finds (api config) writers init
    (checked 0 "one" ++ checked 1 "two" ++ changed 0 ++ changed 1)
    (fun s => succeeded s 0 = true ∧ succeeded s 1 = true ∧
      s.shared.requests 0 = some (request "one") ∧ s.shared.requests 1 = some (request "two"))
      (by decide +kernel)
  refine ⟨s,path,first,second,fun order rows perm serial => ?_⟩
  obtain ⟨p,q,rfl⟩ := List.length_eq_two.mp perm.length_eq
  have members : (p = 0 ∨ p = 1) ∧ (q = 0 ∨ q = 1) := by simpa using perm.subset
  have different : p ≠ q := by simpa using perm.nodup_iff.mpr (by decide)
  rcases members with ⟨rfl | rfl,rfl | rfl⟩
  · exact different rfl
  · exact second_refused asked' asked (by decide) serial
  · exact second_refused asked asked' (by decide) serial
  · exact different rfl

-- A new name, then a new password that is checked and stored for the renamed row.
theorem user_writes_serialisable_renamed : ∃ s, Reached (api config) unraced init s ∧
    .user ⟨{ann with name := "Bea",password := "$one",updatedAt := 1000*second},none⟩ ∈
      s.shared.committed ∧
    InTurn config (Told s.shared) s.shared.requests [Row.user ⟨ann,none⟩].toFinset
      (s.shared.db.log.map Entry.owner)
      s.shared.committed.toFinset := by
  obtain ⟨s,path,final⟩ :=
    run_finds (api config) unraced init (renamed 1 ++ checked 0 "one" ++ changed 0)
    (fun s => .user ⟨{ann with name := "Bea",password := "$one",updatedAt := 1000*second},
    none⟩ ∈ s.shared.committed) (by decide +kernel)
  refine ⟨s,path,final,(user_writes_serialisable ?_ ?_ path).1⟩
  · simp [Schema.Keyed]
  · simp [Schema.Apart]

end Controls
end RestApi.UserWrites
